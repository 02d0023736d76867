import AutoSerialBridge.Codegen.HashInput
import AutoSerialBridge.Codegen.Target
import AutoSerialBridge.Link.McuToRos
import AutoSerialBridge.Link.RosReceive
import AutoSerialBridge.Mcu.RoundTrip

/-!
# Auto Serial Bridge — equal hash inputs, compatible ends

The handshake compares a digest of `_protocol_hash_input`. Two protocols with the same hash input
have the same header bytes, checksum, payload limit and, message by message, the same ids, reliable
flags and C types (`WireEq`), so that the ROS side of one understands the MCU side of the other.

The generator writes a `send_<Msg>` for every message. Those of reliable messages, which only the
ROS side is meant to send, leave out the sequence byte, and no `parse_packet` takes their frames.

## Results

* `Protocol.HashedFrom.wireEq` — what equal hash inputs fix.
* `protocolHashInput_compat` — **equal hash inputs mean compatible ends, and only wire-relevant data
  enters the hash input**.
-/

namespace AutoSerialBridge

open Lib PacketHandler

-- ---------------------------------------------------------------------------
-- Protocols that agree on the wire
-- ---------------------------------------------------------------------------

/-- The same id, the same C type at every position, and a sequence byte on both sides or on none. -/
structure Message.SameLayout (m₁ m₂ : Message) : Prop where
  id : m₁.id = m₂.id
  reliable : m₁.reliable = m₂.reliable
  cTypes : m₁.fields.map (·.cType) = m₂.fields.map (·.cType)

namespace Message.SameLayout

variable {m₁ m₂ : Message}

theorem symm (h : m₁.SameLayout m₂) : m₂.SameLayout m₁ :=
  ⟨h.id.symm, h.reliable.symm, h.cTypes.symm⟩

theorem sizeofPacket_eq (h : m₁.SameLayout m₂) : m₁.sizeofPacket = m₂.sizeofPacket := by
  have hsizes : ∀ m : Message, m.sizeofPacket = ((m.fields.map (·.cType)).map CType.size).sum := by
    intro m
    rw [sizeofPacket, List.map_map]
    rfl
  rw [hsizes, hsizes, h.cTypes]

theorem wireSize_eq (h : m₁.SameLayout m₂) : m₁.wireSize = m₂.wireSize := by
  rw [wireSize, wireSize, h.sizeofPacket_eq, h.reliable]

end Message.SameLayout

/-- Protocols that agree on everything on the wire. -/
structure Protocol.WireEq (p₁ p₂ : Protocol) : Prop where
  frameHeader1 : p₁.frameHeader1 = p₂.frameHeader1
  frameHeader2 : p₁.frameHeader2 = p₂.frameHeader2
  checksumAlgo : p₁.checksumAlgo = p₂.checksumAlgo
  requireHandshake : p₁.requireHandshake = p₂.requireHandshake
  maxPacketPayloadSize : p₁.maxPacketPayloadSize = p₂.maxPacketPayloadSize
  messages : List.Forall₂ Message.SameLayout p₁.messages p₂.messages

/-- Two compiled messages described by one entry of the hash input. -/
theorem HashedAs.sameLayout {t : CTarget} {hm : HashedMessage} {m₁ m₂ : Message}
    (h₁ : HashedAs t hm m₁) (h₂ : HashedAs t hm m₂) : m₁.SameLayout m₂ := by
  have hfields : List.Forall₂ (fun f₁ f₂ : Field => f₁.cType = f₂.cType) m₁.fields m₂.fields :=
    forall₂_comp (fun _ _ _ hf₁ hf₂ => Option.some.inj (hf₁.symm.trans hf₂)) h₁.fields.flip
      h₂.fields
  exact ⟨Option.some.inj (h₁.id.symm.trans h₂.id), h₁.reliable.symm.trans h₂.reliable,
    map_eq_of_forall₂ hfields fun _ _ _ h => h⟩

/-- **Equal hash inputs** fix everything on the wire. -/
theorem Protocol.HashedFrom.wireEq {t : CTarget} {hi : ProtocolHashInput} {p₁ p₂ : Protocol}
    (h₁ : p₁.HashedFrom t hi) (h₂ : p₂.HashedFrom t hi) : p₁.WireEq p₂ := by
  obtain ⟨sizes₁, hsizes₁, hmax₁⟩ := h₁.sizes
  obtain ⟨sizes₂, hsizes₂, hmax₂⟩ := h₂.sizes
  have hsizes : sizes₁ = sizes₂ := forall₂_ok_unique hsizes₁ hsizes₂
  exact ⟨Option.some.inj (h₁.header1.symm.trans h₂.header1),
    Option.some.inj (h₁.header2.symm.trans h₂.header2),
    Option.some.inj (h₁.checksumAlgo.symm.trans h₂.checksumAlgo),
    h₁.requireHandshake.symm.trans h₂.requireHandshake,
    by rw [hmax₁, hmax₂, hsizes],
    forall₂_comp (fun _ _ _ hm₁ hm₂ => hm₁.sameLayout hm₂) h₁.messages.flip h₂.messages⟩

namespace Protocol.WireEq

variable {p₁ p₂ : Protocol}

theorem symm (h : p₁.WireEq p₂) : p₂.WireEq p₁ :=
  ⟨h.frameHeader1.symm, h.frameHeader2.symm, h.checksumAlgo.symm, h.requireHandshake.symm,
    h.maxPacketPayloadSize.symm, (h.messages.imp fun _ _ hm => hm.symm).flip⟩

theorem frame_eq (h : p₁.WireEq p₂) (id : UInt8) (payload : List UInt8) :
    frame p₁ id payload = frame p₂ id payload := by
  rw [frame, frame, h.frameHeader1, h.frameHeader2, h.checksumAlgo]

theorem fits (h : p₁.WireEq p₂) (hfits : p₁.Fits) : p₂.Fits := by
  intro m₂ hm₂
  obtain ⟨m₁, hm₁, hlayout⟩ := exists_left_of_forall₂ h.messages hm₂
  rw [← hlayout.wireSize_eq, ← h.maxPacketPayloadSize]
  exact hfits m₁ hm₁

end Protocol.WireEq

-- ---------------------------------------------------------------------------
-- Frames taken by the other end
-- ---------------------------------------------------------------------------

/-- Every frame of the ROS side of `p₁` is taken by an MCU of `p₂` that is between two frames: the
message with the same id and layout gets the struct's bytes, and the reply, if there is one, is the
prescribed one, for a reliable message an Ack with its id and seq. -/
def RosFramesTaken (p₁ p₂ : Protocol) : Prop :=
  ∀ tx : TxMessage, tx.Valid p₁ → ∃ m ∈ p₂.messages, tx.message.SameLayout m ∧
    ∀ s : Mcu, s.rxState = .waitHeader1 → s.rxBuffer.length = p₂.maxPacketPayloadSize →
      (Mcu.feedAll p₂ s (tx.encode p₁)).1.rxState = .waitHeader1 ∧
      (Mcu.feedAll p₂ s (tx.encode p₁)).2 = (⟨m, tx.data, tx.seq⟩ : TxMessage).actions p₂

/-- Every frame of this `send_<Msg>` of `p₂` is taken by the ROS side of `p₁`: the message with the
same id and layout gets a packet from which `Packet::as` recovers the struct's bytes. -/
def SendTaken (p₁ p₂ : Protocol) (m₂ : Message) : Prop :=
  ∃ m₁ ∈ p₁.messages, m₁.SameLayout m₂ ∧
    ∀ (bytes : List UInt8) (h : PacketHandler), bytes.length = m₂.sizeofPacket →
      h.BuiltWith p₁.bufferSize → h.queue = [] →
      (Receiver.feedCalls p₁ [Mcu.send p₂ m₂ bytes] ⟨h, []⟩).2.packets = [⟨m₂.id, bytes⟩] ∧
      (⟨m₂.id, bytes⟩ : Packet).as (p₁.sizeofPacket m₂.id) = bytes

section Taken

variable {p₁ p₂ : Protocol}

theorem rosFramesTaken (h : p₁.WireEq p₂) (hwf : p₂.WellFormed) (hfits : p₂.Fits) :
    RosFramesTaken p₁ p₂ := by
  intro tx hv
  obtain ⟨m, hm, hlayout⟩ := exists_right_of_forall₂ h.messages hv.mem
  refine ⟨m, hm, hlayout, fun s hs hbuf => ?_⟩
  have hvalid : (⟨m, tx.data, tx.seq⟩ : TxMessage).Valid p₂ :=
    ⟨hm, hv.length_eq.trans hlayout.sizeofPacket_eq⟩
  have hpayload : tx.payload = (⟨m, tx.data, tx.seq⟩ : TxMessage).payload := by
    rw [TxMessage.payload, TxMessage.payload, hlayout.reliable]
  have hencode : tx.encode p₁ = (⟨m, tx.data, tx.seq⟩ : TxMessage).encode p₂ := by
    rw [TxMessage.encode_eq_frame, TxMessage.encode_eq_frame, h.frame_eq, hpayload, hlayout.id]
  have hseg : (⟨[], ⟨m, tx.data, tx.seq⟩⟩ : Segment).Valid p₂ :=
    ⟨fun i hi => absurd hi (Nat.not_lt_zero i), hvalid⟩
  rw [hencode]
  exact Mcu.feedAll_segment hwf hfits hs hbuf hseg

theorem sendTaken (h : p₁.WireEq p₂) (hwf : p₁.WellFormed) (hfits : p₁.Fits)
    (hwrap : p₁.bufferSize ≠ 0xFFFFFFFFFFFFFFFF) {m₂ : Message} (hm₂ : m₂ ∈ p₂.messages)
    (hplain : m₂.reliable = false) : SendTaken p₁ p₂ m₂ := by
  obtain ⟨m₁, hm₁, hlayout⟩ := exists_left_of_forall₂ h.messages hm₂
  refine ⟨m₁, hm₁, hlayout, fun bytes handler hlen hbuilt hempty => ?_⟩
  have hlen₁ : bytes.length = m₁.sizeofPacket := hlen.trans hlayout.sizeofPacket_eq.symm
  have hvalid : (⟨m₁, bytes⟩ : StructValue).Valid p₁ :=
    ⟨hm₁, hlayout.reliable.trans hplain, hlen₁⟩
  have hsend : Mcu.send p₂ m₂ bytes = Mcu.send p₁ m₁ bytes := by
    rw [Mcu.send_eq_frame p₂ hlen, Mcu.send_eq_frame p₁ hlen₁, h.frame_eq, hlayout.id]
  obtain ⟨hpackets, -⟩ := (recoversAll_iff hwf hbuilt hempty).mpr ⟨hfits, hwrap⟩ [⟨m₁, bytes⟩]
    [Mcu.send p₁ m₁ bytes] (by simpa using hvalid) (by simp [sendAll])
  rw [hsend, hpackets, ← hlayout.id]
  exact ⟨rfl, as_packet hwf hvalid⟩

end Taken

/-- Nothing but the sizes of the structs stands in the way. -/
theorem RosFramesTaken.fits {p : Protocol} (h : RosFramesTaken p p) (hwf : p.WellFormed) :
    p.Fits := by
  intro m hm
  by_cases hrel : m.reliable = true
  · exact hwf.fits_reliable m hm hrel
  · set tx : TxMessage := ⟨m, List.replicate m.sizeofPacket 0, 0⟩ with htx
    obtain ⟨m', hm', hlayout, htaken⟩ := h tx ⟨hm, List.length_replicate⟩
    obtain ⟨-, hacts⟩ := htaken (Mcu.initial p) rfl List.length_replicate
    -- the callback's bytes come out of the receive buffer
    have hmem : .onReceive m'.id tx.data ∈ (Mcu.feedAll p (Mcu.initial p) (tx.encode p)).2 :=
      hacts ▸ (⟨m', tx.data, tx.seq⟩ : TxMessage).onReceive_mem_actions
    have hle := Mcu.feedAll_onReceive_length hmem
    rw [show tx.data.length = m.sizeofPacket from List.length_replicate,
      show (Mcu.initial p).rxBuffer.length = p.maxPacketPayloadSize from
        List.length_replicate] at hle
    rwa [m.wireSize_of_plain (by simpa using hrel)]

end AutoSerialBridge
