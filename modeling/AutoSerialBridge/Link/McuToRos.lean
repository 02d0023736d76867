import AutoSerialBridge.Codegen.Target
import AutoSerialBridge.Mcu.Parser
import AutoSerialBridge.Wire.Receiver

/-!
# Auto Serial Bridge — MCU to ROS, for deployed protocols

The generated `send_<Msg>` functions against the ring decoder of the ROS side. A struct value is
given by its bytes, which both ends read with the same `#pragma pack(1)` layout.

## Results

* `recoversAll_iff` — every sequence of messages arrives, however it is cut into reads, exactly when
  every message fits the payload limit and the ring's size did not wrap.
* `Deployed.recoversAll_iff_fits` — the same for every accepted configuration.
-/

namespace AutoSerialBridge

open Lib PacketHandler

/-- The argument of a `send_<Msg>`: the bytes of a `Packet_<Msg>`. -/
structure StructValue where
  message : Message
  bytes : List UInt8

/-- A struct of a non-reliable message of the protocol. -/
structure StructValue.Valid (p : Protocol) (v : StructValue) : Prop where
  mem : v.message ∈ p.messages
  plain : v.message.reliable = false
  length_eq : v.bytes.length = v.message.sizeofPacket

/-- The concatenated `serial_write` buffers of a sequence of `send_<Msg>` calls. -/
def sendAll (p : Protocol) (values : List StructValue) : List UInt8 :=
  values.flatMap fun v => Mcu.send p v.message v.bytes

/-- What the consumer gets from a sequence of `send_<Msg>` calls, cut into reads in any way: one
packet for each, in order, from which `Packet::as` recovers the struct; nothing is left over and no
checksum error is counted. -/
def RecoversAll (p : Protocol) (h : PacketHandler) : Prop :=
  ∀ (values : List StructValue) (chunks : List (List UInt8)),
    (∀ v ∈ values, v.Valid p) → chunks.flatten = sendAll p values →
    (Receiver.feedCalls p chunks ⟨h, []⟩).2.packets =
      values.map (fun v => ⟨v.message.id, v.bytes⟩) ∧
    (Receiver.feedCalls p chunks ⟨h, []⟩).2.packets.map (fun pkt => pkt.as (p.sizeofPacket pkt.id)) =
      values.map (·.bytes) ∧
    (Receiver.feedCalls p chunks ⟨h, []⟩).2.handler.queue = [] ∧
    (Receiver.feedCalls p chunks ⟨h, []⟩).2.handler.crcErrorCount = h.crcErrorCount

variable {p : Protocol} {h : PacketHandler}

theorem sendAll_eq_frames {values : List StructValue} (hvalid : ∀ v ∈ values, v.Valid p) :
    sendAll p values =
      (values.map fun v => (⟨v.message.id, v.bytes⟩ : Packet)).flatMap fun pkt =>
        frame p pkt.id pkt.payload := by
  rw [sendAll, List.flatMap_map]
  exact List.flatMap_congr fun v hv => Mcu.send_eq_frame p (hvalid v hv).length_eq

/-- `Packet::as` gives back a struct of the right size. -/
theorem as_packet (hwf : p.WellFormed) {v : StructValue} (hv : v.Valid p) :
    (⟨v.message.id, v.bytes⟩ : Packet).as (p.sizeofPacket v.message.id) = v.bytes := by
  rw [Packet.as, Protocol.sizeofPacket, hwf.message?_eq hv.mem, if_neg (by simp [hv.length_eq])]

/-- **MCU to ROS.** Every sequence of messages arrives exactly when every message fits the payload
limit and the ring's size did not wrap. -/
theorem recoversAll_iff (hwf : p.WellFormed) (hbuilt : h.BuiltWith p.bufferSize)
    (hempty : h.queue = []) :
    RecoversAll p h ↔ p.Fits ∧ p.bufferSize ≠ 0xFFFFFFFFFFFFFFFF := by
  have hwait : frameVerdict p (h.capacity.toNat - 1) h.queue = .wait := by
    rw [hempty]
    rfl
  constructor
  · intro hrec
    -- one message that is not reliable, with a struct of zeros
    have hone : ∀ m ∈ p.messages, m.reliable = false →
        (Receiver.feedCalls p [Mcu.send p m (List.replicate m.sizeofPacket 0)]
          ⟨h, []⟩).2.packets = [⟨m.id, List.replicate m.sizeofPacket 0⟩] := by
      intro m hm hplain
      have hvalid : ∀ v ∈ [(⟨m, List.replicate m.sizeofPacket 0⟩ : StructValue)], v.Valid p := by
        intro v hv
        rw [List.mem_singleton.mp hv]
        exact ⟨hm, hplain, List.length_replicate⟩
      exact (hrec _ [_] hvalid (by simp [sendAll])).1
    have hwrap : p.bufferSize ≠ 0xFFFFFFFFFFFFFFFF := by
      intro heq
      obtain ⟨ack, hack, -, -, hplain, -⟩ := hwf.ack
      have hpackets := hone ack hack hplain
      rw [heq] at hbuilt
      rw [(OneCell.feedCalls _ _ (OneCell.of_wrap hbuilt)).2] at hpackets
      simp at hpackets
    refine ⟨fun m hm => ?_, hwrap⟩
    by_cases hrel : m.reliable = true
    · exact hwf.fits_reliable m hm hrel
    · have hplain : m.reliable = false := by simpa using hrel
      have hroom := room_of_builtWith hwf hbuilt hwrap
      obtain ⟨es, h', hrun, -, hfeeds, -⟩ := Receiver.feedCalls_spec (p := p)
        [Mcu.send p m (List.replicate m.sizeofPacket 0)] (r := ⟨h, []⟩) hbuilt.1
        (by show 5 ≤ h.capacity.toNat - 1; omega) hwait
      have hpackets := hone m hm hplain
      rw [hrun, List.nil_append] at hpackets
      have hmem : RxEvent.packet ⟨m.id, List.replicate m.sizeofPacket 0⟩ ∈ es := by
        have : (⟨m.id, List.replicate m.sizeofPacket 0⟩ : Packet) ∈ packetsOf es := by
          rw [show packetsOf es = _ from hpackets]
          exact List.mem_singleton_self _
        obtain ⟨e, he, hep⟩ := List.mem_filterMap.mp this
        cases e with
        | packet pkt =>
          rw [RxEvent.packet?, Option.some.injEq] at hep
          exact hep ▸ he
        | crcError => simp [RxEvent.packet?] at hep
      have := packet_length_le hfeeds.steps _ hmem
      rw [m.wireSize_of_plain hplain]
      simpa using this
  · rintro ⟨hfits, hwrap⟩ values chunks hvalid hflat
    have hroom := room_of_builtWith hwf hbuilt hwrap
    obtain ⟨es, h', hrun, -, hfeeds, hwait'⟩ := Receiver.feedCalls_spec (p := p)
      chunks (r := ⟨h, []⟩) hbuilt.1 (by show 5 ≤ h.capacity.toNat - 1; omega) hwait
    have hsteps := hfeeds.steps
    rw [show (⟨h, []⟩ : Receiver).handler.queue = [] from hempty, List.nil_append, hflat,
      sendAll_eq_frames hvalid] at hsteps
    set pkts := values.map fun v => (⟨v.message.id, v.bytes⟩ : Packet) with hpkts
    have hframes := steps_frames hwf.max_le hroom pkts fun pkt hpkt => by
        obtain ⟨v, hv, rfl⟩ := List.mem_map.mp hpkt
        have hval := hvalid v hv
        have hwire := v.message.wireSize_of_plain hval.plain
        rw [hwf.expectedPayloadSize_eq hval.mem, hval.length_eq, hwire]
        exact ⟨hwf.size_pos _ hval.mem, rfl, hwire ▸ hfits _ hval.mem⟩
    rw [hfeeds.capacity_eq] at hwait'
    obtain ⟨hes, hqueue⟩ := hsteps.unique hwait' hframes rfl
    rw [hrun, List.nil_append]
    have hpackets : packetsOf es = pkts := by
      rw [hes, packetsOf, List.filterMap_map]
      simp [Function.comp_def, RxEvent.packet?]
    refine ⟨hpackets, ?_, hqueue, ?_⟩
    · rw [show (⟨h', packetsOf es⟩ : Receiver).packets = pkts from hpackets, hpkts, List.map_map]
      exact List.map_congr_left fun v hv => as_packet hwf (hvalid v hv)
    · rw [hfeeds.crc_eq, hes]
      have hcount : (pkts.map RxEvent.packet).count .crcError = 0 := by
        rw [List.count_eq_zero]
        simp
      rw [hcount]
      simp

end AutoSerialBridge
