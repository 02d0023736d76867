import AutoSerialBridge.Mcu.Parser
import Mathlib

/-!
# Auto Serial Bridge — from the ROS side to the MCU

The stream the ROS side writes is a sequence of frames with noise in between. As long as the noise
contains no header pair (nor makes one with the byte after it), the MCU parser is back between two
frames whenever the next one begins, in `STATE_WAIT_HEADER1` or, when the noise ends in
`FRAME_HEADER1`, in `STATE_WAIT_HEADER2`. `headerState` is that state, as a function of the last
noise byte.

## Results

* `feedAll_noise`, `feedAll_frame` — one stretch of noise, one frame.
* `feedAll_segments` — a whole stream.
* `roundTrips_iff` — **every stream is received as it was sent exactly when every message fits the
  receive buffer**.
-/

namespace AutoSerialBridge

variable (p : Protocol)

-- ---------------------------------------------------------------------------
-- What the ROS side sends
-- ---------------------------------------------------------------------------

/-- A message to be sent: the bytes of its struct and, if it is reliable, a sequence byte. -/
structure TxMessage where
  message : Message
  data : List UInt8
  seq : UInt8

/-- The message belongs to the protocol and the bytes are those of its struct. -/
structure TxMessage.Valid (tx : TxMessage) : Prop where
  mem : tx.message ∈ p.messages
  length_eq : tx.data.length = tx.message.sizeofPacket

/-- `PacketHandler::pack`, and `inject_trailing_seq` for a reliable message. -/
def TxMessage.encode (tx : TxMessage) : List UInt8 :=
  let packet := pack p tx.message.id tx.data
  if tx.message.reliable then injectTrailingSeq p packet tx.seq else packet

/-- The data bytes of the frame. -/
def TxMessage.payload (tx : TxMessage) : List UInt8 :=
  if tx.message.reliable then tx.data ++ [tx.seq] else tx.data

theorem TxMessage.encode_eq_frame (tx : TxMessage) :
    tx.encode p = frame p tx.message.id tx.payload := by
  rw [encode, payload]
  split_ifs
  · exact injectTrailingSeq_pack p _ _ _
  · exact pack_eq_frame p _ _

theorem TxMessage.payload_length {tx : TxMessage} (hv : tx.Valid p) :
    tx.payload.length = tx.message.wireSize := by
  rw [payload]
  split_ifs with h
  · rw [Message.wireSize_of_reliable h, List.length_append, hv.length_eq, List.length_singleton]
  · rw [Message.wireSize_of_plain (by simpa using h), hv.length_eq]

/-- What the MCU does about a message: the callback with the struct's bytes, and the one reply the
protocol prescribes. -/
def TxMessage.actions (tx : TxMessage) : List McuAction :=
  let received := .onReceive tx.message.id tx.data
  if tx.message.reliable then
    received :: (match p.message? packetIdAck with
      | some ack => [.serialWrite (frame p packetIdAck
          (ack.image [tx.message.id.toUInt32, tx.seq.toUInt32]))]
      | none => [])
  else if tx.message.id = packetIdHeartbeat then
    [.serialWrite (frame p packetIdHeartbeat tx.data), received]
  else if tx.message.id = packetIdHandshake ∧ p.requireHandshake = true then
    [.serialWrite (frame p packetIdHandshake (tx.message.image [p.protocolHash])), received]
  else [received]

/-- Noise that contains no header pair, and makes none with what comes `next`. -/
def Quiet (noise next : List UInt8) : Prop :=
  ∀ i < noise.length, ¬ ((noise ++ next)[i]? = some p.frameHeader1 ∧
    (noise ++ next)[i + 1]? = some p.frameHeader2)

/-- A stretch of noise, and the message after it. -/
structure Segment where
  noise : List UInt8
  tx : TxMessage

/-- Neither the noise nor its joint with the frame's first byte holds a header pair. -/
structure Segment.Valid (seg : Segment) : Prop where
  quiet : Quiet p seg.noise [p.frameHeader1]
  tx : seg.tx.Valid p

/-- The bytes on the line. -/
def stream (segments : List Segment) : List UInt8 :=
  segments.flatMap fun seg => seg.noise ++ seg.tx.encode p

variable {p}

/-- Dropping the first byte of quiet noise leaves quiet noise. -/
theorem Quiet.tail {a : UInt8} {noise next : List UInt8} (h : Quiet p (a :: noise) next) :
    Quiet p noise next := by
  intro i hi
  have := h (i + 1) (by simpa using hi)
  simpa using this

namespace Mcu

-- ---------------------------------------------------------------------------
-- Noise
-- ---------------------------------------------------------------------------

/-- The parser's state between frames, after a stretch of noise that ends in `last`. -/
def headerState (p : Protocol) (last : Option UInt8) : RxState :=
  if last = some p.frameHeader1 then .waitHeader2 else .waitHeader1

/-- One noise byte: the state follows the last byte. -/
theorem feed_noise {s : Mcu} {last : Option UInt8} {b : UInt8}
    (hs : s.rxState = headerState p last)
    (hquiet : ¬ (last = some p.frameHeader1 ∧ b = p.frameHeader2)) :
    protocolFsmFeed p s b = ({ s with rxState := headerState p (some b) }, []) := by
  rw [headerState] at hs
  by_cases hl : last = some p.frameHeader1
  · have hb : b ≠ p.frameHeader2 := fun h => hquiet ⟨hl, h⟩
    rw [if_pos hl] at hs
    rw [feed_eq_body (by rw [hs]; decide), protocolFsmFeedBody, hs]
    simp only [if_neg hb, headerState, Option.some.injEq]
    by_cases hb1 : b = p.frameHeader1
    · rw [if_neg (by simpa using hb1), if_pos hb1, ← hs]
    · rw [if_pos hb1, if_neg hb1]
  · rw [if_neg hl] at hs
    rw [feed_eq_body (by rw [hs]; decide), protocolFsmFeedBody, hs]
    simp only [headerState, Option.some.injEq]
    by_cases hb1 : b = p.frameHeader1
    · rw [if_pos hb1, if_pos hb1]
    · rw [if_neg hb1, if_neg hb1, ← hs]

/-- **Noise.** It does nothing but lead to the state its last byte prescribes. -/
theorem feedAll_noise : ∀ (noise : List UInt8) {s : Mcu} (last : Option UInt8)
    {next : List UInt8}, s.rxState = headerState p last → Quiet p (last.toList ++ noise) next →
    feedAll p s noise =
      ({ s with rxState := headerState p (last.toList ++ noise).getLast? }, []) := by
  intro noise
  induction noise with
  | nil =>
    intro s last next hs _
    have hlast : (last.toList ++ []).getLast? = last := by cases last <;> rfl
    rw [feedAll_nil, hlast, ← hs]
  | cons b noise ih =>
    intro s last next hs hquiet
    have hpair : ¬ (last = some p.frameHeader1 ∧ b = p.frameHeader2) := by
      rintro ⟨rfl, rfl⟩
      exact hquiet 0 (by simp) (by simp)
    have hquiet' : Quiet p ((some b).toList ++ noise) next := by
      cases last with
      | none => exact hquiet
      | some a => exact hquiet.tail
    rw [feedAll_cons, feed_noise hs hpair]
    simp only
    rw [ih (some b) rfl hquiet']
    cases last with
    | none => simp
    | some a => simp

-- ---------------------------------------------------------------------------
-- Frames
-- ---------------------------------------------------------------------------

/-- The two header bytes, after noise that makes no pair with the first of them. -/
theorem feedAll_header {s : Mcu} {last : Option UInt8} (hs : s.rxState = headerState p last)
    (hquiet : ¬ (last = some p.frameHeader1 ∧ p.frameHeader1 = p.frameHeader2)) :
    feedAll p s [p.frameHeader1, p.frameHeader2] = ({ s with rxState := .waitId }, []) := by
  have hfirst := feed_noise (b := p.frameHeader1) hs hquiet
  rw [headerState, if_pos rfl] at hfirst
  rw [feedAll_cons, hfirst, feedAll_cons, feed_eq_body (by simp), protocolFsmFeedBody]
  simp

theorem candidateOk_frame (id : UInt8) {payload : List UInt8} :
    candidateOk p id (UInt8.ofNat payload.length) payload
      (AutoSerialBridge.calculateChecksum p.checksumAlgo
        (id :: UInt8.ofNat payload.length :: payload)) = true := by
  rw [candidateOk]
  cases p.checksumAlgo <;> simp

/-- A frame between two messages is consumed and dispatched. -/
theorem feedAll_frame {s : Mcu} {last : Option UInt8} (id : UInt8) {payload : List UInt8}
    (hs : s.rxState = headerState p last)
    (hquiet : ¬ (last = some p.frameHeader1 ∧ p.frameHeader1 = p.frameHeader2))
    (hlen : payload.length ≤ s.rxBuffer.length) (h255 : payload.length ≤ 255) :
    (feedAll p s (frame p id payload)).1.rxState = .waitHeader1 ∧
    (feedAll p s (frame p id payload)).2 = candidateActions p id payload := by
  have hbyte : (UInt8.ofNat payload.length).toNat = payload.length := by
    rw [UInt8.toNat_ofNat', Nat.mod_eq_of_lt (by omega)]
  have hsplit : frame p id payload = [p.frameHeader1, p.frameHeader2] ++
      (id :: UInt8.ofNat payload.length :: payload ++
        [AutoSerialBridge.calculateChecksum p.checksumAlgo
          (id :: UInt8.ofNat payload.length :: payload)]) := rfl
  obtain ⟨hstate, hacts⟩ := feedAll_candidate (p := p) (s := { s with rxState := .waitId }) id
    (AutoSerialBridge.calculateChecksum p.checksumAlgo
      (id :: UInt8.ofNat payload.length :: payload))
    rfl hbyte.symm (by rw [hbyte]; exact hlen)
  rw [if_pos (candidateOk_frame id)] at hacts
  rw [hsplit, feedAll_append_of_eq (feedAll_header hs hquiet)]
  exact ⟨hstate, by rw [hacts]; rfl⟩

end Mcu

/-- The members of a struct fill it. -/
theorem Protocol.WellFormed.image_length (hwf : p.WellFormed) {m : Message} (hm : m ∈ p.messages)
    {values : List UInt32} (hlen : values.length = m.fields.length) :
    (m.image values).length = m.sizeofPacket := by
  have hgen : ∀ (fields : List Field) (values : List UInt32),
      (∀ f ∈ fields, ∀ v, (f.cType.store v).length = f.cType.size) →
      values.length = fields.length →
      ((fields.zip values).flatMap fun e => e.1.cType.store e.2).length =
        (fields.map (·.cType.size)).sum := by
    intro fields
    induction fields with
    | nil => simp
    | cons f fields ih =>
      intro values hstore hlen
      cases values with
      | nil => simp at hlen
      | cons v values =>
        have := ih values (fun f hf => hstore f (List.mem_cons_of_mem _ hf)) (by simpa using hlen)
        simp only [List.zip_cons_cons, List.flatMap_cons, List.length_append, List.map_cons,
          List.sum_cons, this, hstore f List.mem_cons_self v]
  exact hgen m.fields values (hwf.store_length m hm) hlen

/-- What the parser does with a message's frame is what the protocol prescribes. -/
theorem candidateActions_eq (hwf : p.WellFormed) {tx : TxMessage} (hv : tx.Valid p) :
    Mcu.candidateActions p tx.message.id tx.payload = tx.actions p := by
  have hmem := hv.mem
  have hlen := hv.length_eq
  rw [Mcu.candidateActions, hwf.message?_eq hmem, TxMessage.actions, TxMessage.payload]
  simp only
  by_cases hrel : tx.message.reliable = true
  · rw [if_pos hrel, if_pos hrel, if_pos hrel, List.length_append, hlen,
      List.length_singleton, if_pos rfl, ← hlen, List.take_left,
      List.getD_append_right _ _ _ _ (Nat.le_refl _), Nat.sub_self]
    obtain ⟨ack, hack, hid, -, -, hfields⟩ := hwf.ack
    rw [← hid, hwf.message?_eq hack, hid]
    simp only [List.getD_cons_zero]
    rw [Mcu.send_eq_frame p (hwf.image_length hack (by simp [hfields])), hid]
  · rw [if_neg hrel, if_neg hrel, if_neg hrel, if_pos hlen]
    obtain ⟨hb, hhb, hbid, hbname, -, -⟩ := hwf.heartbeat
    obtain ⟨hs, hhs, hsid, hsname, -, hsfields⟩ := hwf.handshake
    have hname : ∀ {m : Message} {name : String} {id : UInt8}, m ∈ p.messages → m.name = name →
        m.id = id → (tx.message.name = name ↔ tx.message.id = id) := by
      rintro m name id hm rfl rfl
      exact ⟨fun h => congrArg Message.id (hwf.eq_of_name hmem hm h),
        fun h => congrArg Message.name (hwf.eq_of_id hmem hm h)⟩
    have hbiff := hname hhb hbname hbid
    have hsiff := hname hhs hsname hsid
    have hsend := Mcu.send_eq_frame p (m := tx.message) hlen
    by_cases hheart : tx.message.id = packetIdHeartbeat
    · have hne : ¬ tx.message.name = "Handshake" := by
        rw [hsiff, hheart]
        decide
      rw [if_pos (hbiff.mpr hheart), if_neg (fun h => hne h.1), if_pos hheart, hsend, hheart]
      rfl
    · rw [if_neg (fun h => hheart (hbiff.mp h)), if_neg hheart]
      by_cases hshake : tx.message.id = packetIdHandshake ∧ p.requireHandshake = true
      · have heq : tx.message = hs := hwf.eq_of_id hmem hhs (hshake.1.trans hsid.symm)
        rw [if_pos ⟨hsiff.mpr hshake.1, hshake.2⟩, if_pos hshake,
          Mcu.send_eq_frame p (hwf.image_length hmem (by simp [heq, hsfields])), hshake.1]
        rfl
      · rw [if_neg (fun h => hshake ⟨hsiff.mp h.1, h.2⟩), if_neg hshake]
        rfl

-- ---------------------------------------------------------------------------
-- Whole streams
-- ---------------------------------------------------------------------------

namespace Mcu

/-- One segment: the noise is skipped and the message received. -/
theorem feedAll_segment (hwf : p.WellFormed) (hfits : p.Fits) {s : Mcu}
    (hs : s.rxState = .waitHeader1) (hbuf : s.rxBuffer.length = p.maxPacketPayloadSize)
    {seg : Segment} (hseg : seg.Valid p) :
    (feedAll p s (seg.noise ++ seg.tx.encode p)).1.rxState = .waitHeader1 ∧
    (feedAll p s (seg.noise ++ seg.tx.encode p)).2 = seg.tx.actions p := by
  have hnoise : feedAll p s seg.noise =
      ({ s with rxState := headerState p seg.noise.getLast? }, []) :=
    feedAll_noise _ none hs hseg.quiet
  -- the last noise byte makes no pair with the frame's first byte
  have hjoint : ¬ (seg.noise.getLast? = some p.frameHeader1 ∧
      p.frameHeader1 = p.frameHeader2) := by
    rintro ⟨hlast, heq⟩
    obtain ⟨noise, hsplit⟩ := List.getLast?_eq_some_iff.mp hlast
    have hq := hseg.quiet noise.length (by rw [hsplit]; simp)
    rw [hsplit, heq] at hq
    simp at hq
  have hmem := hseg.tx.mem
  have hlen := TxMessage.payload_length p hseg.tx
  obtain ⟨hstate, hacts⟩ := feedAll_frame (p := p)
    (s := { s with rxState := headerState p seg.noise.getLast? })
    seg.tx.message.id rfl hjoint
    (by rw [hlen, hbuf]; exact hfits _ hmem) (by rw [hlen]; exact hwf.wireSize_le _ hmem)
  rw [TxMessage.encode_eq_frame, feedAll_append_of_eq hnoise, List.nil_append, hacts,
    candidateActions_eq hwf hseg.tx]
  exact ⟨hstate, rfl⟩

theorem feedAll_segments (hwf : p.WellFormed) (hfits : p.Fits) : ∀ {segments : List Segment}
    {s : Mcu}, s.rxState = .waitHeader1 → s.rxBuffer.length = p.maxPacketPayloadSize →
    (∀ seg ∈ segments, seg.Valid p) →
    (feedAll p s (stream p segments)).1.rxState = .waitHeader1 ∧
    (feedAll p s (stream p segments)).2 = segments.flatMap fun seg => seg.tx.actions p := by
  intro segments
  induction segments with
  | nil => exact fun hs _ _ => ⟨hs, rfl⟩
  | cons seg segments ih =>
    intro s hs hbuf hvalid
    obtain ⟨hstate, hacts⟩ := feedAll_segment hwf hfits hs hbuf (hvalid seg List.mem_cons_self)
    obtain ⟨hstate', hacts'⟩ := ih hstate
      (by rw [feedAll_rxBuffer_length, hbuf]) fun seg hseg => hvalid seg (List.mem_cons_of_mem _ hseg)
    rw [stream, List.flatMap_cons, ← stream, feedAll_append]
    exact ⟨hstate', by rw [hacts, hacts', List.flatMap_cons]⟩

/-- A callback never reads past the receive buffer. -/
theorem feed_onReceive_length {s : Mcu} {b : UInt8} {id : UInt8} {pkt : List UInt8}
    (h : .onReceive id pkt ∈ (protocolFsmFeed p s b).2) : pkt.length ≤ s.rxBuffer.length := by
  have htake : ∀ {s' : Mcu}, s'.rxBuffer = s.rxBuffer →
      .onReceive id pkt ∈ (dispatch p s').2 → pkt.length ≤ s.rxBuffer.length := by
    intro s' hbuf h
    rw [dispatch] at h
    split at h
    · next m _ =>
      split_ifs at h
      · rw [dispatchReliable] at h
        split_ifs at h with hsz
        · rcases List.mem_cons.mp h with h | h
          · rw [McuAction.onReceive.injEq] at h
            rw [h.2, List.length_take, hbuf]
            exact Nat.min_le_right _ _
          · rw [sendReliableAck] at h
            split at h <;> simp at h
        · simp at h
      · rw [dispatchPlain] at h
        split_ifs at h <;> simp at h <;> rw [h.2, List.length_take, hbuf] <;>
          exact Nat.min_le_right _ _
    · simp at h
  have hbody : ∀ (self : Mcu → UInt8 → Mcu × List McuAction) (s' : Mcu),
      s'.rxBuffer = s.rxBuffer →
      (∀ s' : Mcu, s'.rxBuffer = s.rxBuffer → .onReceive id pkt ∈ (self s' b).2 →
        pkt.length ≤ s.rxBuffer.length) →
      .onReceive id pkt ∈ (protocolFsmFeedBody p self s' b).2 →
      pkt.length ≤ s.rxBuffer.length := by
    intro self s' hbuf hself h
    unfold protocolFsmFeedBody at h
    cases hst : s'.rxState with
    | waitHeader1 => simp only [hst] at h; split_ifs at h <;> simp at h
    | waitHeader2 => simp only [hst] at h; split_ifs at h <;> simp at h
    | waitId => simp [hst] at h
    | waitLen =>
      simp only [hst] at h
      split_ifs at h
      · exact hself { s' with rxState := .waitHeader1 } hbuf h
      · simp at h
      · simp at h
    | waitData => simp [hst] at h
    | waitCrc =>
      simp only [hst] at h
      split_ifs at h
      · exact htake hbuf h
      · simp at h
  exact hbody _ s rfl (fun s' hbuf => hbody _ s' hbuf fun _ _ h => by simp at h) h

theorem feedAll_onReceive_length : ∀ {bs : List UInt8} {s : Mcu} {id : UInt8}
    {pkt : List UInt8}, .onReceive id pkt ∈ (feedAll p s bs).2 →
    pkt.length ≤ s.rxBuffer.length := by
  intro bs
  induction bs with
  | nil => intro s id pkt h; simp at h
  | cons b bs ih =>
    intro s id pkt h
    rw [feedAll_cons] at h
    rcases List.mem_append.mp h with h | h
    · exact feed_onReceive_length h
    · rw [← feed_rxBuffer_length (p := p) s b]
      exact ih h

end Mcu

-- ---------------------------------------------------------------------------
-- The round trip
-- ---------------------------------------------------------------------------

/-- Every stream of messages in quiet noise makes the MCU do what the messages prescribe, in order
and nothing else, and leaves it between two frames. -/
def RoundTrips (p : Protocol) : Prop :=
  ∀ (s : Mcu) (segments : List Segment) (trailing : List UInt8),
    s.rxState = .waitHeader1 → s.rxBuffer.length = p.maxPacketPayloadSize →
    (∀ seg ∈ segments, seg.Valid p) → Quiet p trailing [] →
    (Mcu.feedAll p s (stream p segments ++ trailing)).2 =
      segments.flatMap (fun seg => seg.tx.actions p) ∧
    (Mcu.feedAll p s (stream p segments ++ trailing)).1.rxState =
      if trailing.getLast? = some p.frameHeader1 then .waitHeader2 else .waitHeader1

/-- Every message's actions contain its callback. -/
theorem TxMessage.onReceive_mem_actions (tx : TxMessage) :
    .onReceive tx.message.id tx.data ∈ tx.actions p := by
  rw [actions]
  split_ifs <;> simp

/-- **The round trip** succeeds exactly when every message fits the receive buffer. -/
theorem roundTrips_iff (hwf : p.WellFormed) : RoundTrips p ↔ p.Fits := by
  constructor
  · intro htrip m hm
    by_cases hrel : m.reliable = true
    · exact hwf.fits_reliable m hm hrel
    -- the callback's bytes come out of the receive buffer
    · set tx : TxMessage := ⟨m, List.replicate m.sizeofPacket 0, 0⟩ with htx
      have hvalid : ∀ seg ∈ [(⟨[], tx⟩ : Segment)], seg.Valid p := by
        intro seg hseg
        rw [List.mem_singleton.mp hseg]
        exact ⟨fun i hi => absurd hi (Nat.not_lt_zero i), hm, List.length_replicate⟩
      obtain ⟨hacts, -⟩ := htrip (Mcu.initial p) [⟨[], tx⟩] [] rfl List.length_replicate hvalid
        fun i hi => absurd hi (Nat.not_lt_zero i)
      have hmem : .onReceive m.id tx.data ∈
          (Mcu.feedAll p (Mcu.initial p) (stream p [⟨[], tx⟩] ++ [])).2 := by
        rw [hacts]
        simpa using tx.onReceive_mem_actions (p := p)
      have hle := Mcu.feedAll_onReceive_length hmem
      rw [show tx.data.length = m.sizeofPacket from List.length_replicate,
        show (Mcu.initial p).rxBuffer.length = p.maxPacketPayloadSize from
          List.length_replicate] at hle
      rwa [m.wireSize_of_plain (by simpa using hrel)]
  · intro hfits s segments trailing hs hbuf hvalid hquiet
    obtain ⟨hstate, hacts⟩ := Mcu.feedAll_segments hwf hfits hs hbuf hvalid
    have hnoise : Mcu.feedAll p (Mcu.feedAll p s (stream p segments)).1 trailing =
        ({ (Mcu.feedAll p s (stream p segments)).1 with
            rxState := Mcu.headerState p trailing.getLast? }, []) :=
      Mcu.feedAll_noise _ none hstate hquiet
    rw [Mcu.feedAll_append, hnoise, hacts, List.append_nil]
    exact ⟨rfl, rfl⟩

end AutoSerialBridge
