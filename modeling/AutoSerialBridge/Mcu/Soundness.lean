import AutoSerialBridge.Mcu.Parser
import Mathlib

/-!
# Auto Serial Bridge — the MCU parser on arbitrary input

Any byte stream, fed from the initial state. `Tracks` ties the parser variables to the bytes of the
frame candidate it is in; every step keeps it or completes a frame. From it follow the memory
bounds, and that every callback stems from a frame that stands in the stream as it is.

## Results

* `feed_tracks` — what one byte does to the candidate.
* `parserSound` — **bounds and soundness for every stream**.
-/

namespace AutoSerialBridge

namespace Mcu

-- ---------------------------------------------------------------------------
-- Frames and callbacks
-- ---------------------------------------------------------------------------

def isCallback : McuAction → Bool
  | .onReceive .. => true
  | .serialWrite .. => false

/-- The callback invocations among the actions. -/
def callbacks (actions : List McuAction) : List McuAction := actions.filter isCallback

/-- A frame `H1 H2 id len payload cs`. -/
structure RxFrame where
  id : UInt8
  payload : List UInt8
  checksum : UInt8

namespace RxFrame

variable (p : Protocol) (f : RxFrame)

def bytes : List UInt8 :=
  p.frameHeader1 :: p.frameHeader2 :: f.id :: UInt8.ofNat f.payload.length :: f.payload ++
    [f.checksum]

/-- The length byte is the wire size of the message with this id, and the checksum is correct. -/
structure Valid : Prop where
  message : ∃ m, p.message? f.id = some m ∧ f.payload.length = m.wireSize
  len : (UInt8.ofNat f.payload.length).toNat = f.payload.length
  checksum : p.checksumAlgo = .none ∨ f.checksum =
    AutoSerialBridge.calculateChecksum p.checksumAlgo
      (f.id :: UInt8.ofNat f.payload.length :: f.payload)

/-- `on_receive_<Msg>` with the bytes of the struct. -/
def callback : McuAction := .onReceive f.id (f.payload.take (p.sizeofPacket f.id))

end RxFrame

variable (p : Protocol)

theorem callbacks_append (a b : List McuAction) : callbacks (a ++ b) = callbacks a ++ callbacks b :=
  List.filter_append ..

/-- A candidate makes one callback if its size is that of its message, and none otherwise. -/
theorem callbacks_candidateActions (id : UInt8) (data : List UInt8) :
    callbacks (candidateActions p id data) =
      match p.message? id with
      | some m => if data.length = m.wireSize then [.onReceive id (data.take m.sizeofPacket)] else []
      | none => [] := by
  unfold candidateActions callbacks
  cases hm : p.message? id with
  | none => rfl
  | some m =>
    obtain ⟨-, hid⟩ := Protocol.message?_mem hm
    simp only
    by_cases hrel : m.reliable = true
    · rw [if_pos hrel, Message.wireSize_of_reliable hrel, hid]
      split_ifs
      · cases p.message? packetIdAck <;> rfl
      · rfl
    · rw [if_neg hrel, Message.wireSize_of_plain (by simpa using hrel), hid]
      by_cases hsz : data.length = m.sizeofPacket
      · rw [if_pos hsz, if_pos hsz, List.filter_append, List.filter_append, ← hsz, List.take_length]
        split_ifs <;> rfl
      · rw [if_neg hsz, if_neg hsz]
        rfl

-- ---------------------------------------------------------------------------
-- The candidate
-- ---------------------------------------------------------------------------

/-- The parser is in the middle of the frame candidate with these bytes. -/
inductive Tracks (s : Mcu) : List UInt8 → Prop where
  | header1 (hs : s.rxState = .waitHeader1) : Tracks s []
  | header2 (hs : s.rxState = .waitHeader2) : Tracks s [p.frameHeader1]
  | id (hs : s.rxState = .waitId) : Tracks s [p.frameHeader1, p.frameHeader2]
  | len (hs : s.rxState = .waitLen) (hck : s.rxChecksum = calculateChecksum p [s.rxId]) :
    Tracks s [p.frameHeader1, p.frameHeader2, s.rxId]
  | data (data : List UInt8)
      (hs : s.rxState = .waitData ∧ data.length < s.rxDataLen.toNat ∨
        s.rxState = .waitCrc ∧ data.length = s.rxDataLen.toNat)
      (hcnt : s.rxCnt = data.length) (hle : s.rxDataLen.toNat ≤ s.rxBuffer.length)
      (hbuf : s.rxBuffer.take data.length = data)
      (hck : s.rxChecksum = calculateChecksum p (s.rxId :: s.rxDataLen :: data)) :
    Tracks s (p.frameHeader1 :: p.frameHeader2 :: s.rxId :: s.rxDataLen :: data)

variable {p}

/-- A byte that does not complete a frame makes no callback, and the candidate after it is a suffix
of the bytes so far. -/
def Continues (p : Protocol) (r : Mcu × List McuAction) (bytes : List UInt8) : Prop :=
  callbacks r.2 = [] ∧ ∃ cand, Tracks p r.1 cand ∧ cand <:+ bytes

/-- A byte that completes a frame makes its callback. -/
def Completes (p : Protocol) (r : Mcu × List McuAction) (bytes : List UInt8) : Prop :=
  ∃ f : RxFrame, f.Valid p ∧ f.bytes p = bytes ∧ callbacks r.2 = [f.callback p] ∧
    r.1.rxState = .waitHeader1

/-- In `STATE_WAIT_HEADER1` the candidate starts with the byte or does not. -/
theorem feed_header1 {s : Mcu} (hs : s.rxState = .waitHeader1) (b : UInt8)
    (self : Mcu → UInt8 → Mcu × List McuAction) (bytes : List UInt8) :
    Continues p (protocolFsmFeedBody p self s b) (bytes ++ [b]) := by
  unfold protocolFsmFeedBody
  simp only [hs]
  split_ifs with hb
  · exact ⟨rfl, [p.frameHeader1], .header2 rfl, hb ▸ List.suffix_append bytes [b]⟩
  · exact ⟨rfl, [], .header1 hs, List.nil_suffix⟩

theorem calculateChecksum_append_singleton (data : List UInt8) (b : UInt8) :
    calculateChecksum p (data ++ [b]) = checksumUpdate p (calculateChecksum p data) b := by
  simp [calculateChecksum]

/-- A data byte goes into the buffer, below the length of the frame. -/
theorem feed_data {s : Mcu} {data : List UInt8} (hs : s.rxState = .waitData)
    (hlt : data.length < s.rxDataLen.toNat) (hcnt : s.rxCnt = data.length)
    (hle : s.rxDataLen.toNat ≤ s.rxBuffer.length) (hbuf : s.rxBuffer.take data.length = data)
    (hck : s.rxChecksum = calculateChecksum p (s.rxId :: s.rxDataLen :: data)) (b : UInt8) :
    Continues p (protocolFsmFeed p s b)
      (p.frameHeader1 :: p.frameHeader2 :: s.rxId :: s.rxDataLen :: data ++ [b]) := by
  rw [feed_eq_body (by rw [hs]; decide)]
  unfold protocolFsmFeedBody
  simp only [hs]
  refine ⟨rfl, _, ?_, List.suffix_refl _⟩
  have hset : (s.rxBuffer.set s.rxCnt b).take (data.length + 1) = data ++ [b] := by
    rw [hcnt, List.take_add_one, List.take_set_of_le (Nat.le_refl _), hbuf,
      List.getElem?_set_self (by omega)]
    rfl
  rw [List.cons_append, List.cons_append, List.cons_append, List.cons_append]
  refine Tracks.data (data ++ [b]) ?_ (by simp [hcnt]) (by simpa using hle) (by simpa using hset) ?_
  · simp only [List.length_append, List.length_singleton, hcnt]
    by_cases hend : data.length + 1 ≥ s.rxDataLen.toNat
    · exact .inr ⟨if_pos hend, by omega⟩
    · exact .inl ⟨if_neg hend, by omega⟩
  · show checksumUpdate p s.rxChecksum b = _
    rw [hck, ← calculateChecksum_append_singleton]
    rfl

/-- The checksum byte completes the frame, or the candidate is given up. -/
theorem feed_crc {s : Mcu} {data : List UInt8} (hs : s.rxState = .waitCrc)
    (hlen : data.length = s.rxDataLen.toNat) (hbuf : s.rxBuffer.take data.length = data)
    (hck : s.rxChecksum = calculateChecksum p (s.rxId :: s.rxDataLen :: data)) (b : UInt8) :
    Continues p (protocolFsmFeed p s b)
        (p.frameHeader1 :: p.frameHeader2 :: s.rxId :: s.rxDataLen :: data ++ [b]) ∨
      Completes p (protocolFsmFeed p s b)
        (p.frameHeader1 :: p.frameHeader2 :: s.rxId :: s.rxDataLen :: data ++ [b]) := by
  have hbyte : UInt8.ofNat data.length = s.rxDataLen := by
    rw [hlen, UInt8.ofNat_toNat]
  rw [feed_eq_body (by rw [hs]; decide)]
  unfold protocolFsmFeedBody
  simp only [hs]
  split_ifs with hcheck
  · have hacts : (dispatch p s).2 = candidateActions p s.rxId data :=
      dispatch_actions hlen (hlen ▸ hbuf)
    have hcb := callbacks_candidateActions p s.rxId data
    rw [← hacts] at hcb
    by_cases hsize : ∃ m, p.message? s.rxId = some m ∧ data.length = m.wireSize
    · obtain ⟨m, hm, hwire⟩ := hsize
      refine .inr ⟨⟨s.rxId, data, b⟩, ⟨⟨m, hm, hwire⟩, by rw [hbyte, hlen], ?_⟩, ?_, ?_, rfl⟩
      · unfold crcCheck at hcheck
        rw [hbyte, ← calculateChecksum_eq, ← hck]
        cases halgo : p.checksumAlgo with
        | none => exact .inl rfl
        | _ =>
          simp only [halgo] at hcheck
          exact .inr (by simpa using hcheck)
      · simp [RxFrame.bytes, hbyte]
      · rw [hm] at hcb
        simp only [if_pos hwire] at hcb
        show callbacks (dispatch p s).2 = _
        rw [hcb, RxFrame.callback, Protocol.sizeofPacket, hm]
    · refine .inl ⟨?_, [], .header1 rfl, List.nil_suffix⟩
      show callbacks (dispatch p s).2 = []
      rw [hcb]
      cases hm : p.message? s.rxId with
      | none => rfl
      | some m => exact if_neg fun hwire => hsize ⟨m, hm, hwire⟩
  · exact .inl ⟨rfl, [], .header1 rfl, List.nil_suffix⟩

/-- **One byte** extends the candidate, gives it up or completes it. -/
theorem feed_tracks {s : Mcu} {cand : List UInt8} (h : Tracks p s cand) (b : UInt8) :
    Continues p (protocolFsmFeed p s b) (cand ++ [b]) ∨
      Completes p (protocolFsmFeed p s b) (cand ++ [b]) := by
  cases h with
  | header1 hs =>
    rw [feed_eq_body (by rw [hs]; decide)]
    exact .inl (feed_header1 hs b _ [])
  | header2 hs =>
    refine .inl ?_
    rw [feed_eq_body (by rw [hs]; decide)]
    unfold protocolFsmFeedBody
    simp only [hs]
    split_ifs with h2 h1
    · exact ⟨rfl, _, .id rfl, by rw [h2]; exact List.suffix_refl _⟩
    · exact ⟨rfl, [], .header1 rfl, List.nil_suffix⟩
    · -- a second header byte: the candidate starts again
      rw [not_not] at h1
      exact ⟨rfl, _, .header2 hs, by rw [h1]; exact List.suffix_append [p.frameHeader1] _⟩
  | id hs =>
    refine .inl ?_
    rw [feed_eq_body (by rw [hs]; decide)]
    unfold protocolFsmFeedBody
    simp only [hs]
    exact ⟨rfl, _, .len rfl rfl, List.suffix_refl _⟩
  | len hs hck =>
    refine .inl ?_
    unfold protocolFsmFeed protocolFsmFeedRec protocolFsmFeedBody
    simp only [hs]
    split_ifs with hover hpos
    · exact feed_header1 rfl b _ _
    · refine ⟨rfl, _, .data [] (.inl ⟨rfl, ?_⟩) rfl (by simpa using hover) rfl ?_,
        List.suffix_refl _⟩
      · simpa using UInt8.lt_iff_toNat_lt.mp hpos
      · show checksumUpdate p s.rxChecksum b = _
        rw [hck]
        rfl
    · refine ⟨rfl, _, .data [] (.inr ⟨rfl, ?_⟩) rfl (by simpa using hover) rfl ?_,
        List.suffix_refl _⟩
      · have hzero : ¬ 0 < b.toNat := fun hlt => hpos (UInt8.lt_iff_toNat_lt.mpr hlt)
        show 0 = b.toNat
        omega
      · show checksumUpdate p s.rxChecksum b = _
        rw [hck]
        rfl
  | data data hs hcnt hle hbuf hck =>
    rcases hs with ⟨hs, hlt⟩ | ⟨hs, hlen⟩
    · exact .inl (feed_data hs hlt hcnt hle hbuf hck b)
    · exact feed_crc hs hlen hbuf hck b

-- ---------------------------------------------------------------------------
-- Streams
-- ---------------------------------------------------------------------------

variable (p)

/-- Frames in a stream, each after a gap, and what is left. -/
def framesIn (frames : List (List UInt8 × RxFrame)) : List UInt8 :=
  frames.flatMap fun (gap, f) => gap ++ f.bytes p

variable {p}

/-- The callbacks made by a stream are those of disjoint frames in it, and the parser is in the
candidate at its end. -/
theorem feedAll_tracks (stream : List UInt8) :
    ∃ frames gap cand, stream = framesIn p frames ++ gap ++ cand ∧
      (∀ e ∈ frames, e.2.Valid p) ∧
      callbacks (feedAll p (initial p) stream).2 = frames.map (·.2.callback p) ∧
      Tracks p (feedAll p (initial p) stream).1 cand := by
  induction stream using List.reverseRecOn with
  | nil => exact ⟨[], [], [], rfl, by simp, rfl, .header1 rfl⟩
  | append_singleton stream b ih =>
    obtain ⟨frames, gap, cand, hstream, hvalid, hcb, htracks⟩ := ih
    rw [feedAll_append, feedAll_cons]
    simp only [feedAll_nil, List.append_nil, callbacks_append]
    rcases feed_tracks htracks b with ⟨hquiet, cand', htracks', hsuffix⟩ |
      ⟨f, hf, hbytes, hcallback, hstate⟩
    · obtain ⟨lost, hlost⟩ := hsuffix
      refine ⟨frames, gap ++ lost, cand', ?_, hvalid, ?_, htracks'⟩
      · rw [hstream, List.append_assoc, ← hlost]
        simp
      · rw [hquiet, List.append_nil, hcb]
    · refine ⟨frames ++ [(gap, f)], [], [], ?_, ?_, ?_, .header1 hstate⟩
      · have happend : framesIn p (frames ++ [(gap, f)]) = framesIn p frames ++ (gap ++ f.bytes p) := by
          simp [framesIn]
        rw [happend, hbytes, hstream]
        simp
      · intro e he
        rcases List.mem_append.mp he with he | he
        · exact hvalid e he
        · exact List.mem_singleton.mp he ▸ hf
      · rw [hcb, hcallback, List.map_append]
        rfl

-- ---------------------------------------------------------------------------
-- Memory bounds
-- ---------------------------------------------------------------------------

variable (p)

/-- How many bytes of `rx_buffer` the dispatch reads, from its beginning. -/
def dispatchReads (s : Mcu) : Nat :=
  match p.message? s.rxId with
  | some m => if s.rxDataLen.toNat = m.wireSize then m.wireSize else 0
  | none => 0

/-- What is safe about the state after the bytes `fed`: where the next byte is written, what a
dispatch reads, and how often `protocol_fsm_feed` calls itself. -/
structure Safe (fed : List UInt8) (s : Mcu) : Prop where
  buffer : s.rxBuffer.length = p.maxPacketPayloadSize
  write : s.rxState = .waitData →
    s.rxCnt < s.rxDataLen.toNat ∧ s.rxDataLen.toNat ≤ s.rxBuffer.length
  /-- The first `rx_cnt` bytes of the buffer are the last ones that were fed. -/
  written : s.rxState = .waitCrc →
    s.rxCnt ≤ fed.length ∧ s.rxBuffer.take s.rxCnt = fed.drop (fed.length - s.rxCnt)
  reads : s.rxState = .waitCrc → dispatchReads p s ≤ s.rxCnt
  /-- The dispatch depends on no other byte of the buffer. -/
  readsOnly : ∀ buffer : List UInt8,
    buffer.take (dispatchReads p s) = s.rxBuffer.take (dispatchReads p s) →
    (dispatch p { s with rxBuffer := buffer }).2 = (dispatch p s).2
  /-- The self-call does not call itself. -/
  selfCall : ∀ (self : Mcu → UInt8 → Mcu × List McuAction) (b : UInt8),
    protocolFsmFeedBody p (protocolFsmFeedBody p self) s b = protocolFsmFeed p s b

variable {p}

theorem dispatch_congr {s : Mcu} {buffer : List UInt8}
    (h : buffer.take (dispatchReads p s) = s.rxBuffer.take (dispatchReads p s)) :
    (dispatch p { s with rxBuffer := buffer }).2 = (dispatch p s).2 := by
  unfold dispatchReads at h
  unfold dispatch
  cases hm : p.message? s.rxId with
  | none => rfl
  | some m =>
    simp only [hm] at h ⊢
    by_cases hrel : m.reliable = true
    · rw [if_pos hrel, if_pos hrel]
      rw [Message.wireSize_of_reliable hrel] at h
      unfold dispatchReliable
      simp only
      split_ifs with hsz
      · rw [if_pos hsz] at h
        have htake : buffer.take m.sizeofPacket = s.rxBuffer.take m.sizeofPacket := by
          have h' := congrArg (List.take m.sizeofPacket) h
          rwa [List.take_take, List.take_take, Nat.min_eq_left (by omega)] at h'
        have hget : buffer.getD m.sizeofPacket 0 = s.rxBuffer.getD m.sizeofPacket 0 := by
          have h' := congrArg (fun l => l.getD m.sizeofPacket 0) h
          simpa [List.getD_eq_getElem?_getD, List.getElem?_take_of_lt] using h'
        simp only [sendReliableAck, htake, hget]
      · rfl
    · rw [if_neg hrel, if_neg hrel]
      rw [Message.wireSize_of_plain (by simpa using hrel)] at h
      unfold dispatchPlain
      simp only
      split_ifs with hsz
      all_goals first | rfl | rw [if_pos hsz] at h; rw [h]

/-- The body calls itself in `STATE_WAIT_HEADER1` only. -/
theorem protocolFsmFeedBody_congr_call {self self' : Mcu → UInt8 → Mcu × List McuAction} {b : UInt8}
    (h : ∀ s : Mcu, s.rxState = .waitHeader1 → self s b = self' s b) (s : Mcu) :
    protocolFsmFeedBody p self s b = protocolFsmFeedBody p self' s b := by
  unfold protocolFsmFeedBody
  cases s.rxState with
  | waitLen => simp only [h { s with rxState := .waitHeader1 } rfl]
  | _ => rfl

theorem feedBody_feedBody (self : Mcu → UInt8 → Mcu × List McuAction) (s : Mcu) (b : UInt8) :
    protocolFsmFeedBody p (protocolFsmFeedBody p self) s b = protocolFsmFeed p s b := by
  rw [protocolFsmFeed, protocolFsmFeedRec, protocolFsmFeedRec]
  refine protocolFsmFeedBody_congr_call (fun s' hs' => ?_) s
  exact protocolFsmFeedBody_congr p _ _ (by rw [hs']; decide) b

/-- The bounds follow from the candidate. -/
theorem Tracks.safe {s : Mcu} {before cand : List UInt8} (h : Tracks p s cand)
    (hbuf : s.rxBuffer.length = p.maxPacketPayloadSize) : Safe p (before ++ cand) s := by
  refine ⟨hbuf, ?_, ?_, ?_, fun buffer => dispatch_congr, fun self b => feedBody_feedBody self s b⟩
  · intro hs
    cases h with
    | data data hd hcnt hle _ _ =>
      rcases hd with ⟨-, hlt⟩ | ⟨hd, -⟩
      · exact ⟨by omega, hle⟩
      · simp [hs] at hd
    | _ h => simp [hs] at h
  · intro hs
    cases h with
    | data data hd hcnt hle hbuf _ =>
      have hlen : (before ++ p.frameHeader1 :: p.frameHeader2 :: s.rxId :: s.rxDataLen ::
          data).length = (before ++ [p.frameHeader1, p.frameHeader2, s.rxId, s.rxDataLen]).length +
            data.length := by
        simp
        omega
      have hsplit : before ++ p.frameHeader1 :: p.frameHeader2 :: s.rxId :: s.rxDataLen :: data =
          (before ++ [p.frameHeader1, p.frameHeader2, s.rxId, s.rxDataLen]) ++ data := by simp
      rw [hcnt, hlen]
      refine ⟨by omega, ?_⟩
      rw [Nat.add_sub_cancel, hsplit, List.drop_left, hbuf]
    | _ h => simp [hs] at h
  · intro hs
    unfold dispatchReads
    cases h with
    | data data hd hcnt hle _ _ =>
      rcases hd with ⟨hd, -⟩ | ⟨-, hlen⟩
      · simp [hs] at hd
      · cases p.message? s.rxId with
        | none => exact Nat.zero_le _
        | some m =>
          simp only
          split_ifs <;> omega
    | _ h => simp [hs] at h

variable (p)

/-- **The parser is sound and stays within its memory**, whatever bytes it is fed: at every point of
every stream the next step is safe, and the callbacks are, in this order, those of disjoint valid
frames that stand in the stream. -/
theorem parserSound (stream : List UInt8) :
    (∀ fed, fed <+: stream → Safe p fed (feedAll p (initial p) fed).1) ∧
    ∃ frames rest, stream = framesIn p frames ++ rest ∧ (∀ e ∈ frames, e.2.Valid p) ∧
      callbacks (feedAll p (initial p) stream).2 = frames.map (·.2.callback p) := by
  constructor
  · intro fed _
    obtain ⟨frames, gap, cand, hfed, -, -, htracks⟩ := feedAll_tracks (p := p) fed
    have hbuf : (feedAll p (initial p) fed).1.rxBuffer.length = p.maxPacketPayloadSize := by
      rw [feedAll_rxBuffer_length]
      simp [initial]
    conv => arg 2; rw [hfed]
    exact htracks.safe hbuf
  · obtain ⟨frames, gap, cand, hstream, hvalid, hcb, -⟩ := feedAll_tracks (p := p) stream
    exact ⟨frames, gap ++ cand, by rw [hstream, List.append_assoc], hvalid, hcb⟩

end Mcu

end AutoSerialBridge
