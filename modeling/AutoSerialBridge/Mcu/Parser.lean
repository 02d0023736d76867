import AutoSerialBridge.Mcu.Fsm
import Mathlib

/-!
# Auto Serial Bridge — what the MCU parser does to a candidate frame

Lemmas about `protocol_fsm_feed` over byte strings: the buffer keeps its size, noise without a
header pair is skipped, and a candidate `id len data cs` entered in `STATE_WAIT_ID` is consumed to
its last byte and dispatched when its checksum matches (`feedAll_candidate`). `candidateActions`
is what the dispatch does, as a function of the candidate's bytes alone.
-/

namespace AutoSerialBridge

namespace Mcu

variable (p : Protocol)

-- ---------------------------------------------------------------------------
-- Agreement with the ROS side's functions
-- ---------------------------------------------------------------------------

/-- The C and the C++ checksum step are the same function. -/
theorem checksumUpdate_eq : checksumUpdate p = AutoSerialBridge.checksumUpdate p.checksumAlgo := by
  funext current byte
  unfold checksumUpdate AutoSerialBridge.checksumUpdate
  cases p.checksumAlgo <;> rfl

theorem calculateChecksum_eq (data : List UInt8) :
    calculateChecksum p data = AutoSerialBridge.calculateChecksum p.checksumAlgo data := by
  rw [calculateChecksum, AutoSerialBridge.calculateChecksum, checksumUpdate_eq]

/-- `send_<Msg>` produces the common frame layout. -/
theorem send_eq_frame {m : Message} {pkt : List UInt8} (hlen : pkt.length = m.sizeofPacket) :
    send p m pkt = frame p m.id pkt := by
  simp [send, frame, calculateChecksum_eq, hlen]

-- ---------------------------------------------------------------------------
-- Byte strings
-- ---------------------------------------------------------------------------

@[simp] theorem feedAll_nil (s : Mcu) : feedAll p s [] = (s, []) := rfl

theorem feedAll_cons (s : Mcu) (b : UInt8) (bs : List UInt8) :
    feedAll p s (b :: bs) =
      ((feedAll p (protocolFsmFeed p s b).1 bs).1,
        (protocolFsmFeed p s b).2 ++ (feedAll p (protocolFsmFeed p s b).1 bs).2) := rfl

theorem feedAll_append (s : Mcu) (a b : List UInt8) :
    feedAll p s (a ++ b) =
      ((feedAll p (feedAll p s a).1 b).1,
        (feedAll p s a).2 ++ (feedAll p (feedAll p s a).1 b).2) := by
  induction a generalizing s with
  | nil => simp
  | cons x a ih =>
    rw [List.cons_append, feedAll_cons, feedAll_cons, ih]
    simp

variable {p}

theorem feedAll_append_of_eq {s s' : Mcu} {acts : List McuAction} {a : List UInt8}
    (h : feedAll p s a = (s', acts)) (b : List UInt8) :
    feedAll p s (a ++ b) = ((feedAll p s' b).1, acts ++ (feedAll p s' b).2) := by
  rw [feedAll_append, h]

/-- `protocol_fsm_feed` in a state other than `STATE_WAIT_LEN` is its body. -/
theorem feed_eq_body {s : Mcu} (hs : s.rxState ≠ .waitLen) (b : UInt8) :
    protocolFsmFeed p s b = protocolFsmFeedBody p (fun s _ => (s, [])) s b :=
  protocolFsmFeedBody_congr p _ _ hs b

theorem dispatch_rxBuffer (s : Mcu) : (dispatch p s).1.rxBuffer = s.rxBuffer := by
  rw [dispatch]
  split
  · split_ifs
    · rw [dispatchReliable]
      split_ifs <;> rfl
    · rfl
  · rfl

/-- The receive buffer never changes its size. -/
theorem feed_rxBuffer_length (s : Mcu) (b : UInt8) :
    (protocolFsmFeed p s b).1.rxBuffer.length = s.rxBuffer.length := by
  have hbody : ∀ (self : Mcu → UInt8 → Mcu × List McuAction) (s : Mcu),
      (∀ s : Mcu, (self s b).1.rxBuffer.length = s.rxBuffer.length) →
      (protocolFsmFeedBody p self s b).1.rxBuffer.length = s.rxBuffer.length := by
    intro self s hself
    unfold protocolFsmFeedBody
    cases s.rxState with
    | waitHeader1 => simp only; split_ifs <;> rfl
    | waitHeader2 => simp only; split_ifs <;> rfl
    | waitId => rfl
    | waitLen =>
      simp only
      split_ifs
      · exact hself _
      · rfl
      · rfl
    | waitData => simp
    | waitCrc =>
      simp only
      split_ifs
      · rw [dispatch_rxBuffer]
      · rfl
  exact hbody _ s fun s => hbody _ s fun s => rfl

theorem feedAll_rxBuffer_length (s : Mcu) (bs : List UInt8) :
    (feedAll p s bs).1.rxBuffer.length = s.rxBuffer.length := by
  induction bs generalizing s with
  | nil => rfl
  | cons b bs ih =>
    rw [feedAll_cons]
    exact (ih _).trans (feed_rxBuffer_length s b)

-- ---------------------------------------------------------------------------
-- Candidates
-- ---------------------------------------------------------------------------

variable (p)

/-- What an accepted candidate with this id and these data bytes makes the MCU do. -/
def candidateActions (id : UInt8) (data : List UInt8) : List McuAction :=
  match p.message? id with
  | some m =>
    if m.reliable then
      if data.length = m.sizeofPacket + 1 then
        .onReceive m.id (data.take m.sizeofPacket) ::
          (match p.message? packetIdAck with
          | some ack => [.serialWrite (send p ack
              (ack.image [m.id.toUInt32, (data.getD m.sizeofPacket 0).toUInt32]))]
          | none => [])
      else []
    else
      if data.length = m.sizeofPacket then
        (if m.name = "Heartbeat" then [.serialWrite (send p m data)] else []) ++
        (if m.name = "Handshake" ∧ p.requireHandshake = true then
          [.serialWrite (send p m (m.image [p.protocolHash]))] else []) ++
        [.onReceive m.id data]
      else []
  | none => []

/-- The checksum test of the MCU for a complete candidate. -/
def candidateOk (id len : UInt8) (data : List UInt8) (cs : UInt8) : Bool :=
  match p.checksumAlgo with
  | .none => true
  | algo => cs == AutoSerialBridge.calculateChecksum algo (id :: len :: data)

variable {p}

theorem dispatch_actions {s : Mcu} {data : List UInt8}
    (hlen : data.length = s.rxDataLen.toNat)
    (hbuf : s.rxBuffer.take s.rxDataLen.toNat = data) :
    (dispatch p s).2 = candidateActions p s.rxId data := by
  rw [dispatch, candidateActions]
  cases hm : p.message? s.rxId with
  | none => rfl
  | some m =>
    simp only
    by_cases hrel : m.reliable = true
    · rw [if_pos hrel, if_pos hrel, dispatchReliable, hlen]
      by_cases hsz : s.rxDataLen.toNat = m.sizeofPacket + 1
      · have htake : s.rxBuffer.take m.sizeofPacket = data.take m.sizeofPacket := by
          rw [← hbuf, List.take_take, hsz, Nat.min_eq_left (by omega)]
        have hget : s.rxBuffer.getD m.sizeofPacket 0 = data.getD m.sizeofPacket 0 := by
          rw [← hbuf, List.getD_eq_getElem?_getD, List.getD_eq_getElem?_getD,
            List.getElem?_take_of_lt (by omega)]
        rw [if_pos hsz, if_pos hsz]
        cases hack : p.message? packetIdAck <;> simp only [sendReliableAck, htake, hget, hack]
      · rw [if_neg hsz, if_neg hsz]
    · rw [if_neg hrel, if_neg hrel, dispatchPlain, hlen]
      by_cases hsz : s.rxDataLen.toNat = m.sizeofPacket
      · rw [if_pos hsz, if_pos hsz, ← hsz, hbuf]
      · rw [if_neg hsz, if_neg hsz]

/-- The data bytes fill the buffer and the running checksum, and lead to `STATE_WAIT_CRC`. -/
theorem feedAll_data : ∀ (data : List UInt8) {s : Mcu}, s.rxState = .waitData → data ≠ [] →
    s.rxCnt + data.length = s.rxDataLen.toNat → s.rxDataLen.toNat ≤ s.rxBuffer.length →
    ∃ buf, feedAll p s data = ({ s with
        rxState := .waitCrc
        rxBuffer := buf
        rxCnt := s.rxDataLen.toNat
        rxChecksum := data.foldl (checksumUpdate p) s.rxChecksum }, []) ∧
      buf.length = s.rxBuffer.length ∧
      buf.take s.rxDataLen.toNat = s.rxBuffer.take s.rxCnt ++ data := by
  intro data
  induction data with
  | nil => intro s _ hne; exact absurd rfl hne
  | cons b data ih =>
    intro s hs _ hcnt hle
    rw [List.length_cons] at hcnt
    have hset : (s.rxBuffer.set s.rxCnt b).take (s.rxCnt + 1) =
        s.rxBuffer.take s.rxCnt ++ [b] := by
      rw [List.take_add_one, List.take_set_of_le (Nat.le_refl _), List.getElem?_set_self (by omega)]
      rfl
    have hfeed : protocolFsmFeed p s b = ({ s with
        rxBuffer := s.rxBuffer.set s.rxCnt b
        rxCnt := s.rxCnt + 1
        rxChecksum := checksumUpdate p s.rxChecksum b
        rxState := if s.rxCnt + 1 ≥ s.rxDataLen.toNat then .waitCrc else .waitData }, []) := by
      rw [feed_eq_body (by rw [hs]; decide), protocolFsmFeedBody, hs]
    cases data with
    | nil =>
      have hend : s.rxCnt + 1 = s.rxDataLen.toNat := hcnt
      refine ⟨s.rxBuffer.set s.rxCnt b, ?_, by simp, by rw [← hend, hset]⟩
      rw [feedAll_cons, hfeed, if_pos (by omega), hend]
      rfl
    | cons c data =>
      rw [List.length_cons] at hcnt
      rw [if_neg (by omega)] at hfeed
      obtain ⟨buf, hrun, hlen, htake⟩ := ih
        (s := { s with
          rxBuffer := s.rxBuffer.set s.rxCnt b
          rxCnt := s.rxCnt + 1
          rxChecksum := checksumUpdate p s.rxChecksum b
          rxState := .waitData }) rfl (by simp) (by simp only [List.length_cons]; omega)
        (by simpa using hle)
      refine ⟨buf, ?_, by simpa using hlen, ?_⟩
      · rw [feedAll_cons, hfeed, hrun]
        rfl
      · have := htake
        simp only at this
        rw [this, hset, List.append_assoc]
        rfl

/-- The id, the length and the data bytes lead to `STATE_WAIT_CRC`, with the data in the buffer and
their checksum in `rx_checksum`. -/
theorem feedAll_body {s : Mcu} (id : UInt8) {len : UInt8} {data : List UInt8}
    (hs : s.rxState = .waitId) (hlen : data.length = len.toNat)
    (hle : len.toNat ≤ s.rxBuffer.length) :
    ∃ s', feedAll p s (id :: len :: data) = (s', []) ∧
      s'.rxState = .waitCrc ∧ s'.rxId = id ∧ s'.rxDataLen = len ∧
      s'.rxBuffer.take len.toNat = data ∧
      s'.rxChecksum = AutoSerialBridge.calculateChecksum p.checksumAlgo (id :: len :: data) := by
  have hid : protocolFsmFeed p s id =
      ({ s with rxId := id, rxChecksum := checksumUpdate p 0 id, rxState := .waitLen }, []) := by
    rw [feed_eq_body (by rw [hs]; decide), protocolFsmFeedBody, hs]
  set s₁ : Mcu := { s with rxId := id, rxChecksum := checksumUpdate p 0 id, rxState := .waitLen }
    with hs₁
  have hlenb : protocolFsmFeed p s₁ len = ({ s₁ with
      rxDataLen := len
      rxChecksum := checksumUpdate p s₁.rxChecksum len
      rxCnt := 0
      rxState := if len > 0 then .waitData else .waitCrc }, []) := by
    rw [protocolFsmFeed, protocolFsmFeedRec, protocolFsmFeedBody]
    show (if len.toNat > s.rxBuffer.length then _ else _) = _
    rw [if_neg (by omega)]
  have hck : ∀ data : List UInt8,
      data.foldl (checksumUpdate p) (checksumUpdate p s₁.rxChecksum len) =
        AutoSerialBridge.calculateChecksum p.checksumAlgo (id :: len :: data) := by
    intro data
    rw [← calculateChecksum_eq]
    rfl
  rw [feedAll_cons, hid, feedAll_cons, hlenb]
  cases data with
  | nil =>
    have hl0 : ¬ len > 0 := by
      intro hgt
      have := UInt8.lt_iff_toNat_lt.mp hgt
      rw [← hlen] at this
      simp at this
    have hl0' : len.toNat = 0 := by simpa using hlen.symm
    rw [if_neg hl0]
    exact ⟨_, rfl, rfl, rfl, rfl, by simp [hl0'], hck []⟩
  | cons b data =>
    have hgt : len > 0 := by
      rw [gt_iff_lt, UInt8.lt_iff_toNat_lt, ← hlen]
      simp
    rw [if_pos hgt]
    obtain ⟨buf, hfeed, -, htake⟩ := feedAll_data (p := p) (b :: data)
      (s := { s₁ with
        rxDataLen := len
        rxChecksum := checksumUpdate p s₁.rxChecksum len
        rxCnt := 0
        rxState := .waitData }) rfl (by simp) (by simpa using hlen) hle
    rw [hfeed]
    exact ⟨_, rfl, rfl, rfl, rfl, by simpa using htake, hck (b :: data)⟩

/-- **A candidate is consumed to its last byte**, and acts exactly when its checksum matches. -/
theorem feedAll_candidate {s : Mcu} (id : UInt8) {len : UInt8} (cs : UInt8) {data : List UInt8}
    (hs : s.rxState = .waitId) (hlen : data.length = len.toNat)
    (hle : len.toNat ≤ s.rxBuffer.length) :
    (feedAll p s (id :: len :: data ++ [cs])).1.rxState = .waitHeader1 ∧
    (feedAll p s (id :: len :: data ++ [cs])).2 =
      if candidateOk p id len data cs then candidateActions p id data else [] := by
  -- the state in which the checksum byte arrives
  obtain ⟨s', hrun, hst, hid, hdl, hbuf, hck⟩ := feedAll_body (p := p) id hs hlen hle
  have hcheck : crcCheck p s' cs = candidateOk p id len data cs := by
    rw [crcCheck, candidateOk, hck]
    cases p.checksumAlgo <;> rfl
  have hact : (dispatch p s').2 = candidateActions p id data := by
    rw [dispatch_actions (by rw [hdl]; exact hlen) (by rw [hdl]; exact hbuf), hid]
  have hlast : protocolFsmFeed p s' cs =
      if candidateOk p id len data cs then
        ({ (dispatch p s').1 with rxState := .waitHeader1 }, candidateActions p id data)
      else ({ s' with rxState := .waitHeader1 }, []) := by
    rw [feed_eq_body (by rw [hst]; decide), protocolFsmFeedBody, hst]
    simp only
    rw [hcheck, ← hact]
  rw [feedAll_append_of_eq hrun, feedAll_cons, hlast]
  split_ifs <;> exact ⟨rfl, by simp⟩

end Mcu

end AutoSerialBridge
