import AutoSerialBridge.Lib.Fallible
import AutoSerialBridge.Wire.RingQueue
import Mathlib

/-!
# Auto Serial Bridge — the ring buffer refines a bounded FIFO

The operations of `PacketHandler` in any order, from the constructor on. Read from `tail` to `head` the
ring is a queue of at most `capacity - 1` bytes: a push appends to it, `feed_data` appends a prefix of
its input, `parse_packet` removes a prefix, `reset` empties it.

`parseStep?` is one pass of `parse_packet` that fails at a read outside the queue, and `ParseRun` its
loop without a bound on the passes.

## Results

* `new_returns` — the constructor returns, and the capacity is the least power of two.
* `feedData_spec` — what `feed_data` appends and what it counts.
* `parseStep?_eq` — **no pass reads outside the queue**.
* `parseRun_parsePacket` — **`parse_packet` terminates**, and `parsePacket` is what it returns.
* `ring_refines_fifo` — **after any operations the ring is the bounded FIFO**.
-/

namespace AutoSerialBridge

open Lib

-- ---------------------------------------------------------------------------
-- The constructor
-- ---------------------------------------------------------------------------

/-- A register that holds the first power of two that is not below `value` ends the loop with it. -/
theorem nextPowerOfTwoLoop_returns (value : UInt64) (hvalue : value.toNat ≤ 2 ^ 63) :
    ∀ (fuel k : Nat) (result : UInt64), fuel + k = 65 → k ≤ 63 → result.toNat = 2 ^ k →
      (∀ j < k, 2 ^ j < value.toNat) → ∃ c, nextPowerOfTwoLoop value fuel result = some c ∧
        IsLeast {n | (∃ j, n = 2 ^ j) ∧ value.toNat ≤ n} c.toNat := by
  intro fuel
  induction fuel with
  | zero =>
    intro k result hk hle
    omega
  | succ fuel ih =>
    intro k result hk hle hresult hbelow
    rw [nextPowerOfTwoLoop]
    split
    · next hlt =>
      rw [UInt64.lt_iff_toNat_lt, hresult] at hlt
      have hk63 : k < 63 := (Nat.pow_lt_pow_iff_right (by omega)).mp (hlt.trans_le hvalue)
      refine ih (k + 1) _ (by omega) (by omega) ?_ fun j hj => ?_
      · rw [UInt64.toNat_shiftLeft, hresult, show (1 : UInt64).toNat % 64 = 1 from rfl,
          Nat.shiftLeft_eq, Nat.pow_one, ← Nat.pow_succ]
        exact Nat.mod_eq_of_lt (Nat.pow_lt_pow_right (by omega) (by omega))
      · rcases Nat.lt_succ_iff_lt_or_eq.mp hj with hj | rfl
        · exact hbelow j hj
        · exact hlt
    · next hge =>
      rw [UInt64.not_lt, UInt64.le_iff_toNat_le] at hge
      refine ⟨result, rfl, ⟨⟨k, hresult⟩, hge⟩, ?_⟩
      rintro n ⟨⟨j, rfl⟩, hj⟩
      rw [hresult]
      refine Nat.pow_le_pow_right (by omega) (not_lt.mp fun hjk => ?_)
      exact absurd (hbelow j hjk) (not_lt.mpr hj)

namespace PacketHandler

variable {h : PacketHandler} {p : Protocol}

/-- **The constructor returns.** -/
theorem new_returns {bufferSize : UInt64} (hsize : bufferSize.toNat + 1 ≤ 2 ^ 63) :
    ∃ h₀, PacketHandler.new bufferSize = some h₀ ∧
      IsLeast {n | (∃ k, n = 2 ^ k) ∧ bufferSize.toNat + 1 ≤ n} h₀.capacity.toNat := by
  have hvalue : (bufferSize + 1).toNat = bufferSize.toNat + 1 := by
    rw [UInt64.toNat_add, show (1 : UInt64).toNat = 1 from rfl]
    exact Nat.mod_eq_of_lt (by omega)
  obtain ⟨c, hc, hleast⟩ := nextPowerOfTwoLoop_returns (bufferSize + 1) (by omega)
    65 0 1 rfl (by omega) rfl nofun
  rw [hvalue] at hleast
  unfold new nextPowerOfTwo
  rw [hc]
  exact ⟨_, rfl, hleast⟩

-- ---------------------------------------------------------------------------
-- feed_data
-- ---------------------------------------------------------------------------

theorem Inv.length_le (hi : h.Inv) : h.queue.length ≤ h.capacity.toNat - 1 := by
  have := hi.dataAvailable_lt
  rw [queue_length]
  omega

/-- **`feed_data` appends what fits, and counts the rest.** -/
theorem feedData_spec (data : List UInt8) (hi : h.Inv) :
    (h.feedData data).2.Inv ∧ (h.feedData data).2.capacity = h.capacity ∧
      (h.feedData data).2.queue =
        h.queue ++ data.take (h.capacity.toNat - 1 - h.queue.length) ∧
      (h.feedData data).1 = data.length - (h.capacity.toNat - 1 - h.queue.length) ∧
      (h.feedData data).2.overflowCount = h.overflowCount + UInt32.ofNat (h.feedData data).1 := by
  induction data generalizing h with
  | nil =>
    rw [List.take_nil, List.append_nil, List.length_nil, Nat.zero_sub]
    exact ⟨hi, rfl, rfl, rfl, (UInt32.add_zero _).symm⟩
  | cons byte data ih =>
    unfold feedData
    rcases lt_or_eq_of_le hi.length_le with hroom | hfull
    · obtain ⟨h', hpush, hi', hqueue, hcap, hoverflow, -, -⟩ := tryPushByte_room hi hroom byte
      obtain ⟨hinv, hcapacity, hq, hdropped, hcount⟩ := ih hi'
      rw [hpush]
      simp only
      rw [hqueue, hcap, List.length_append, List.length_singleton] at hq hdropped
      rw [hcap] at hcapacity
      rw [hoverflow] at hcount
      refine ⟨hinv, hcapacity, ?_, ?_, hcount⟩
      · obtain ⟨n, hn⟩ := Nat.exists_eq_add_of_lt hroom
        rw [hq, show h.capacity.toNat - 1 - h.queue.length =
            h.capacity.toNat - 1 - (h.queue.length + 1) + 1 by omega, List.take_succ_cons,
          List.append_assoc, List.singleton_append]
      · rw [hdropped, List.length_cons]
        omega
    · -- a full ring stays full: the rest is dropped too
      have hi' : Inv { h with overflowCount := h.overflowCount + 1 } := hi.recordOverflow
      have hqueue : queue { h with overflowCount := h.overflowCount + 1 } = h.queue := rfl
      obtain ⟨hinv, hcapacity, hq, hdropped, hcount⟩ := ih hi'
      rw [tryPushByte_full hi hfull]
      simp only
      rw [hqueue] at hq hdropped
      have hnone : h.capacity.toNat - 1 - h.queue.length = 0 := by omega
      simp only [hnone, List.take_zero, Nat.sub_zero] at hq hdropped ⊢
      refine ⟨hinv, hcapacity, hq, by rw [hdropped, List.length_cons], ?_⟩
      rw [hcount, UInt32.ofNat_add, UInt32.add_assoc]
      congr 1
      exact UInt32.add_comm _ _

-- ---------------------------------------------------------------------------
-- The reads of parse_packet
-- ---------------------------------------------------------------------------

/-- `ring_buffer_[i]`, for a position in the queue. -/
def cell? (h : PacketHandler) (i : UInt64) : Option UInt8 :=
  if ((i - h.tail) &&& h.mask) < h.dataAvailable then some (h.cell i) else none

/-- `calculate_checksum_from_ring`, reading from the queue. -/
def calculateChecksumFromRing? (h : PacketHandler) (algo : ChecksumAlgo) (start : UInt64)
    (count : Nat) : Option UInt8 :=
  (List.range count).foldlM
    (fun checksum i => do
      return checksumUpdate algo checksum (← h.cell? ((start + UInt64.ofNat i) &&& h.mask))) 0

/-- `checksum_ok`, reading from the queue. -/
def checksumOk? (h : PacketHandler) (algo : ChecksumAlgo) (lenByte : UInt8) (totalLen : UInt64) :
    Option Bool :=
  match algo with
  | .none => some true
  | algo => do
    let calcCs ← h.calculateChecksumFromRing? algo ((h.tail + 2) &&& h.mask) (2 + lenByte.toNat)
    let recvCs ← h.cell? ((h.tail + totalLen - 1) &&& h.mask)
    return calcCs == recvCs

/-- One pass through the loop of `parse_packet`, reading from the queue. -/
def parseStep? (p : Protocol) (h : PacketHandler) : Option ParseStep := do
  let b1 ← h.cell? h.tail
  let b2 ← h.cell? ((h.tail + 1) &&& h.mask)
  if b1 ≠ p.frameHeader1 ∨ b2 ≠ p.frameHeader2 then return .again (h.advanceTail 1)
  let idByte ← h.cell? ((h.tail + 2) &&& h.mask)
  let lenByte ← h.cell? ((h.tail + 3) &&& h.mask)
  let totalLen : UInt64 := 2 + 1 + 1 + lenByte.toUInt64 + 1
  if totalLen > h.capacity - 1 then return .again (h.advanceTail 1)
  if lenByte.toNat > p.maxPacketPayloadSize then return .again (h.advanceTail 1)
  let expectedLen := p.expectedPayloadSize idByte
  if expectedLen = 0 ∨ lenByte.toNat ≠ expectedLen then return .again (h.advanceTail 1)
  if h.dataAvailable < totalLen then return .incomplete
  let ok ← h.checksumOk? p.checksumAlgo lenByte totalLen
  if ok = false then return .again { h.advanceTail 1 with crcErrorCount := h.crcErrorCount + 1 }
  let payloadStart := (h.tail + 4) &&& h.mask
  let payload ← (List.range lenByte.toNat).mapM fun i =>
    h.cell? ((payloadStart + UInt64.ofNat i) &&& h.mask)
  return .packet ⟨idByte, payload⟩ { h.advanceTail totalLen with rxPacketCount := h.rxPacketCount + 1 }

/-- A position up to the number of available bytes behind `tail` is in the queue. -/
theorem Inv.cell?_eq (hi : h.Inv) {x : UInt64} {n : Nat} (hn : n < h.queue.length)
    (hx : x.toNat % h.capacity.toNat = (h.tail.toNat + n) % h.capacity.toNat) :
    h.cell? (x &&& h.mask) = some (h.cell (x &&& h.mask)) := by
  have hlt := hi.dataAvailable_lt
  rw [queue_length] at hn
  have hoffset : (((x &&& h.mask) - h.tail) &&& h.mask).toNat = n := by
    obtain ⟨q, hq⟩ := hi.cap_dvd
    have htail := h.tail.toNat_lt
    rw [hi.and_mask, UInt64.toNat_sub, Nat.mod_mod_of_dvd _ hi.cap_dvd, hi.and_mask, hx,
      Nat.add_mod_mod, show 2 ^ 64 - h.tail.toNat + (h.tail.toNat + n) = n + 2 ^ 64 by omega, hq,
      Nat.add_mul_mod_self_left]
    exact Nat.mod_eq_of_lt (by omega)
  rw [cell?, if_pos]
  rw [UInt64.lt_iff_toNat_lt, hoffset]
  exact hn

/-- A run of masked reads inside the queue. -/
theorem Inv.slice?_eq (hi : h.Inv) {start : UInt64} {k count : Nat}
    (hstart : start.toNat = (h.tail.toNat + k) % h.capacity.toNat)
    (hle : k + count ≤ h.queue.length) {i : Nat} (hic : i < count) :
    h.cell? ((start + UInt64.ofNat i) &&& h.mask) =
      some (h.cell ((start + UInt64.ofNat i) &&& h.mask)) := by
  have hi64 : i < 2 ^ 64 := by
    have := hi.dataAvailable_lt
    have := h.capacity.toNat_lt
    rw [queue_length] at hle
    omega
  refine hi.cell?_eq (n := k + i) (by omega) ?_
  rw [UInt64.toNat_add, Nat.mod_mod_of_dvd _ hi.cap_dvd, hstart, UInt64.toNat_ofNat',
    Nat.mod_eq_of_lt hi64, Nat.mod_add_mod, Nat.add_assoc]

theorem Inv.checksum?_eq (hi : h.Inv) (algo : ChecksumAlgo) {start : UInt64} {k count : Nat}
    (hstart : start.toNat = (h.tail.toNat + k) % h.capacity.toNat)
    (hle : k + count ≤ h.queue.length) :
    h.calculateChecksumFromRing? algo start count =
      some (h.calculateChecksumFromRing algo start count) := by
  have hfold : ∀ (is : List Nat) (checksum : UInt8), (∀ i ∈ is, i < count) →
      is.foldlM (fun checksum i => do
        return checksumUpdate algo checksum (← h.cell? ((start + UInt64.ofNat i) &&& h.mask))) checksum =
      some (is.foldl (fun checksum i =>
        checksumUpdate algo checksum (h.cell ((start + UInt64.ofNat i) &&& h.mask))) checksum) := by
    intro is
    induction is with
    | nil => exact fun _ _ => rfl
    | cons i is ih =>
      intro checksum hall
      rw [List.forall_mem_cons] at hall
      rw [List.foldlM_cons, List.foldl_cons, hi.slice?_eq hstart hle hall.1]
      exact ih _ hall.2
  exact hfold _ 0 fun i hmem => List.mem_range.mp hmem

theorem Inv.checksumOk?_eq (hi : h.Inv) (algo : ChecksumAlgo) {lenByte : UInt8} {totalLen : UInt64}
    (hlen : lenByte.toNat + 5 ≤ h.queue.length)
    (htotal : 2 + 1 + 1 + lenByte.toUInt64 + 1 = totalLen) :
    h.checksumOk? algo lenByte totalLen = some (h.checksumOk algo lenByte totalLen) := by
  have hcalc := hi.checksum?_eq algo (hi.add_and_mask h.tail 2) (show
    (2 : UInt64).toNat + (2 + lenByte.toNat) ≤ h.queue.length by
      rw [show (2 : UInt64).toNat = 2 from rfl]
      omega)
  have hrecv : h.cell? ((h.tail + totalLen - 1) &&& h.mask) =
      some (h.cell ((h.tail + totalLen - 1) &&& h.mask)) := by
    refine hi.cell?_eq (n := lenByte.toNat + 4) (by omega) ?_
    have hlen256 := lenByte.toNat_lt
    have hsub : (totalLen - 1).toNat = lenByte.toNat + 4 := by
      rw [← htotal, UInt64.add_sub_cancel]
      simp only [UInt64.toNat_add, UInt8.toNat_toUInt64, UInt64.toNat_ofNat]
      omega
    rw [UInt64.sub_eq_add_neg, UInt64.add_assoc, ← UInt64.sub_eq_add_neg, UInt64.toNat_add,
      Nat.mod_mod_of_dvd _ hi.cap_dvd, hsub]
  unfold checksumOk? checksumOk
  cases algo with
  | none => rfl
  | sum8 | xor8 | crc8 =>
    simp only [hcalc, hrecv]
    rfl

theorem Inv.payload?_eq (hi : h.Inv) {count : Nat} (hle : count + 5 ≤ h.queue.length) :
    (List.range count).mapM (fun i =>
        h.cell? ((((h.tail + 4) &&& h.mask) + UInt64.ofNat i) &&& h.mask)) =
      some ((List.range count).map fun i =>
        h.cell ((((h.tail + 4) &&& h.mask) + UInt64.ofNat i) &&& h.mask)) := by
  rw [mapM_eq_some, List.forall₂_map_right_iff, List.forall₂_same]
  intro i hmem
  refine hi.slice?_eq (hi.add_and_mask h.tail 4) (?_ : (4 : UInt64).toNat + count ≤ _) (List.mem_range.mp hmem)
  rw [show (4 : UInt64).toNat = 4 from rfl]
  omega

/-- **No pass of `parse_packet` reads outside the queue.** -/
theorem parseStep?_eq (hi : h.Inv) (hlen : 5 ≤ h.queue.length) :
    parseStep? p h = some (parseStep p h) := by
  have hadd : ∀ n : UInt64,
      (h.tail + n).toNat % h.capacity.toNat = (h.tail.toNat + n.toNat) % h.capacity.toNat := by
    intro n
    rw [UInt64.toNat_add, Nat.mod_mod_of_dvd _ hi.cap_dvd]
  have hstart : ∀ k : UInt64, ((h.tail + k) &&& h.mask).toNat =
      (h.tail.toNat + k.toNat) % h.capacity.toNat := fun k => hi.add_and_mask h.tail k
  have hb1 : h.cell? h.tail = some (h.cell h.tail) := by
    have hmask : h.tail &&& h.mask = h.tail :=
      UInt64.toNat_inj.mp (by rw [hi.and_mask, Nat.mod_eq_of_lt hi.tail_lt])
    have hread := hi.cell?_eq (x := h.tail) (n := 0) (by omega) rfl
    rwa [hmask] at hread
  have hread : ∀ n : UInt64, n.toNat < 5 →
      h.cell? ((h.tail + n) &&& h.mask) = some (h.cell ((h.tail + n) &&& h.mask)) :=
    fun n hn => hi.cell?_eq (by omega) (hadd n)
  unfold parseStep? parseStep
  rw [hb1, hread 1 (by decide), hread 2 (by decide), hread 3 (by decide)]
  simp only [Option.bind_eq_bind, Option.bind_some, Option.pure_def]
  generalize h.cell ((h.tail + 3) &&& h.mask) = lenByte
  generalize htotal : (2 + 1 + 1 + lenByte.toUInt64 + 1 : UInt64) = totalLen
  by_cases h1 : h.cell h.tail ≠ p.frameHeader1 ∨ h.cell ((h.tail + 1) &&& h.mask) ≠ p.frameHeader2
  · rw [if_pos h1, if_pos h1]
  rw [if_neg h1, if_neg h1]
  split_ifs with h2 h3 h4 h5
  all_goals try rfl
  all_goals
    -- the frame is complete
    have hlength : lenByte.toNat + 5 ≤ h.queue.length := by
      have hlen256 := lenByte.toNat_lt
      rw [UInt64.not_lt, UInt64.le_iff_toNat_le, ← htotal] at h5
      simp only [UInt64.toNat_add, UInt8.toNat_toUInt64, UInt64.toNat_ofNat] at h5
      rw [queue_length]
      omega
    rw [hi.checksumOk?_eq p.checksumAlgo hlength htotal, Option.bind_some]
  · next hbad => rw [if_pos hbad]
  · next hgood =>
    rw [if_neg hgood, hi.payload?_eq hlength, Option.bind_some]

-- ---------------------------------------------------------------------------
-- The loop of parse_packet
-- ---------------------------------------------------------------------------

/-- The loop of `parse_packet` ends with `r`, reading from the queue only. -/
inductive ParseRun (p : Protocol) : PacketHandler → Option Packet × PacketHandler → Prop where
  | short {h : PacketHandler} (hmin : h.dataAvailable < minPacketSize) : ParseRun p h (none, h)
  | incomplete {h : PacketHandler} (hmin : ¬ h.dataAvailable < minPacketSize)
      (hstep : parseStep? p h = some .incomplete) : ParseRun p h (none, h)
  | packet {h h' : PacketHandler} {pkt : Packet} (hmin : ¬ h.dataAvailable < minPacketSize)
      (hstep : parseStep? p h = some (.packet pkt h')) : ParseRun p h (some pkt, h')
  | again {h h' : PacketHandler} {r : Option Packet × PacketHandler}
      (hmin : ¬ h.dataAvailable < minPacketSize) (hstep : parseStep? p h = some (.again h'))
      (hrest : ParseRun p h' r) : ParseRun p h r

/-- `parse_packet` needs at least five bytes for a pass. -/
theorem five_le_of_not_short (hmin : ¬ h.dataAvailable < minPacketSize) : 5 ≤ h.queue.length := by
  rw [queue_length]
  exact UInt64.le_iff_toNat_le.mp (UInt64.not_lt.mp hmin)

theorem parseRun_parseLoop : ∀ {fuel : Nat} {h : PacketHandler}, h.Inv → h.queue.length ≤ fuel →
    ParseRun p h (parseLoop p fuel h) := by
  intro fuel
  induction fuel with
  | zero =>
    intro h hi hlen
    refine .short ?_
    rw [UInt64.lt_iff_toNat_lt, ← queue_length]
    exact Nat.lt_of_le_of_lt hlen (by decide)
  | succ fuel ih =>
    intro h hi hlen
    rw [parseLoop]
    by_cases hmin : h.dataAvailable < minPacketSize
    · rw [if_pos hmin]
      exact .short hmin
    · rw [if_neg hmin]
      have hfive := five_le_of_not_short hmin
      have hread := parseStep?_eq (p := p) hi hfive
      have hspec := parseStep_spec (p := p) hi hfive
      cases hstep : parseStep p h with
      | again h' =>
        rw [hstep] at hread hspec
        obtain ⟨es, hscan, hlt, -⟩ := hspec
        exact .again hmin hread (ih hscan.inv (by omega))
      | incomplete =>
        rw [hstep] at hread
        exact .incomplete hmin hread
      | packet pkt h' =>
        rw [hstep] at hread
        exact .packet hmin hread

/-- **`parse_packet` terminates**, and never reads outside the queue. -/
theorem parseRun_parsePacket (hi : h.Inv) : ParseRun p h (parsePacket p h) :=
  parseRun_parseLoop hi (Nat.le_of_eq queue_length)

-- ---------------------------------------------------------------------------
-- What parse_packet removes
-- ---------------------------------------------------------------------------

/-- The bytes of a frame that carries the packet. -/
def FrameOf (p : Protocol) (pkt : Packet) (bytes : List UInt8) : Prop :=
  pkt.payload.length = p.expectedPayloadSize pkt.id ∧
    ∃ cs, bytes = p.frameHeader1 :: p.frameHeader2 :: pkt.id :: UInt8.ofNat pkt.payload.length ::
      pkt.payload ++ [cs] ∧ (p.checksumAlgo ≠ .none → bytes = frame p pkt.id pkt.payload)

/-- A packet is reported for a frame at the head of the queue. -/
theorem frameVerdict_packet {room n : Nat} {l : List UInt8} {pkt : Packet}
    (hv : frameVerdict p room l = .advance n (some (.packet pkt))) : FrameOf p pkt (l.take n) := by
  match l with
  | [] | [_] | [_, _] | [_, _, _] | [_, _, _, _] => simp [frameVerdict] at hv
  | b1 :: b2 :: id :: len :: b5 :: rest =>
    simp only [frameVerdict] at hv
    split_ifs at hv with h1 h2 h3 h4 h5 h6 <;>
      simp only [Verdict.advance.injEq, Option.some.injEq, RxEvent.packet.injEq, reduceCtorEq,
        and_false] at hv
    simp only [ne_eq, not_or, not_not] at h1 h4
    obtain ⟨rfl, rfl⟩ := hv
    obtain ⟨rfl, rfl⟩ := h1
    have hlt : len.toNat < (b5 :: rest).length := by
      rw [List.length_cons]
      omega
    have hlength : ((b5 :: rest).take len.toNat).length = len.toNat := by
      rw [List.length_take]
      omega
    have hbyte : UInt8.ofNat ((b5 :: rest).take len.toNat).length = len := by
      rw [hlength, UInt8.ofNat_toNat]
    have htake : (p.frameHeader1 :: p.frameHeader2 :: id :: len :: b5 :: rest).take (len.toNat + 5) =
        p.frameHeader1 :: p.frameHeader2 :: id :: len ::
          (b5 :: rest).take len.toNat ++ [(b5 :: rest)[len.toNat]] := by
      rw [show len.toNat + 5 = (len.toNat + 1) + 4 by omega, List.take_succ_cons,
        List.take_succ_cons, List.take_succ_cons, List.take_succ_cons, List.cons_append,
        List.cons_append, List.cons_append, List.cons_append, List.take_append_getElem]
    refine ⟨by rw [hlength, h4.2], _, by rw [hbyte, htake], fun halgo => ?_⟩
    have hcs : calculateChecksum p.checksumAlgo (id :: len :: (b5 :: rest).take len.toNat) =
        (b5 :: rest)[len.toNat] := by
      unfold checksumMatches at h6
      rw [List.getD_eq_getElem?_getD, List.getElem?_eq_getElem hlt] at h6
      cases hp : p.checksumAlgo with
      | none => exact absurd hp halgo
      | sum8 | xor8 | crc8 =>
        simp only [hp] at h6
        exact eq_of_beq h6
    unfold frame
    rw [htake, hbyte, hcs]

/-- What `parse_packet` has removed from the queue. -/
def Removed (p : Protocol) (h : PacketHandler) : Option Packet × PacketHandler → Prop
  | (none, h') => ∃ dropped, h.queue = dropped ++ h'.queue
  | (some pkt, h') => ∃ dropped bytes, h.queue = dropped ++ bytes ++ h'.queue ∧ FrameOf p pkt bytes

theorem parseRun_removed {r : Option Packet × PacketHandler} (hrun : ParseRun p h r) (hi : h.Inv) :
    Removed p h r := by
  induction hrun with
  | short _ => exact ⟨[], rfl⟩
  | incomplete _ _ => exact ⟨[], rfl⟩
  | @packet h h' pkt hmin hstep =>
    have hfive := five_le_of_not_short hmin
    have hverdict := parseStep_verdict (p := p) hi hfive
    rw [parseStep?_eq hi hfive, Option.some.injEq] at hstep
    rw [hstep] at hverdict
    obtain ⟨n, hv, rfl⟩ := hverdict
    refine ⟨[], h.queue.take n.toNat, ?_, frameVerdict_packet hv⟩
    have hqueue := queue_advanceTail hi (frameVerdict_advance hv).2.1
    have hsplit : h.queue = h.queue.take n.toNat ++ (h.advanceTail n).queue := by
      rw [hqueue, List.take_append_drop]
    exact hsplit
  | @again h h' r hmin hstep _ ih =>
    have hfive := five_le_of_not_short hmin
    have hverdict := parseStep_verdict (p := p) hi hfive
    rw [parseStep?_eq hi hfive, Option.some.injEq] at hstep
    rw [hstep] at hverdict
    obtain ⟨out, hv, -, rfl⟩ := hverdict
    have hqueue := queue_advanceTail hi (n := 1) (frameVerdict_advance hv).2.1
    have hsplit : h.queue = h.queue.take 1 ++ (h.advanceTail 1).queue := by
      rw [hqueue]
      exact (List.take_append_drop 1 h.queue).symm
    have hrest := ih (Scans.advance (n := 1) hi hv _ h.rxPacketCount rfl).1.inv
    obtain ⟨result, h'⟩ := r
    cases result with
    | none =>
      obtain ⟨dropped, hdropped⟩ := hrest
      exact ⟨h.queue.take 1 ++ dropped, hsplit.trans (by rw [List.append_assoc]; exact congrArg _ hdropped)⟩
    | some pkt =>
      obtain ⟨dropped, bytes, hdropped, hframe⟩ := hrest
      refine ⟨h.queue.take 1 ++ dropped, bytes, hsplit.trans ?_, hframe⟩
      rw [List.append_assoc, List.append_assoc, ← List.append_assoc dropped]
      exact congrArg _ hdropped

-- ---------------------------------------------------------------------------
-- Runs
-- ---------------------------------------------------------------------------

/-- The operations on the ring. -/
inductive RingOp where
  | tryPushByte (byte : UInt8)
  | feedData (data : List UInt8)
  | parsePacket
  | reset

/-- The handler after an operation. -/
def apply (p : Protocol) (h : PacketHandler) : RingOp → PacketHandler
  | .tryPushByte byte => (h.tryPushByte byte).2
  | .feedData data => (h.feedData data).2
  | .parsePacket => (PacketHandler.parsePacket p h).2
  | .reset => h.reset

/-- `queue` is what the ring holds from `tail` up to `head`. -/
structure QueueWindow (h : PacketHandler) (queue : List UInt8) : Prop where
  size : h.ringBuffer.size = h.capacity.toNat
  length_lt : queue.length < h.capacity.toNat
  cells : ∀ i (hi : i < queue.length),
    h.ringBuffer[(h.tail.toNat + i) % h.capacity.toNat]? = some queue[i]
  stop : (h.tail.toNat + queue.length) % h.capacity.toNat = h.head.toNat

theorem Inv.queueWindow (hi : h.Inv) : QueueWindow h h.queue := by
  refine ⟨hi.size_eq, ?_, fun i hlt => ?_, ?_⟩
  · have := hi.length_le
    have := hi.cap_pos
    omega
  · have hcell : (h.tail.toNat + i) % h.capacity.toNat < h.ringBuffer.size := by
      rw [hi.size_eq]
      exact Nat.mod_lt _ hi.cap_pos
    have hget : h.queue[i] = h.ringBuffer.getD ((h.tail.toNat + i) % h.capacity.toNat) 0 :=
      ringWindow_getElem hlt
    rw [hget, Array.getElem?_eq_getElem hcell, Array.getD_eq_getD_getElem?,
      Array.getElem?_eq_getElem hcell, Option.getD_some]
  · rw [queue_length, hi.dataAvailable_toNat]
    exact ring_head_eq hi.head_lt hi.tail_lt

/-- The handler is a FIFO of at most `capacity - 1` bytes: what it holds, and what every operation
would do to it. -/
structure RefinesFifo (p : Protocol) (capacity : Nat) (h : PacketHandler) : Prop where
  capacity_eq : h.capacity.toNat = capacity
  head_lt : h.head.toNat < capacity
  tail_lt : h.tail.toNat < capacity
  window : QueueWindow h h.queue
  dataAvailable : h.dataAvailable.toNat = h.queue.length
  push : ∀ byte, (h.queue.length < capacity - 1 ∧ (h.tryPushByte byte).1 = true ∧
      (h.tryPushByte byte).2.queue = h.queue ++ [byte]) ∨
    (¬ h.queue.length < capacity - 1 ∧ h.tryPushByte byte = (false, h))
  feed : ∀ data, (h.feedData data).2.queue = h.queue ++ data.take (capacity - 1 - h.queue.length) ∧
    (h.feedData data).1 = data.length - (capacity - 1 - h.queue.length) ∧
    (h.feedData data).2.overflowCount = h.overflowCount + UInt32.ofNat (h.feedData data).1
  parse : ParseRun p h (PacketHandler.parsePacket p h)
  removed : Removed p h (PacketHandler.parsePacket p h)
  reset : h.reset.queue = []

theorem Inv.refinesFifo (hi : h.Inv) (p : Protocol) : RefinesFifo p h.capacity.toNat h := by
  refine ⟨rfl, hi.head_lt, hi.tail_lt, hi.queueWindow, queue_length.symm, fun byte => ?_,
    fun data => (feedData_spec data hi).2.2, parseRun_parsePacket hi,
    parseRun_removed (parseRun_parsePacket hi) hi, queue_reset hi⟩
  rcases lt_or_eq_of_le hi.length_le with hroom | hfull
  · obtain ⟨h', hpush, -, hqueue, -⟩ := tryPushByte_room hi hroom byte
    rw [hpush]
    exact .inl ⟨hroom, rfl, hqueue⟩
  · exact .inr ⟨by omega, tryPushByte_full hi hfull byte⟩

/-- One operation keeps the invariant and the capacity. -/
theorem Inv.apply (hi : h.Inv) (p : Protocol) (op : RingOp) :
    (h.apply p op).Inv ∧ (h.apply p op).capacity = h.capacity := by
  cases op with
  | tryPushByte byte =>
    show (h.tryPushByte byte).2.Inv ∧ (h.tryPushByte byte).2.capacity = h.capacity
    rcases lt_or_eq_of_le hi.length_le with hroom | hfull
    · obtain ⟨h', hpush, hi', -, hcap, -⟩ := tryPushByte_room hi hroom byte
      rw [hpush]
      exact ⟨hi', hcap⟩
    · rw [tryPushByte_full hi hfull byte]
      exact ⟨hi, rfl⟩
  | feedData data =>
    obtain ⟨hi', hcap, -⟩ := feedData_spec data hi
    exact ⟨hi', hcap⟩
  | parsePacket =>
    have hspec := parsePacket_spec (p := p) hi
    show (PacketHandler.parsePacket p h).2.Inv ∧
      (PacketHandler.parsePacket p h).2.capacity = h.capacity
    generalize PacketHandler.parsePacket p h = r at hspec
    obtain ⟨_ | pkt, h'⟩ := r
    all_goals
      obtain ⟨es, hscan, -⟩ := hspec
      exact ⟨hscan.inv, hscan.capacity_eq⟩
  | reset => exact ⟨hi.reset, rfl⟩

/-- All operations. -/
theorem Inv.foldl_apply (hi : h.Inv) (p : Protocol) (ops : List RingOp) :
    (ops.foldl (PacketHandler.apply p) h).Inv ∧
      (ops.foldl (PacketHandler.apply p) h).capacity = h.capacity := by
  induction ops generalizing h with
  | nil => exact ⟨hi, rfl⟩
  | cons op ops ih =>
    obtain ⟨hi', hcap⟩ := hi.apply p op
    obtain ⟨hinv, hcapacity⟩ := ih hi'
    exact ⟨hinv, hcapacity.trans hcap⟩

end PacketHandler

open PacketHandler

/-- **The ring buffer refines a bounded FIFO**, over every run of its operations. -/
theorem ring_refines_fifo (p : Protocol) (bufferSize : UInt64) (hsize : bufferSize.toNat + 1 ≤ 2 ^ 63) :
    ∃ h₀ capacity, PacketHandler.new bufferSize = some h₀ ∧
      IsLeast {n | (∃ k, n = 2 ^ k) ∧ bufferSize.toNat + 1 ≤ n} capacity ∧ h₀.queue = [] ∧
        ∀ ops : List RingOp, RefinesFifo p capacity (ops.foldl (apply p) h₀) := by
  obtain ⟨h₀, hnew, hleast⟩ := new_returns hsize
  obtain ⟨hi, hempty, -⟩ := new_spec hnew
  refine ⟨h₀, h₀.capacity.toNat, hnew, hleast, hempty, fun ops => ?_⟩
  obtain ⟨hi', hcap⟩ := hi.foldl_apply p ops
  rw [← hcap]
  exact hi'.refinesFifo p

/-- One message with one byte. -/
def pingProtocol : Protocol where
  frameHeader1 := 0x5A
  frameHeader2 := 0xA5
  checksumAlgo := .crc8
  requireHandshake := true
  ignoreVersionMismatch := false
  strictHeartbeat := true
  heartbeatTimeoutMs := 3000
  reliableMaxRetries := 3
  bufferSize := 1024
  maxPacketPayloadSize := 4
  messages := [⟨"Ping", 1, false, [⟨.integer "uint8_t" 1, "value"⟩]⟩]
  protocolHash := 0

theorem ring_refines_fifo_ping : ∃ h₀ capacity, PacketHandler.new pingProtocol.bufferSize = some h₀ ∧
    IsLeast {n | (∃ k, n = 2 ^ k) ∧ pingProtocol.bufferSize.toNat + 1 ≤ n} capacity ∧ h₀.queue = [] ∧
      ∀ ops : List RingOp, RefinesFifo pingProtocol capacity (ops.foldl (apply pingProtocol) h₀) :=
  ring_refines_fifo pingProtocol pingProtocol.bufferSize (by decide)

end AutoSerialBridge
