import AutoSerialBridge.Lib.RingWindow
import AutoSerialBridge.Lib.StreamScan
import AutoSerialBridge.Wire.PacketHandler
import Mathlib

/-!
# Auto Serial Bridge — the ring buffer is a bounded queue

`PacketHandler.queue` reads the ring from `tail` to `head`; `PacketHandler.Inv` is the invariant
under which that makes sense (a power-of-two capacity, both indices below it). The operations of
the ring are then operations on a list: pushing appends, advancing `tail` drops, and every masked
look-ahead read of `parse_packet` is a list lookup.

On the list, `parse_packet` is a streaming scanner: `frameVerdict` is the decision its loop takes
at the head of the queue, and `frameScanner` packages it with the stability laws. `Scans` is the
effect of part of a parse on the whole handler, counters included.

## Results

* `tryPushByte_room`, `tryPushByte_full` — a push appends, or changes nothing when the ring is full.
* `parseStep_spec` — one pass of the loop of `parse_packet` is one verdict of the scanner.
* `parsePacket_spec` — `parse_packet` runs the scanner up to the first packet.
-/

namespace AutoSerialBridge

open Lib

-- ---------------------------------------------------------------------------
-- The scanner
-- ---------------------------------------------------------------------------

/-- What a parse reports: a packet for the consumer, or a checksum error it counts. -/
inductive RxEvent where
  | packet (pkt : Packet)
  | crcError
deriving DecidableEq, Repr

/-- The packet of an event, if it is one. -/
def RxEvent.packet? : RxEvent → Option Packet
  | .packet pkt => some pkt
  | .crcError => none

/-- The checksum comparison of `parse_packet`, on the bytes that follow the two headers. -/
def checksumMatches (p : Protocol) (id len : UInt8) (rest : List UInt8) : Bool :=
  match p.checksumAlgo with
  | .none => true
  | algo => calculateChecksum algo (id :: len :: rest.take len.toNat) == rest.getD len.toNat 0

/-- The decision of `parse_packet` at the head of the queue, when at most `room` bytes can be
buffered. -/
def frameVerdict (p : Protocol) (room : Nat) : List UInt8 → Verdict RxEvent
  | b1 :: b2 :: id :: len :: b5 :: rest =>
    if b1 ≠ p.frameHeader1 ∨ b2 ≠ p.frameHeader2 then .advance 1 none
    else if room < len.toNat + 5 then .advance 1 none
    else if p.maxPacketPayloadSize < len.toNat then .advance 1 none
    else if p.expectedPayloadSize id = 0 ∨ len.toNat ≠ p.expectedPayloadSize id then
      .advance 1 none
    else if rest.length < len.toNat then .wait
    else if checksumMatches p id len (b5 :: rest) then
      .advance (len.toNat + 5) (some (.packet ⟨id, (b5 :: rest).take len.toNat⟩))
    else .advance 1 (some .crcError)
  | _ => .wait

theorem frameVerdict_advance {p : Protocol} {room n : Nat} {l : List UInt8}
    {out : Option RxEvent} (h : frameVerdict p room l = .advance n out) :
    0 < n ∧ n ≤ l.length ∧ ∀ m, frameVerdict p room (l ++ m) = .advance n out := by
  match l with
  | [] | [_] | [_, _] | [_, _, _] | [_, _, _, _] => simp [frameVerdict] at h
  | b1 :: b2 :: id :: len :: b5 :: rest =>
    simp only [frameVerdict, List.cons_append] at h ⊢
    split at h
    · next h1 =>
      cases h
      exact ⟨by omega, by simp, fun m => by rw [if_pos h1]⟩
    · next h1 =>
      split at h
      · next h2 =>
        cases h
        exact ⟨by omega, by simp, fun m => by rw [if_neg h1, if_pos h2]⟩
      · next h2 =>
        split at h
        · next h3 =>
          cases h
          exact ⟨by omega, by simp, fun m => by rw [if_neg h1, if_neg h2, if_pos h3]⟩
        · next h3 =>
          split at h
          · next h4 =>
            cases h
            exact ⟨by omega, by simp, fun m => by
              rw [if_neg h1, if_neg h2, if_neg h3, if_pos h4]⟩
          · next h4 =>
            split at h
            · cases h
            · next h5 =>
              -- the frame is complete: everything read lies in the first `len + 5` bytes
              have hlen : len.toNat ≤ rest.length := by omega
              have htake : ∀ m, (b5 :: (rest ++ m)).take len.toNat = (b5 :: rest).take len.toNat := by
                intro m
                rw [← List.cons_append]
                exact List.take_append_of_le_length (by simp; omega)
              have hcs : ∀ m, checksumMatches p id len (b5 :: (rest ++ m)) =
                  checksumMatches p id len (b5 :: rest) := by
                intro m
                have hget : (b5 :: (rest ++ m)).getD len.toNat 0 =
                    (b5 :: rest).getD len.toNat 0 := by
                  rw [← List.cons_append, List.getD_eq_getElem?_getD, List.getD_eq_getElem?_getD,
                    List.getElem?_append_left (by simp; omega)]
                rw [checksumMatches, checksumMatches, htake, hget]
              have hstable : ∀ m, ¬ (rest ++ m).length < len.toNat := by
                intro m
                rw [List.length_append]
                omega
              split at h
              · next h6 =>
                cases h
                exact ⟨by omega, by simp; omega, fun m => by
                  rw [if_neg h1, if_neg h2, if_neg h3, if_neg h4, if_neg (hstable m), hcs, if_pos h6,
                    htake]⟩
              · next h6 =>
                cases h
                exact ⟨by omega, by simp, fun m => by
                  rw [if_neg h1, if_neg h2, if_neg h3, if_neg h4, if_neg (hstable m), hcs,
                    if_neg h6]⟩

/-- `parse_packet` as a streaming scanner. -/
def frameScanner (p : Protocol) (room : Nat) : Scanner UInt8 RxEvent where
  verdict := frameVerdict p room
  pos h := (frameVerdict_advance h).1
  le_length h := (frameVerdict_advance h).2.1
  stable m h := (frameVerdict_advance h).2.2 m

/-- With a full buffer the scanner never waits: a frame it would wait for fits the buffer. -/
theorem frameVerdict_full {p : Protocol} {room : Nat} {l : List UInt8} (hroom : 5 ≤ room)
    (hl : l.length = room) : frameVerdict p room l ≠ .wait := by
  match l, hl with
  | [], hl | [_], hl | [_, _], hl | [_, _, _], hl | [_, _, _, _], hl =>
    simp only [List.length_nil, List.length_cons] at hl
    omega
  | b1 :: b2 :: id :: len :: b5 :: rest, hl =>
    simp only [List.length_cons] at hl
    simp only [frameVerdict]
    split_ifs <;> first | omega | simp

theorem frameVerdict_short {p : Protocol} {room : Nat} {l : List UInt8} (hl : l.length < 5) :
    frameVerdict p room l = .wait := by
  match l, hl with
  | [], _ | [_], _ | [_, _], _ | [_, _, _], _ | [_, _, _, _], _ => rfl

-- ---------------------------------------------------------------------------
-- The constructor
-- ---------------------------------------------------------------------------

theorem nextPowerOfTwoLoop_spec {value c : UInt64} : ∀ {fuel k : Nat} {result : UInt64},
    fuel + k = 65 → result.toNat = 2 ^ k % 2 ^ 64 →
    nextPowerOfTwoLoop value fuel result = some c →
    ∃ j, j ≤ 64 ∧ c.toNat = 2 ^ j % 2 ^ 64 ∧ value ≤ c := by
  intro fuel
  induction fuel with
  | zero =>
    intro k result _ _ h
    cases h
  | succ fuel ih =>
    intro k result hk hres h
    rw [nextPowerOfTwoLoop] at h
    split at h
    · refine ih (k := k + 1) (by omega) ?_ h
      rw [UInt64.toNat_shiftLeft, hres, show (1 : UInt64).toNat % 64 = 1 from rfl,
        Nat.shiftLeft_eq, Nat.pow_one, Nat.mod_mul_mod, Nat.pow_succ 2 k]
    · next hge =>
      cases h
      exact ⟨k, by omega, hres, UInt64.not_lt.mp hge⟩

/-- When the loop ends its result is a power of two that is at least `value`. -/
theorem nextPowerOfTwo_spec {value c : UInt64} (h : nextPowerOfTwo value = some c) :
    ∃ k, k < 64 ∧ c.toNat = 2 ^ k ∧ value ≤ c := by
  obtain ⟨k, hk, hc, hle⟩ := nextPowerOfTwoLoop_spec (k := 0) rfl rfl h
  by_cases h64 : k = 64
  · -- the register has become zero: only `value = 0` could end the loop, and it ends at once
    subst h64
    have hc0 : c = 0 := UInt64.toNat_inj.mp (by rw [hc]; rfl)
    have hv0 : value = 0 := by
      rw [hc0] at hle
      exact UInt64.le_antisymm hle UInt64.zero_le
    rw [hv0, hc0] at h
    exact absurd h (by decide)
  · exact ⟨k, by omega, by rw [hc, Nat.mod_eq_of_lt (Nat.pow_lt_pow_right (by omega) (by omega))],
      hle⟩

namespace PacketHandler

-- ---------------------------------------------------------------------------
-- Invariant and abstraction
-- ---------------------------------------------------------------------------

/-- The ring is a power of two large and both indices lie in it. -/
structure Inv (h : PacketHandler) : Prop where
  cap_pow : ∃ k, k < 64 ∧ h.capacity.toNat = 2 ^ k
  mask_eq : h.mask = h.capacity - 1
  size_eq : h.ringBuffer.size = h.capacity.toNat
  head_lt : h.head.toNat < h.capacity.toNat
  tail_lt : h.tail.toNat < h.capacity.toNat

/-- The buffered bytes in the order they will be parsed. -/
def queue (h : PacketHandler) : List UInt8 :=
  ringWindow (fun i => h.ringBuffer.getD i 0) h.capacity.toNat h.tail.toNat
    h.dataAvailable.toNat

variable {h : PacketHandler}

@[simp] theorem queue_length : h.queue.length = h.dataAvailable.toNat := ringWindow_length ..

theorem Inv.cap_pos (hi : h.Inv) : 0 < h.capacity.toNat := by
  have := hi.head_lt
  omega

theorem Inv.cap_dvd (hi : h.Inv) : h.capacity.toNat ∣ 2 ^ 64 := by
  obtain ⟨k, hk, hcap⟩ := hi.cap_pow
  rw [hcap]
  exact Nat.pow_dvd_pow 2 (by omega)

/-- `x & mask_` is reduction modulo the capacity. -/
theorem Inv.and_mask (hi : h.Inv) (x : UInt64) :
    (x &&& h.mask).toNat = x.toNat % h.capacity.toNat := by
  obtain ⟨k, hk, hcap⟩ := hi.cap_pow
  have hmask : h.mask.toNat = 2 ^ k - 1 := by
    have hpos : 0 < 2 ^ k := Nat.two_pow_pos k
    have hlt : 2 ^ k < 2 ^ 64 := Nat.pow_lt_pow_right (by omega) hk
    rw [hi.mask_eq, UInt64.toNat_sub, hcap, show (1 : UInt64).toNat = 1 from rfl,
      show 2 ^ 64 - 1 + 2 ^ k = (2 ^ k - 1) + 2 ^ 64 by omega, Nat.add_mod_right]
    exact Nat.mod_eq_of_lt (by omega)
  rw [UInt64.toNat_and, hmask, hcap, Nat.and_two_pow_sub_one_eq_mod]

/-- Masking a wrapped sum wraps at the capacity. -/
theorem Inv.add_and_mask (hi : h.Inv) (x y : UInt64) :
    ((x + y) &&& h.mask).toNat = (x.toNat + y.toNat) % h.capacity.toNat := by
  rw [hi.and_mask, UInt64.toNat_add, Nat.mod_mod_of_dvd _ hi.cap_dvd]

theorem Inv.dataAvailable_toNat (hi : h.Inv) :
    h.dataAvailable.toNat = ringCount h.capacity.toNat h.head.toNat h.tail.toNat := by
  have htail := hi.tail_lt
  obtain ⟨q, hq⟩ := hi.cap_dvd
  have hqpos : 0 < q := by
    rcases Nat.eq_zero_or_pos q with rfl | hpos
    · rw [Nat.mul_zero] at hq
      exact absurd hq (by decide)
    · exact hpos
  rw [dataAvailable, hi.and_mask, UInt64.toNat_sub, Nat.mod_mod_of_dvd _ hi.cap_dvd, ringCount]
  obtain ⟨q', rfl⟩ : ∃ q', q = q' + 1 := ⟨q - 1, by omega⟩
  rw [hq, Nat.mul_succ,
    show h.capacity.toNat * q' + h.capacity.toNat - h.tail.toNat + h.head.toNat =
      (h.head.toNat + h.capacity.toNat - h.tail.toNat) + h.capacity.toNat * q' by omega,
    Nat.add_mul_mod_self_left]

theorem Inv.dataAvailable_lt (hi : h.Inv) : h.dataAvailable.toNat < h.capacity.toNat := by
  rw [hi.dataAvailable_toNat]
  exact ringCount_lt hi.cap_pos

/-- A masked look-ahead read inside the queue is a list lookup. -/
theorem Inv.cell_eq (hi : h.Inv) {x : UInt64} {n : Nat} (hn : n < h.queue.length)
    (hx : x.toNat % h.capacity.toNat = (h.tail.toNat + n) % h.capacity.toNat) :
    h.cell (x &&& h.mask) = h.queue[n] := by
  have hget : h.queue[n] = h.ringBuffer.getD ((h.tail.toNat + n) % h.capacity.toNat) 0 :=
    ringWindow_getElem hn
  rw [hget, cell, hi.and_mask, hx]

-- ---------------------------------------------------------------------------
-- Pushing
-- ---------------------------------------------------------------------------

/-- **Push with room.** The byte is appended to the queue and nothing else changes. -/
theorem tryPushByte_room (hi : h.Inv) (hroom : h.queue.length < h.capacity.toNat - 1)
    (b : UInt8) : ∃ h', h.tryPushByte b = (true, h') ∧ h'.Inv ∧ h'.queue = h.queue ++ [b] ∧
      h'.capacity = h.capacity ∧ h'.overflowCount = h.overflowCount ∧
      h'.crcErrorCount = h.crcErrorCount ∧ h'.rxPacketCount = h.rxPacketCount := by
  have hhead : ((h.head + 1) &&& h.mask).toNat = (h.head.toNat + 1) % h.capacity.toNat :=
    hi.add_and_mask h.head 1
  rw [queue_length, hi.dataAvailable_toNat] at hroom
  have hne : (h.head.toNat + 1) % h.capacity.toNat ≠ h.tail.toNat := by
    rw [Ne, ringCount_full hi.head_lt hi.tail_lt]
    omega
  have hcond : ¬ ((h.head + 1) &&& h.mask = h.tail) := by
    intro heq
    rw [heq] at hhead
    exact hne hhead.symm
  have hinv : Inv { h with
      ringBuffer := h.ringBuffer.setIfInBounds h.head.toNat b
      head := (h.head + 1) &&& h.mask } := by
    refine ⟨hi.cap_pow, hi.mask_eq, ?_, ?_, hi.tail_lt⟩
    · rw [Array.size_setIfInBounds]
      exact hi.size_eq
    · show ((h.head + 1) &&& h.mask).toNat < h.capacity.toNat
      rw [hhead]
      exact Nat.mod_lt _ hi.cap_pos
  refine ⟨_, by rw [tryPushByte, if_neg hcond], hinv, ?_, rfl, rfl, rfl, rfl⟩
  unfold queue
  rw [hinv.dataAvailable_toNat, hi.dataAvailable_toNat]
  show ringWindow _ h.capacity.toNat h.tail.toNat
    (ringCount h.capacity.toNat ((h.head + 1) &&& h.mask).toNat h.tail.toNat) = _
  rw [hhead, ringCount_push hi.head_lt hi.tail_lt hne]
  have hidx := ring_head_eq hi.head_lt hi.tail_lt
  apply ringWindow_push
  · omega
  · rw [hidx, Array.getD_eq_getD_getElem?, Array.getElem?_setIfInBounds_self_of_lt]
    · rfl
    · rw [hi.size_eq]
      exact hi.head_lt
  · intro k hk
    rw [hidx] at hk
    rw [Array.getD_eq_getD_getElem?, Array.getD_eq_getD_getElem?,
      Array.getElem?_setIfInBounds_ne (by omega)]

/-- **Push into a full ring.** Nothing changes. -/
theorem tryPushByte_full (hi : h.Inv) (hfull : h.queue.length = h.capacity.toNat - 1)
    (b : UInt8) : h.tryPushByte b = (false, h) := by
  rw [queue_length, hi.dataAvailable_toNat] at hfull
  have hhead : ((h.head + 1) &&& h.mask).toNat = (h.head.toNat + 1) % h.capacity.toNat :=
    hi.add_and_mask h.head 1
  rw [(ringCount_full hi.head_lt hi.tail_lt).mpr hfull] at hhead
  rw [tryPushByte, if_pos (UInt64.toNat_inj.mp hhead)]

-- ---------------------------------------------------------------------------
-- Dropping and resetting
-- ---------------------------------------------------------------------------

theorem Inv.advanceTail (hi : h.Inv) (n : UInt64) : (h.advanceTail n).Inv := by
  refine ⟨hi.cap_pow, hi.mask_eq, hi.size_eq, hi.head_lt, ?_⟩
  show ((h.tail + n) &&& h.mask).toNat < h.capacity.toNat
  rw [hi.and_mask]
  exact Nat.mod_lt _ hi.cap_pos

/-- Advancing `tail` drops from the queue. -/
theorem queue_advanceTail (hi : h.Inv) {n : UInt64} (hn : n.toNat ≤ h.queue.length) :
    (h.advanceTail n).queue = h.queue.drop n.toNat := by
  have hi' := hi.advanceTail n
  rw [queue_length, hi.dataAvailable_toNat] at hn
  unfold queue
  rw [hi'.dataAvailable_toNat, hi.dataAvailable_toNat, ringWindow_drop]
  show ringWindow _ h.capacity.toNat ((h.tail + n) &&& h.mask).toNat
    (ringCount h.capacity.toNat h.head.toNat ((h.tail + n) &&& h.mask).toNat) = _
  rw [hi.add_and_mask, ringCount_drop hi.head_lt hi.tail_lt hn]
  rfl

theorem Inv.reset (hi : h.Inv) : h.reset.Inv :=
  ⟨hi.cap_pow, hi.mask_eq, hi.size_eq, hi.cap_pos, hi.cap_pos⟩

theorem queue_reset (hi : h.Inv) : h.reset.queue = [] := by
  rw [← List.length_eq_zero_iff, queue_length, hi.reset.dataAvailable_toNat]
  show ringCount h.capacity.toNat 0 0 = 0
  rw [ringCount, Nat.zero_add, Nat.sub_zero, Nat.mod_self]

theorem Inv.recordOverflow (hi : h.Inv) : h.recordOverflow.Inv :=
  ⟨hi.cap_pow, hi.mask_eq, hi.size_eq, hi.head_lt, hi.tail_lt⟩

/-- What the constructor builds: an empty ring that can hold `buffer_size + 1 - 1` bytes, where the
sum is computed in `size_t`. -/
theorem new_spec {bufferSize : UInt64} (hnew : PacketHandler.new bufferSize = some h) :
    h.Inv ∧ h.queue = [] ∧ bufferSize + 1 ≤ h.capacity ∧ h.overflowCount = 0 ∧
      h.crcErrorCount = 0 ∧ h.rxPacketCount = 0 := by
  rw [new] at hnew
  split at hnew
  · cases hnew
  · next capacity hcap =>
    cases hnew
    obtain ⟨k, hk, hpow, hle⟩ := nextPowerOfTwo_spec hcap
    have hpos : 0 < capacity.toNat := by
      rw [hpow]
      exact Nat.two_pow_pos k
    have hi : Inv ⟨Array.replicate capacity.toNat 0, 0, 0, capacity, capacity - 1, 0, 0, 0⟩ :=
      ⟨⟨k, hk, hpow⟩, rfl, Array.size_replicate, hpos, hpos⟩
    exact ⟨hi, queue_reset hi, hle, rfl, rfl, rfl⟩

/-- A handler built for this buffer size, at some later time: the capacity never changes. -/
def BuiltWith (h : PacketHandler) (bufferSize : UInt64) : Prop :=
  h.Inv ∧ ∃ h₀, PacketHandler.new bufferSize = some h₀ ∧ h.capacity = h₀.capacity

theorem builtWith_new {bufferSize : UInt64} (hnew : PacketHandler.new bufferSize = some h) :
    h.BuiltWith bufferSize :=
  ⟨(new_spec hnew).1, h, hnew, rfl⟩

-- ---------------------------------------------------------------------------
-- One pass of parse_packet
-- ---------------------------------------------------------------------------

/-- A run of masked reads starting at offset `k` is a slice of the queue. -/
theorem Inv.slice_eq (hi : h.Inv) {start : UInt64} {k count : Nat}
    (hstart : start.toNat = (h.tail.toNat + k) % h.capacity.toNat)
    (hle : k + count ≤ h.queue.length) :
    (List.range count).map (fun i => h.cell ((start + UInt64.ofNat i) &&& h.mask)) =
      (h.queue.drop k).take count := by
  apply List.ext_getElem
  · simp
    rw [queue_length] at hle
    omega
  · intro i h1 h2
    have hic : i < count := by simpa using h1
    have hi64 : i < 2 ^ 64 := by
      have := hi.dataAvailable_lt
      have := h.capacity.toNat_lt
      rw [queue_length] at hle
      omega
    rw [List.getElem_map, List.getElem_range, List.getElem_take, List.getElem_drop]
    apply hi.cell_eq
    rw [UInt64.toNat_add, Nat.mod_mod_of_dvd _ hi.cap_dvd, hstart, UInt64.toNat_ofNat',
      Nat.mod_eq_of_lt hi64, Nat.mod_add_mod, Nat.add_assoc]

theorem Inv.checksum_eq (hi : h.Inv) (algo : ChecksumAlgo) {start : UInt64} {k count : Nat}
    (hstart : start.toNat = (h.tail.toNat + k) % h.capacity.toNat)
    (hle : k + count ≤ h.queue.length) :
    h.calculateChecksumFromRing algo start count =
      calculateChecksum algo ((h.queue.drop k).take count) := by
  rw [calculateChecksumFromRing, calculateChecksum, ← hi.slice_eq hstart hle, List.foldl_map]

/-- What a pass that goes on or returns a packet does to the handler: the scanner's step on the
queue, its event in the counters, nothing else. -/
structure Scans (p : Protocol) (h h' : PacketHandler) (es : List RxEvent) : Prop where
  inv : h'.Inv
  capacity_eq : h'.capacity = h.capacity
  overflow_eq : h'.overflowCount = h.overflowCount
  crc_eq : h'.crcErrorCount = h.crcErrorCount + UInt32.ofNat (es.count .crcError)
  steps : (frameScanner p (h.capacity.toNat - 1)).Steps h.queue es h'.queue

theorem Scans.refl {p : Protocol} (hi : h.Inv) : Scans p h h [] :=
  ⟨hi, rfl, rfl, by simp, Scanner.Steps.refl _⟩

theorem Scans.trans {p : Protocol} {h₁ h₂ h₃ : PacketHandler} {es fs : List RxEvent}
    (h12 : Scans p h₁ h₂ es) (h23 : Scans p h₂ h₃ fs) : Scans p h₁ h₃ (es ++ fs) := by
  refine ⟨h23.inv, h23.capacity_eq.trans h12.capacity_eq, h23.overflow_eq.trans h12.overflow_eq,
    ?_, ?_⟩
  · rw [h23.crc_eq, h12.crc_eq, List.count_append, UInt32.ofNat_add, UInt32.add_assoc]
  · have hs := h23.steps
    rw [h12.capacity_eq] at hs
    exact h12.steps.trans hs

/-- Advancing `tail` as the verdict says is one step of the scanner. -/
theorem Scans.advance {p : Protocol} (hi : h.Inv) {n : UInt64} {out : Option RxEvent}
    (hv : frameVerdict p (h.capacity.toNat - 1) h.queue = .advance n.toNat out)
    (crc rx : UInt32) (hcrc : crc = h.crcErrorCount + UInt32.ofNat (out.toList.count .crcError)) :
    Scans p h { h.advanceTail n with crcErrorCount := crc, rxPacketCount := rx } out.toList ∧
      (h.advanceTail n).queue.length < h.queue.length := by
  obtain ⟨hpos, hle, -⟩ := frameVerdict_advance hv
  have hi' := hi.advanceTail n
  have hqueue := queue_advanceTail hi hle
  refine ⟨⟨⟨hi'.cap_pow, hi'.mask_eq, hi'.size_eq, hi'.head_lt, hi'.tail_lt⟩, rfl, rfl, hcrc, ?_⟩,
    ?_⟩
  · have hs := Scanner.Steps.single (S := frameScanner p (h.capacity.toNat - 1)) hv
    rw [← hqueue] at hs
    exact hs
  · rw [hqueue, List.length_drop]
    omega

/-- One pass of the loop of `parse_packet`, by the verdict on the queue. -/
theorem parseStep_verdict {p : Protocol} (hi : h.Inv) (hlen : 5 ≤ h.queue.length) :
    match parseStep p h with
    | .again h' => ∃ out : Option RxEvent,
        frameVerdict p (h.capacity.toNat - 1) h.queue = .advance 1 out ∧
          out.toList.filterMap RxEvent.packet? = [] ∧
          h' = { h.advanceTail 1 with
            crcErrorCount := h.crcErrorCount + UInt32.ofNat (out.toList.count .crcError) }
    | .incomplete => frameVerdict p (h.capacity.toNat - 1) h.queue = .wait
    | .packet pkt h' => ∃ n : UInt64,
        frameVerdict p (h.capacity.toNat - 1) h.queue = .advance n.toNat (some (.packet pkt)) ∧
          h' = { h.advanceTail n with rxPacketCount := h.rxPacketCount + 1 } := by
  -- the first five bytes of the queue
  obtain ⟨b1, b2, id, len, b5, rest, hq⟩ : ∃ b1 b2 id len b5 rest,
      h.queue = b1 :: b2 :: id :: len :: b5 :: rest := by
    match hm : h.queue, hlen with
    | b1 :: b2 :: id :: len :: b5 :: rest, _ => exact ⟨b1, b2, id, len, b5, rest, rfl⟩
  have hL : h.queue.length = rest.length + 5 := by rw [hq]; rfl
  have hcell : ∀ (x : UInt64) (n : Nat) (hn : n < h.queue.length),
      x.toNat % h.capacity.toNat = (h.tail.toNat + n) % h.capacity.toNat →
      h.cell (x &&& h.mask) = h.queue[n] := fun x n hn hx => hi.cell_eq hn hx
  have hadd : ∀ n : UInt64,
      (h.tail + n).toNat % h.capacity.toNat = (h.tail.toNat + n.toNat) % h.capacity.toNat := by
    intro n
    rw [UInt64.toNat_add, Nat.mod_mod_of_dvd _ hi.cap_dvd]
  have hb1 : h.cell h.tail = b1 := by
    have hmask : h.tail &&& h.mask = h.tail :=
      UInt64.toNat_inj.mp (by rw [hi.and_mask, Nat.mod_eq_of_lt hi.tail_lt])
    rw [← hmask, hcell _ 0 (by omega) (by simp)]
    simp [hq]
  have hb2 : h.cell ((h.tail + 1) &&& h.mask) = b2 := by
    rw [hcell _ 1 (by omega) (hadd 1)]
    simp [hq]
  have hid : h.cell ((h.tail + 2) &&& h.mask) = id := by
    rw [hcell _ 2 (by omega) (hadd 2)]
    simp [hq]
  have hlenb : h.cell ((h.tail + 3) &&& h.mask) = len := by
    rw [hcell _ 3 (by omega) (hadd 3)]
    simp [hq]
  -- the `size_t` arithmetic does not wrap
  have hlen256 : len.toNat < 256 := len.toNat_lt
  have htotal : (2 + 1 + 1 + len.toUInt64 + 1 : UInt64).toNat = len.toNat + 5 := by
    simp only [UInt64.toNat_add, UInt8.toNat_toUInt64, UInt64.toNat_ofNat]
    omega
  have hcap1 : (h.capacity - 1).toNat = h.capacity.toNat - 1 := by
    rw [UInt64.toNat_sub, show (1 : UInt64).toNat = 1 from rfl]
    have := h.capacity.toNat_lt
    have := hi.cap_pos
    omega
  have hskip : frameVerdict p (h.capacity.toNat - 1) h.queue = .advance 1 none →
      ∃ out : Option RxEvent, frameVerdict p (h.capacity.toNat - 1) h.queue = .advance 1 out ∧
        out.toList.filterMap RxEvent.packet? = [] ∧
        h.advanceTail 1 = { h.advanceTail 1 with
          crcErrorCount := h.crcErrorCount + UInt32.ofNat (out.toList.count .crcError) } :=
    fun hv => ⟨none, hv, rfl, by simp [advanceTail]⟩
  rw [parseStep, hb1, hb2]
  simp only [hid, hlenb]
  have hv : frameVerdict p (h.capacity.toNat - 1) h.queue =
      frameVerdict p (h.capacity.toNat - 1) (b1 :: b2 :: id :: len :: b5 :: rest) := by rw [hq]
  simp only [frameVerdict] at hv
  by_cases h1 : b1 ≠ p.frameHeader1 ∨ b2 ≠ p.frameHeader2
  · rw [if_pos h1] at hv ⊢
    exact hskip hv
  rw [if_neg h1] at hv ⊢
  by_cases h2 : h.capacity.toNat - 1 < len.toNat + 5
  · rw [if_pos h2] at hv
    rw [if_pos (by rw [gt_iff_lt, UInt64.lt_iff_toNat_lt, hcap1, htotal]; exact h2)]
    exact hskip hv
  rw [if_neg h2] at hv
  rw [if_neg (by rw [gt_iff_lt, UInt64.lt_iff_toNat_lt, hcap1, htotal]; exact h2)]
  by_cases h3 : p.maxPacketPayloadSize < len.toNat
  · rw [if_pos h3] at hv ⊢
    exact hskip hv
  rw [if_neg h3] at hv ⊢
  by_cases h4 : p.expectedPayloadSize id = 0 ∨ len.toNat ≠ p.expectedPayloadSize id
  · rw [if_pos h4] at hv ⊢
    exact hskip hv
  rw [if_neg h4] at hv ⊢
  by_cases h5 : rest.length < len.toNat
  · rw [if_pos h5] at hv
    rw [if_pos (by rw [UInt64.lt_iff_toNat_lt, htotal, ← queue_length, hL]; omega)]
    exact hv
  rw [if_neg h5] at hv
  rw [if_neg (by rw [UInt64.lt_iff_toNat_lt, htotal, ← queue_length, hL]; omega)]
  -- the frame is complete: the reads of payload and checksum are slices of the queue
  have hstart : ∀ k : UInt64, ((h.tail + k) &&& h.mask).toNat =
      (h.tail.toNat + k.toNat) % h.capacity.toNat := fun k => hi.add_and_mask h.tail k
  have hcalc : ∀ algo, h.calculateChecksumFromRing algo ((h.tail + 2) &&& h.mask)
      (2 + len.toNat) = calculateChecksum algo (id :: len :: (b5 :: rest).take len.toNat) := by
    intro algo
    rw [hi.checksum_eq algo (hstart 2) (by rw [hL]; show 2 + (2 + len.toNat) ≤ _; omega), hq,
      Nat.add_comm 2 len.toNat]
    rfl
  have hpay : (List.range len.toNat).map (fun i =>
      h.cell ((((h.tail + 4) &&& h.mask) + UInt64.ofNat i) &&& h.mask)) =
        (b5 :: rest).take len.toNat := by
    rw [hi.slice_eq (hstart 4) (by rw [hL]; show 4 + len.toNat ≤ _; omega), hq]
    rfl
  have hrecv : h.cell ((h.tail + (2 + 1 + 1 + len.toUInt64 + 1) - 1) &&& h.mask) =
      (b5 :: rest).getD len.toNat 0 := by
    have hsub : (2 + 1 + 1 + len.toUInt64 + 1 - 1 : UInt64).toNat = len.toNat + 4 := by
      rw [UInt64.add_sub_cancel]
      simp only [UInt64.toNat_add, UInt8.toNat_toUInt64, UInt64.toNat_ofNat]
      omega
    rw [UInt64.sub_eq_add_neg, UInt64.add_assoc, ← UInt64.sub_eq_add_neg,
      hcell _ (len.toNat + 4) (by omega) (by rw [hadd, hsub])]
    simp only [hq, List.getElem_cons_succ]
    rw [List.getD_eq_getElem?_getD, List.getElem?_eq_getElem (by simp; omega)]
    rfl
  have hok : h.checksumOk p.checksumAlgo len (2 + 1 + 1 + len.toUInt64 + 1) =
      checksumMatches p id len (b5 :: rest) := by
    rw [checksumMatches]
    cases p.checksumAlgo <;> simp only [checksumOk, hcalc, hrecv]
  simp only [hok, hpay]
  cases h6 : checksumMatches p id len (b5 :: rest) with
  | false =>
    rw [h6, if_neg Bool.false_ne_true] at hv
    rw [if_pos rfl]
    exact ⟨some .crcError, hv, rfl, rfl⟩
  | true =>
    rw [h6, if_pos rfl, ← htotal] at hv
    rw [if_neg (by simp)]
    exact ⟨_, hv, rfl⟩

/-- **One pass of the loop of `parse_packet` is one verdict of the scanner.** -/
theorem parseStep_spec {p : Protocol} (hi : h.Inv) (hlen : 5 ≤ h.queue.length) :
    match parseStep p h with
    | .again h' => ∃ es, Scans p h h' es ∧ h'.queue.length < h.queue.length ∧
        es.filterMap RxEvent.packet? = []
    | .incomplete => frameVerdict p (h.capacity.toNat - 1) h.queue = .wait
    | .packet pkt h' => Scans p h h' [.packet pkt] ∧ h'.queue.length < h.queue.length := by
  have hverdict := parseStep_verdict (p := p) hi hlen
  cases hstep : parseStep p h with
  | again h' =>
    rw [hstep] at hverdict
    obtain ⟨out, hv, hnone, rfl⟩ := hverdict
    obtain ⟨hs, hlt⟩ := Scans.advance (n := 1) hi hv _ h.rxPacketCount rfl
    exact ⟨_, hs, hlt, hnone⟩
  | incomplete =>
    rw [hstep] at hverdict
    exact hverdict
  | packet pkt h' =>
    rw [hstep] at hverdict
    obtain ⟨n, hv, rfl⟩ := hverdict
    exact Scans.advance hi hv h.crcErrorCount (h.rxPacketCount + 1) (by simp)

-- ---------------------------------------------------------------------------
-- parse_packet
-- ---------------------------------------------------------------------------

/-- What `parse_packet` returns, in terms of the scanner: it runs to the first packet, or to the
point where the scanner waits. -/
def ParseResult (p : Protocol) (h : PacketHandler) : Option Packet × PacketHandler → Prop
  | (none, h') => ∃ es, Scans p h h' es ∧ es.filterMap RxEvent.packet? = [] ∧
      frameVerdict p (h'.capacity.toNat - 1) h'.queue = .wait
  | (some pkt, h') => ∃ es, Scans p h h' es ∧ es.filterMap RxEvent.packet? = [pkt] ∧
      h'.queue.length < h.queue.length

theorem parseLoop_spec {p : Protocol} : ∀ {fuel : Nat} {h : PacketHandler}, h.Inv →
    h.queue.length ≤ fuel → ParseResult p h (parseLoop p fuel h) := by
  intro fuel
  induction fuel with
  | zero =>
    intro h hi hlen
    exact ⟨[], Scans.refl hi, rfl, frameVerdict_short (by omega)⟩
  | succ fuel ih =>
    intro h hi hlen
    have hmin : h.dataAvailable < minPacketSize ↔ h.queue.length < 5 := by
      rw [queue_length]
      exact UInt64.lt_iff_toNat_lt
    rw [parseLoop]
    by_cases hshort : h.dataAvailable < minPacketSize
    · rw [if_pos hshort]
      exact ⟨[], Scans.refl hi, rfl, frameVerdict_short (hmin.mp hshort)⟩
    · rw [if_neg hshort]
      rw [hmin] at hshort
      have hstep := parseStep_spec (p := p) hi (by omega)
      cases hs : parseStep p h with
      | again h' =>
        rw [hs] at hstep
        obtain ⟨es, hscan, hlt, hnone⟩ := hstep
        have hrest := ih hscan.inv (by omega)
        simp only
        -- the events of the dropped byte come before those of the rest of the loop
        cases hr : parseLoop p fuel h' with
        | mk res h'' =>
          rw [hr] at hrest
          cases res with
          | none =>
            obtain ⟨fs, hscan', hnone', hwait⟩ := hrest
            exact ⟨es ++ fs, hscan.trans hscan', by rw [List.filterMap_append, hnone, hnone']; rfl,
              hwait⟩
          | some pkt =>
            obtain ⟨fs, hscan', hsome, hlt'⟩ := hrest
            exact ⟨es ++ fs, hscan.trans hscan', by rw [List.filterMap_append, hnone, hsome]; rfl,
              by omega⟩
      | incomplete =>
        rw [hs] at hstep
        exact ⟨[], Scans.refl hi, rfl, hstep⟩
      | packet pkt h' =>
        rw [hs] at hstep
        exact ⟨[.packet pkt], hstep.1, rfl, hstep.2⟩

theorem parsePacket_spec {p : Protocol} (hi : h.Inv) : ParseResult p h (parsePacket p h) :=
  parseLoop_spec hi (Nat.le_of_eq queue_length)

end PacketHandler

end AutoSerialBridge
