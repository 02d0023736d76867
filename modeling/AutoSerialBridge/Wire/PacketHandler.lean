import AutoSerialBridge.Wire.Frame

/-!
# Auto Serial Bridge — the ring-buffer decoder of the ROS side

`PacketHandler` and `feed_data_with_recovery` as the code computes them: indices are `size_t`
(64-bit, wrapping), cells are reached through `& mask_`, and every look-ahead read is a read of
the ring.

`feedDataWithRecovery` takes the state it works on as a parameter, because its consumer may act on
the handler it is being fed from (`SerialController::handle_packet` can reach `reset_serial`):
`RingAccess σ` says where in a state `σ` the handler lives.
-/

namespace AutoSerialBridge

/-- `PacketHandler`. -/
structure PacketHandler where
  ringBuffer : Array UInt8
  head : UInt64
  tail : UInt64
  capacity : UInt64
  mask : UInt64
  overflowCount : UInt32
  crcErrorCount : UInt32
  rxPacketCount : UInt32

/-- The loop of `next_power_of_two`. After 64 shifts the register is zero and stays zero, so a
loop that has not ended by then never ends. -/
def nextPowerOfTwoLoop (value : UInt64) : Nat → UInt64 → Option UInt64
  | 0, _ => none
  | fuel + 1, result =>
    if result < value then nextPowerOfTwoLoop value fuel (result <<< 1) else some result

/-- `PacketHandler::next_power_of_two`; `none` when the loop does not terminate. -/
def nextPowerOfTwo (value : UInt64) : Option UInt64 := nextPowerOfTwoLoop value 65 1

namespace PacketHandler

/-- `MIN_PACKET_SIZE`. -/
def minPacketSize : UInt64 := 5

/-- The constructor; `none` when it does not return. -/
def new (bufferSize : UInt64) : Option PacketHandler :=
  match nextPowerOfTwo (bufferSize + 1) with
  | none => none
  | some capacity => some
    { ringBuffer := Array.replicate capacity.toNat 0
      head := 0
      tail := 0
      capacity := capacity
      mask := capacity - 1
      overflowCount := 0
      crcErrorCount := 0
      rxPacketCount := 0 }

/-- `reset`. -/
def reset (h : PacketHandler) : PacketHandler := { h with head := 0, tail := 0 }

/-- `record_overflow`. -/
def recordOverflow (h : PacketHandler) : PacketHandler :=
  { h with overflowCount := h.overflowCount + 1 }

/-- `data_available`. -/
def dataAvailable (h : PacketHandler) : UInt64 := (h.head - h.tail) &&& h.mask

/-- `ring_buffer_[i]`. -/
def cell (h : PacketHandler) (i : UInt64) : UInt8 := h.ringBuffer.getD i.toNat 0

/-- `try_push_byte`. -/
def tryPushByte (h : PacketHandler) (byte : UInt8) : Bool × PacketHandler :=
  let nextHead := (h.head + 1) &&& h.mask
  if nextHead = h.tail then (false, h)
  else (true, { h with
    ringBuffer := h.ringBuffer.setIfInBounds h.head.toNat byte
    head := nextHead })

/-- `calculate_checksum_from_ring`. -/
def calculateChecksumFromRing (h : PacketHandler) (algo : ChecksumAlgo) (start : UInt64)
    (count : Nat) : UInt8 :=
  (List.range count).foldl
    (fun checksum i => checksumUpdate algo checksum (h.cell ((start + UInt64.ofNat i) &&& h.mask)))
    0

/-- `checksum_ok`, computed by `parse_packet` for a complete candidate frame. -/
def checksumOk (h : PacketHandler) (algo : ChecksumAlgo) (lenByte : UInt8) (totalLen : UInt64) :
    Bool :=
  match algo with
  | .none => true
  | algo =>
    let calcCs := h.calculateChecksumFromRing algo ((h.tail + 2) &&& h.mask) (2 + lenByte.toNat)
    let recvCs := h.cell ((h.tail + totalLen - 1) &&& h.mask)
    calcCs == recvCs

/-- `feed_data`: the number of bytes dropped. -/
def feedData (h : PacketHandler) : List UInt8 → Nat × PacketHandler
  | [] => (0, h)
  | byte :: data =>
    match h.tryPushByte byte with
    | (true, h') => feedData h' data
    | (false, h') =>
      let (dropped, h'') := feedData { h' with overflowCount := h'.overflowCount + 1 } data
      (dropped + 1, h'')

/-- `tail_ = (tail_ + n) & mask_`. -/
def advanceTail (h : PacketHandler) (n : UInt64) : PacketHandler :=
  { h with tail := (h.tail + n) &&& h.mask }

/-- The body of the loop of `parse_packet`, entered with at least `MIN_PACKET_SIZE` bytes
available: drop a byte and go on, wait, or return a packet. -/
inductive ParseStep where
  | again (h : PacketHandler)
  | incomplete
  | packet (pkt : Packet) (h : PacketHandler)

/-- One pass through the loop of `parse_packet`. -/
def parseStep (p : Protocol) (h : PacketHandler) : ParseStep :=
  let b1 := h.cell h.tail
  let b2 := h.cell ((h.tail + 1) &&& h.mask)
  if b1 ≠ p.frameHeader1 ∨ b2 ≠ p.frameHeader2 then
    .again (h.advanceTail 1)
  else
    let idByte := h.cell ((h.tail + 2) &&& h.mask)
    let lenByte := h.cell ((h.tail + 3) &&& h.mask)
    let totalLen : UInt64 := 2 + 1 + 1 + lenByte.toUInt64 + 1
    if totalLen > h.capacity - 1 then
      .again (h.advanceTail 1)
    else if lenByte.toNat > p.maxPacketPayloadSize then
      .again (h.advanceTail 1)
    else
      let expectedLen := p.expectedPayloadSize idByte
      if expectedLen = 0 ∨ lenByte.toNat ≠ expectedLen then
        .again (h.advanceTail 1)
      else if h.dataAvailable < totalLen then
        .incomplete
      else
        if h.checksumOk p.checksumAlgo lenByte totalLen = false then
          .again { h.advanceTail 1 with crcErrorCount := h.crcErrorCount + 1 }
        else
          let payloadStart := (h.tail + 4) &&& h.mask
          let payload := (List.range lenByte.toNat).map fun i =>
            h.cell ((payloadStart + UInt64.ofNat i) &&& h.mask)
          .packet ⟨idByte, payload⟩
            { h.advanceTail totalLen with rxPacketCount := h.rxPacketCount + 1 }

/-- The loop of `parse_packet`. -/
def parseLoop (p : Protocol) : Nat → PacketHandler → Option Packet × PacketHandler
  | 0, h => (none, h)
  | fuel + 1, h =>
    if h.dataAvailable < minPacketSize then (none, h)
    else
      match parseStep p h with
      | .again h' => parseLoop p fuel h'
      | .incomplete => (none, h)
      | .packet pkt h' => (some pkt, h')

/-- `parse_packet`. Every pass that goes on removes a byte, so the number of available bytes
bounds the passes. -/
def parsePacket (p : Protocol) (h : PacketHandler) : Option Packet × PacketHandler :=
  parseLoop p h.dataAvailable.toNat h

end PacketHandler

-- ---------------------------------------------------------------------------
-- feed_data_with_recovery
-- ---------------------------------------------------------------------------

/-- Where the `PacketHandler` lives in the state the consumer works on. -/
structure RingAccess (σ : Type) where
  get : σ → PacketHandler
  set : PacketHandler → σ → σ

section Feed

variable {σ : Type} (R : RingAccess σ) (p : Protocol) (consumer : Packet → σ → σ)

/-- `while (handler.parse_packet(pkt)) consumer(pkt)`, with the number of packets consumed. Every
packet removes at least a byte, so the number of available bytes bounds the passes. -/
def drainLoop : Nat → σ → Nat × σ
  | 0, s => (0, s)
  | fuel + 1, s =>
    match (R.get s).parsePacket p with
    | (none, h) => (0, R.set h s)
    | (some pkt, h) =>
      let (n, s') := drainLoop fuel (consumer pkt (R.set h s))
      (n + 1, s')

/-- The drain loop, with one pass for every byte that is available and one to find none. -/
def drain (s : σ) : Nat × σ := drainLoop R p consumer ((R.get s).dataAvailable.toNat + 1) s

/-- The loop body of `feed_data_with_recovery` for one byte: the number of bytes dropped. -/
def feedByte (byte : UInt8) (s : σ) : Nat × σ :=
  match (R.get s).tryPushByte byte with
  | (true, h) => (0, R.set h s)
  | (false, _) =>
    let (drained, s) := drain R p consumer s
    match (R.get s).tryPushByte byte with
    | (true, h) => (0, R.set h s)
    | (false, _) =>
      let s := R.set (R.get s).recordOverflow s
      -- nothing drained: the buffered bytes are given up
      let (dropped, s) :=
        if drained = 0 then ((R.get s).dataAvailable.toNat, R.set (R.get s).reset s) else (0, s)
      match (R.get s).tryPushByte byte with
      | (true, h) => (dropped, R.set h s)
      | (false, _) => (dropped + 1, s)

/-- The byte loop of `feed_data_with_recovery`. -/
def feedBytes : List UInt8 → σ → Nat × σ
  | [], s => (0, s)
  | byte :: data, s =>
    let (dropped, s) := feedByte R p consumer byte s
    let (dropped', s) := feedBytes data s
    (dropped + dropped', s)

/-- `feed_data_with_recovery`: the number of bytes dropped. -/
def feedDataWithRecovery (data : List UInt8) (s : σ) : Nat × σ :=
  let (dropped, s) := feedBytes R p consumer data s
  let (_, s) := drain R p consumer s
  (dropped, s)

-- ---------------------------------------------------------------------------
-- What the consumer does to its state
-- ---------------------------------------------------------------------------

section Rel

variable {R p consumer} {Rel : σ → σ → Prop} (hrefl : ∀ s, Rel s s)
  (htrans : ∀ {a b c}, Rel a b → Rel b c → Rel a c) (hset : ∀ h s, Rel s (R.set h s))
  (hconsumer : ∀ pkt s, Rel s (consumer pkt s))

include hrefl htrans hset hconsumer

theorem drainLoop_rel : ∀ (fuel : Nat) (s : σ), Rel s (drainLoop R p consumer fuel s).2 := by
  intro fuel
  induction fuel with
  | zero => exact hrefl
  | succ fuel ih =>
    intro s
    unfold drainLoop
    split
    · exact hset _ s
    · exact htrans (htrans (hset _ s) (hconsumer _ _)) (ih _)

theorem drain_rel (s : σ) : Rel s (drain R p consumer s).2 :=
  drainLoop_rel hrefl htrans hset hconsumer _ s

theorem feedByte_rel (byte : UInt8) (s : σ) : Rel s (feedByte R p consumer byte s).2 := by
  unfold feedByte
  split
  · exact hset _ s
  · have hdrain : Rel s (drain R p consumer s).2 := drain_rel hrefl htrans hset hconsumer s
    simp only
    split
    · exact htrans hdrain (hset _ _)
    · refine htrans hdrain (htrans (hset (R.get (drain R p consumer s).2).recordOverflow _) ?_)
      split_ifs
      · refine htrans (hset (R.get (R.set (R.get (drain R p consumer s).2).recordOverflow
          (drain R p consumer s).2)).reset _) ?_
        split
        · exact hset _ _
        · exact hrefl _
      · split
        · exact hset _ _
        · exact hrefl _

theorem feedBytes_rel : ∀ (data : List UInt8) (s : σ), Rel s (feedBytes R p consumer data s).2 := by
  intro data
  induction data with
  | nil => exact hrefl
  | cons byte data ih =>
    intro s
    exact htrans (feedByte_rel hrefl htrans hset hconsumer byte s) (ih _)

/-- **What every call of the consumer does, feeding does**: a relation that is reflexive and
transitive, and that every call of the consumer and every change of the ring satisfies. -/
theorem feedDataWithRecovery_rel (data : List UInt8) (s : σ) :
    Rel s (feedDataWithRecovery R p consumer data s).2 := by
  unfold feedDataWithRecovery
  exact htrans (feedBytes_rel hrefl htrans hset hconsumer data s)
    (drain_rel hrefl htrans hset hconsumer _)

end Rel

-- ---------------------------------------------------------------------------
-- The calls of the consumer
-- ---------------------------------------------------------------------------

section Map

variable {τ : Type} {R p consumer} {R' : RingAccess τ} {consumer' : Packet → τ → τ} {f : τ → σ}
  (hget : ∀ t, R'.get t = R.get (f t)) (hset : ∀ h t, f (R'.set h t) = R.set h (f t))
  (hconsumer : ∀ pkt t, f (consumer' pkt t) = consumer pkt (f t))

include hget hset hconsumer

theorem drainLoop_map : ∀ (fuel : Nat) (t : τ),
    (drainLoop R' p consumer' fuel t).1 = (drainLoop R p consumer fuel (f t)).1 ∧
      f (drainLoop R' p consumer' fuel t).2 = (drainLoop R p consumer fuel (f t)).2 := by
  intro fuel
  induction fuel with
  | zero => exact fun _ => ⟨rfl, rfl⟩
  | succ fuel ih =>
    intro t
    unfold drainLoop
    rw [hget]
    split
    · exact ⟨rfl, hset _ t⟩
    · next pkt h _ =>
      obtain ⟨hcount, hstate⟩ := ih (consumer' pkt (R'.set h t))
      rw [hconsumer, hset] at hcount hstate
      exact ⟨congrArg (· + 1) hcount, hstate⟩

theorem drain_map (t : τ) : (drain R' p consumer' t).1 = (drain R p consumer (f t)).1 ∧
    f (drain R' p consumer' t).2 = (drain R p consumer (f t)).2 := by
  unfold drain
  rw [hget]
  exact drainLoop_map hget hset hconsumer _ t

theorem feedByte_map (byte : UInt8) (t : τ) :
    f (feedByte R' p consumer' byte t).2 = (feedByte R p consumer byte (f t)).2 := by
  obtain ⟨hcount, hstate⟩ := drain_map (p := p) hget hset hconsumer t
  unfold feedByte
  simp only [hget, hcount, hstate, hset]
  split
  · exact hset _ _
  · split
    · rw [hset, hstate]
    · split_ifs
      · simp only [hset, hstate]
        split <;> simp only [hset, hstate]
      · simp only [hset, hstate]
        split <;> simp only [hset, hstate]

theorem feedBytes_map : ∀ (data : List UInt8) (t : τ),
    f (feedBytes R' p consumer' data t).2 = (feedBytes R p consumer data (f t)).2 := by
  intro data
  induction data with
  | nil => exact fun _ => rfl
  | cons byte data ih =>
    intro t
    unfold feedBytes
    simp only
    rw [ih, feedByte_map hget hset hconsumer]

theorem feedDataWithRecovery_map (data : List UInt8) (t : τ) :
    f (feedDataWithRecovery R' p consumer' data t).2 =
      (feedDataWithRecovery R p consumer data (f t)).2 := by
  unfold feedDataWithRecovery
  simp only
  rw [(drain_map hget hset hconsumer _).2, feedBytes_map hget hset hconsumer]

end Map

/-- The state with a record of the calls of the consumer, newest first. -/
def RingAccess.recorded : RingAccess (σ × List (Packet × σ)) where
  get t := R.get t.1
  set h t := (R.set h t.1, t.2)

def recordedConsumer (pkt : Packet) (t : σ × List (Packet × σ)) : σ × List (Packet × σ) :=
  (consumer pkt t.1, (pkt, t.1) :: t.2)

/-- The packets that feeding hands to the consumer, each with the state in which it does. -/
def consumerCalls (data : List UInt8) (s : σ) : List (Packet × σ) :=
  (feedDataWithRecovery R.recorded p (recordedConsumer consumer) data (s, [])).2.2

/-- Recording changes nothing. -/
theorem recorded_state (data : List UInt8) (s : σ) :
    (feedDataWithRecovery R.recorded p (recordedConsumer consumer) data (s, [])).2.1 =
      (feedDataWithRecovery R p consumer data s).2 :=
  feedDataWithRecovery_map (f := Prod.fst) (fun _ => rfl) (fun _ _ => rfl) (fun _ _ => rfl)
    data (s, [])

/-- The record has grown, and if its new entries do what they should, so did the state. -/
def RecordedRel (Rel : σ → σ → Prop) (t t' : σ × List (Packet × σ)) : Prop :=
  ∃ new, t'.2 = new ++ t.2 ∧ ((∀ c ∈ new, Rel c.2 (consumer c.1 c.2)) → Rel t.1 t'.1)

/-- The record has grown, and what held before or one of its new entries brought about holds. -/
def RecordedKeeps (J : σ → Prop) (t t' : σ × List (Packet × σ)) : Prop :=
  ∃ new, t'.2 = new ++ t.2 ∧ (J t.1 → J t'.1) ∧ ∀ c ∈ new, J (consumer c.1 c.2) → J t'.1

/-- **What the calls that are made do, feeding does.** -/
theorem feedDataWithRecovery_rel_of_calls {R p consumer} {Rel : σ → σ → Prop}
    (hrefl : ∀ s, Rel s s) (htrans : ∀ {a b c}, Rel a b → Rel b c → Rel a c)
    (hset : ∀ h s, Rel s (R.set h s)) {data : List UInt8} {s : σ}
    (hcalls : ∀ c ∈ consumerCalls R p consumer data s, Rel c.2 (consumer c.1 c.2)) :
    Rel s (feedDataWithRecovery R p consumer data s).2 := by
  have hrecord : RecordedRel consumer Rel (s, [])
      (feedDataWithRecovery R.recorded p (recordedConsumer consumer) data (s, [])).2 := by
    refine feedDataWithRecovery_rel (fun t => ⟨[], rfl, fun _ => hrefl _⟩) ?_
      (fun h t => ⟨[], rfl, fun _ => hset h _⟩)
      (fun pkt t => ⟨[(pkt, t.1)], rfl, fun h => h _ (List.mem_singleton_self _)⟩) data (s, [])
    rintro a b c ⟨new, hb, hab⟩ ⟨new', hc, hbc⟩
    refine ⟨new' ++ new, by rw [hc, hb, List.append_assoc], fun h => ?_⟩
    exact htrans (hab fun c hc => h c (List.mem_append_right _ hc))
      (hbc fun c hc => h c (List.mem_append_left _ hc))
  obtain ⟨new, hnew, hrel⟩ := hrecord
  rw [List.append_nil] at hnew
  rw [← recorded_state]
  exact hrel fun c hc => hcalls c (by rw [consumerCalls, hnew]; exact hc)

/-- **What one call brings about and nothing undoes, holds after feeding.** -/
theorem feedDataWithRecovery_of_call {R p consumer} {J : σ → Prop}
    (hset : ∀ h s, J s → J (R.set h s)) (hconsumer : ∀ pkt s, J s → J (consumer pkt s))
    {data : List UInt8} {s : σ} {c : Packet × σ}
    (hc : c ∈ consumerCalls R p consumer data s) (hJ : J (consumer c.1 c.2)) :
    J (feedDataWithRecovery R p consumer data s).2 := by
  have hrecord : RecordedKeeps consumer J (s, [])
      (feedDataWithRecovery R.recorded p (recordedConsumer consumer) data (s, [])).2 := by
    refine feedDataWithRecovery_rel (fun t => ⟨[], rfl, id, nofun⟩) ?_
      (fun h t => ⟨[], rfl, hset h _, nofun⟩)
      (fun pkt t => ⟨[(pkt, t.1)], rfl, hconsumer pkt _, ?_⟩) data (s, [])
    · rintro a b c ⟨new, hb, hab, hnew⟩ ⟨new', hc, hbc, hnew'⟩
      refine ⟨new' ++ new, by rw [hc, hb, List.append_assoc], hbc ∘ hab, fun d hd hJ => ?_⟩
      rcases List.mem_append.mp hd with hd | hd
      · exact hnew' d hd hJ
      · exact hbc (hnew d hd hJ)
    · intro d hd hJ
      rw [List.mem_singleton.mp hd] at hJ
      exact hJ
  obtain ⟨new, hnew, -, hall⟩ := hrecord
  rw [List.append_nil] at hnew
  rw [← recorded_state]
  exact hall c (by rw [← hnew]; exact hc) hJ

end Feed

end AutoSerialBridge
