import AutoSerialBridge.Wire.RingQueue

/-!
# Auto Serial Bridge — the receive path against a reference scan

`feed_data_with_recovery` pushes byte by byte, drains when the ring is full and once more at the
end. Here its consumer only collects the packets (`Receiver`), and the whole path is compared with
one scan of the unbounded byte stream.

`referenceVerdict` is the abstract decision: at a position where `H1 H2 id len` announces a message
of the protocol, wait for the frame, take it if its checksum matches, and otherwise move on by one
byte. The code's own verdict has two more reasons to move on (the frame would not fit the ring, or
is longer than `MAX_PACKET_PAYLOAD_SIZE`); on a protocol that `Fits` they never apply to an
announced message.

## Results

* `feedDataWithRecovery_spec` — one call, in terms of the scanner; nothing is dropped.
* `frameVerdict_eq_reference` — the code's verdict is the reference verdict when `Fits`.
* `decodesLikeReference_iff` — the receive path agrees with the reference scan on every stream and
  every chunking exactly when the protocol fits and the ring's size computation did not wrap.
-/

namespace AutoSerialBridge

open Lib PacketHandler

/-- A handler with a consumer that keeps the packets it is given. -/
structure Receiver where
  handler : PacketHandler
  packets : List Packet

namespace Receiver

def access : RingAccess Receiver where
  get := Receiver.handler
  set h r := { r with handler := h }

def consume (pkt : Packet) (r : Receiver) : Receiver := { r with packets := r.packets ++ [pkt] }

/-- One call of `feed_data_with_recovery`. -/
def feed (p : Protocol) (data : List UInt8) (r : Receiver) : Nat × Receiver :=
  feedDataWithRecovery access p consume data r

/-- Successive calls, with what each of them returned. -/
def feedCalls (p : Protocol) : List (List UInt8) → Receiver → List Nat × Receiver
  | [], r => ([], r)
  | data :: chunks, r =>
    let (dropped, r) := r.feed p data
    let (rest, r) := feedCalls p chunks r
    (dropped :: rest, r)

end Receiver

-- ---------------------------------------------------------------------------
-- The reference scan
-- ---------------------------------------------------------------------------

/-- The reference decision at one position of the stream. -/
def referenceVerdict (p : Protocol) : List UInt8 → Verdict Packet
  | b1 :: b2 :: id :: len :: b5 :: rest =>
    if b1 = p.frameHeader1 ∧ b2 = p.frameHeader2 ∧ len.toNat = p.expectedPayloadSize id ∧
        p.expectedPayloadSize id ≠ 0 then
      if rest.length < len.toNat then .wait
      else if checksumMatches p id len (b5 :: rest) then
        .advance (len.toNat + 5) (some ⟨id, (b5 :: rest).take len.toNat⟩)
      else .advance 1 none
    else .advance 1 none
  | _ => .wait

/-- The protocol with the two extra limits of the code out of the way. -/
private abbrev unlimited (p : Protocol) : Protocol := { p with maxPacketPayloadSize := 255 }

theorem frameVerdict_unlimited (p : Protocol) (l : List UInt8) :
    referenceVerdict p l = (frameVerdict (unlimited p) 260 l).filterMap RxEvent.packet? := by
  match l with
  | [] | [_] | [_, _] | [_, _, _] | [_, _, _, _] => rfl
  | b1 :: b2 :: id :: len :: b5 :: rest =>
    have hlen : len.toNat < 256 := len.toNat_lt
    simp only [frameVerdict, referenceVerdict]
    rw [if_neg (show ¬ 260 < len.toNat + 5 by omega), if_neg (show ¬ 255 < len.toNat by omega)]
    have hexp : (unlimited p).expectedPayloadSize id = p.expectedPayloadSize id := rfl
    have hcs : checksumMatches (unlimited p) id len (b5 :: rest) =
        checksumMatches p id len (b5 :: rest) := rfl
    rw [hexp, hcs]
    by_cases h1 : b1 ≠ p.frameHeader1 ∨ b2 ≠ p.frameHeader2
    · rw [if_pos h1, if_neg (by tauto)]
      rfl
    · rw [if_neg h1]
      by_cases h4 : p.expectedPayloadSize id = 0 ∨ len.toNat ≠ p.expectedPayloadSize id
      · rw [if_pos h4, if_neg (by tauto)]
        rfl
      · rw [if_neg h4, if_pos (by tauto)]
        split_ifs <;> rfl

/-- The reference scan as a streaming scanner. -/
def referenceScanner (p : Protocol) : Scanner UInt8 Packet where
  verdict := referenceVerdict p
  pos h := ((frameScanner (unlimited p) 260).filterMap RxEvent.packet?).pos
    ((frameVerdict_unlimited p _).symm.trans h)
  le_length h := ((frameScanner (unlimited p) 260).filterMap RxEvent.packet?).le_length
    ((frameVerdict_unlimited p _).symm.trans h)
  stable m h := (frameVerdict_unlimited p _).trans
    (((frameScanner (unlimited p) 260).filterMap RxEvent.packet?).stable m
      ((frameVerdict_unlimited p _).symm.trans h))

/-- The reference scan of a whole stream: the packets, and the residue. -/
def referenceScan (p : Protocol) (stream : List UInt8) : List Packet × List UInt8 :=
  (referenceScanner p).scan stream

/-- **The two extra limits never apply to an announced message of a protocol that fits.** -/
theorem frameVerdict_eq_reference {p : Protocol} (hfits : p.Fits) {room : Nat}
    (hroom : p.maxPacketPayloadSize + 5 ≤ room) (l : List UInt8) :
    (frameVerdict p room l).filterMap RxEvent.packet? = referenceVerdict p l := by
  match l with
  | [] | [_] | [_, _] | [_, _, _] | [_, _, _, _] => rfl
  | b1 :: b2 :: id :: len :: b5 :: rest =>
    have hle := hfits.expectedPayloadSize_le id
    simp only [frameVerdict, referenceVerdict]
    by_cases h1 : b1 ≠ p.frameHeader1 ∨ b2 ≠ p.frameHeader2
    · rw [if_pos h1, if_neg (by tauto)]
      rfl
    · rw [if_neg h1]
      by_cases h4 : p.expectedPayloadSize id = 0 ∨ len.toNat ≠ p.expectedPayloadSize id
      · -- whichever limit is checked first, the byte is skipped
        rw [if_pos h4, ite_self, ite_self, if_neg (by tauto)]
        rfl
      · have hann : b1 = p.frameHeader1 ∧ b2 = p.frameHeader2 ∧
            len.toNat = p.expectedPayloadSize id ∧ p.expectedPayloadSize id ≠ 0 := by tauto
        have hring : ¬ room < len.toNat + 5 := by omega
        have hmax : ¬ p.maxPacketPayloadSize < len.toNat := by omega
        rw [if_neg hring, if_neg hmax, if_neg h4, if_pos hann]
        split_ifs <;> rfl

theorem referenceScan_eq {p : Protocol} (hfits : p.Fits) {room : Nat}
    (hroom : p.maxPacketPayloadSize + 5 ≤ room) (l : List UInt8) :
    referenceScan p l = (((frameScanner p room).scan l).1.filterMap RxEvent.packet?,
      ((frameScanner p room).scan l).2) := by
  rw [← Scanner.scan_filterMap]
  exact Scanner.scan_congr (fun m => (frameVerdict_eq_reference hfits hroom m).symm) l

-- ---------------------------------------------------------------------------
-- Frames
-- ---------------------------------------------------------------------------

theorem checksumMatches_frame (p : Protocol) (id : UInt8) (payload : List UInt8)
    (hlen : payload.length ≤ 255) (rest : List UInt8) :
    checksumMatches p id (UInt8.ofNat payload.length)
      (payload ++ calculateChecksum p.checksumAlgo (id :: UInt8.ofNat payload.length :: payload) ::
        rest) = true := by
  have hn : (UInt8.ofNat payload.length).toNat = payload.length := by
    rw [UInt8.toNat_ofNat']
    omega
  rw [checksumMatches, hn, List.take_left', List.getD_eq_getElem?_getD,
    List.getElem?_append_right (Nat.le_refl _), Nat.sub_self]
  · cases p.checksumAlgo <;> simp
  · rfl

/-- At the head of a well-formed frame the code takes the packet. -/
theorem frameVerdict_frame {p : Protocol} {room : Nat} {id : UInt8} {payload : List UInt8}
    (hexp : payload.length = p.expectedPayloadSize id) (hpos : 0 < payload.length)
    (hmax : payload.length ≤ p.maxPacketPayloadSize) (hmax255 : p.maxPacketPayloadSize ≤ 255)
    (hroom : p.maxPacketPayloadSize + 5 ≤ room) (rest : List UInt8) :
    frameVerdict p room (frame p id payload ++ rest) =
      .advance (payload.length + 5) (some (.packet ⟨id, payload⟩)) := by
  obtain ⟨b5, tail, rfl⟩ := List.exists_cons_of_length_pos hpos
  have hn : (UInt8.ofNat (b5 :: tail).length).toNat = (b5 :: tail).length := by
    rw [UInt8.toNat_ofNat']
    omega
  have hcs := checksumMatches_frame p id (b5 :: tail) (by omega) rest
  simp only [frame, List.cons_append, List.append_assoc, List.nil_append] at hcs ⊢
  simp only [frameVerdict]
  have htake : (b5 :: (tail ++ calculateChecksum p.checksumAlgo
      (id :: UInt8.ofNat (b5 :: tail).length :: b5 :: tail) :: rest)).take (b5 :: tail).length =
        b5 :: tail := List.take_left' rfl
  have hann : ¬ (p.expectedPayloadSize id = 0 ∨
      (b5 :: tail).length ≠ p.expectedPayloadSize id) := by omega
  rw [hcs, hn, htake, if_neg (by simp), if_neg (by omega), if_neg (by omega), if_neg hann,
    if_neg (by simp), if_pos rfl]

/-- At the head of a well-formed frame the reference takes the packet, whatever the limits. -/
theorem referenceVerdict_frame {p : Protocol} {id : UInt8} {payload : List UInt8}
    (hexp : payload.length = p.expectedPayloadSize id) (hpos : 0 < payload.length)
    (hlen : payload.length ≤ 255) (rest : List UInt8) :
    referenceVerdict p (frame p id payload ++ rest) =
      .advance (payload.length + 5) (some ⟨id, payload⟩) := by
  have hv : frameVerdict (unlimited p) 260 (frame (unlimited p) id payload ++ rest) =
      .advance (payload.length + 5) (some (.packet ⟨id, payload⟩)) :=
    frameVerdict_frame (p := unlimited p) hexp hpos hlen (Nat.le_refl _) (Nat.le_refl _) rest
  rw [frameVerdict_unlimited, show frame p id payload = frame (unlimited p) id payload from rfl, hv]
  rfl

/-- A sequence of well-formed frames is taken frame by frame, to the last byte. -/
theorem steps_frames {p : Protocol} {room : Nat} (hmax255 : p.maxPacketPayloadSize ≤ 255)
    (hroom : p.maxPacketPayloadSize + 5 ≤ room) : ∀ (pkts : List Packet),
    (∀ pkt ∈ pkts, 0 < pkt.payload.length ∧
      pkt.payload.length = p.expectedPayloadSize pkt.id ∧
      pkt.payload.length ≤ p.maxPacketPayloadSize) →
    (frameScanner p room).Steps (pkts.flatMap fun pkt => frame p pkt.id pkt.payload)
      (pkts.map .packet) [] := by
  intro pkts
  induction pkts with
  | nil => exact fun _ => Scanner.Steps.refl _
  | cons pkt pkts ih =>
    intro hall
    obtain ⟨hpos, hexp, hmax⟩ := hall pkt List.mem_cons_self
    have hv := frameVerdict_frame hexp hpos hmax hmax255 hroom
      (pkts.flatMap fun pkt => frame p pkt.id pkt.payload)
    have hone := Scanner.Steps.single (S := frameScanner p room) hv
    rw [List.drop_left' (by simp)] at hone
    exact hone.trans (ih fun pkt hpkt => hall pkt (List.mem_cons_of_mem _ hpkt))

/-- The code never takes a packet above `MAX_PACKET_PAYLOAD_SIZE`. -/
theorem packet_length_le {p : Protocol} {room : Nat} {l r : List UInt8} {es : List RxEvent}
    (h : (frameScanner p room).Steps l es r) :
    ∀ pkt, RxEvent.packet pkt ∈ es → pkt.payload.length ≤ p.maxPacketPayloadSize := by
  intro pkt hpkt
  refine h.forall_report (P := fun e => ∀ pkt, e = .packet pkt →
    pkt.payload.length ≤ p.maxPacketPayloadSize) ?_ _ hpkt pkt rfl
  rintro l n _ hv pkt rfl
  change frameVerdict p room l = _ at hv
  match l with
  | [] | [_] | [_, _] | [_, _, _] | [_, _, _, _] => simp [frameVerdict] at hv
  | b1 :: b2 :: id :: len :: b5 :: rest =>
    simp only [frameVerdict] at hv
    split_ifs at hv with h1 h2 h3 h4 h5 h6
    · simp at hv
    · simp at hv
    · simp at hv
    · simp at hv
    · injection hv with _ hout
      injection hout with hevent
      injection hevent with hpkt
      rw [← hpkt]
      have := List.length_take_le len.toNat (b5 :: rest)
      show ((b5 :: rest).take len.toNat).length ≤ _
      omega
    · simp at hv

-- ---------------------------------------------------------------------------
-- One call of feed_data_with_recovery
-- ---------------------------------------------------------------------------

/-- The effect of feeding `input`: the scanner has run on the old queue followed by the input. -/
structure Feeds (p : Protocol) (h h' : PacketHandler) (input : List UInt8) (es : List RxEvent) :
    Prop where
  inv : h'.Inv
  capacity_eq : h'.capacity = h.capacity
  overflow_eq : h'.overflowCount = h.overflowCount
  crc_eq : h'.crcErrorCount = h.crcErrorCount + UInt32.ofNat (es.count .crcError)
  steps : (frameScanner p (h.capacity.toNat - 1)).Steps (h.queue ++ input) es h'.queue

theorem PacketHandler.Scans.feeds {p : Protocol} {h h' : PacketHandler} {es : List RxEvent}
    (hs : Scans p h h' es) : Feeds p h h' [] es :=
  ⟨hs.inv, hs.capacity_eq, hs.overflow_eq, hs.crc_eq, by rw [List.append_nil]; exact hs.steps⟩

theorem Feeds.trans {p : Protocol} {h₁ h₂ h₃ : PacketHandler} {a b : List UInt8}
    {es fs : List RxEvent} (h12 : Feeds p h₁ h₂ a es) (h23 : Feeds p h₂ h₃ b fs) :
    Feeds p h₁ h₃ (a ++ b) (es ++ fs) := by
  refine ⟨h23.inv, h23.capacity_eq.trans h12.capacity_eq, h23.overflow_eq.trans h12.overflow_eq,
    ?_, ?_⟩
  · rw [h23.crc_eq, h12.crc_eq, List.count_append, UInt32.ofNat_add, UInt32.add_assoc]
  · have hs := h23.steps
    rw [h12.capacity_eq] at hs
    rw [← List.append_assoc]
    exact (h12.steps.append b).trans hs

/-- Pushing a byte for which there is room. -/
theorem Feeds.push {p : Protocol} {h : PacketHandler} (hi : h.Inv)
    (hroom : h.queue.length < h.capacity.toNat - 1) (b : UInt8) :
    ∃ h', h.tryPushByte b = (true, h') ∧ Feeds p h h' [b] [] := by
  obtain ⟨h', hpush, hi', hq, hcap, hov, hcrc, -⟩ := tryPushByte_room hi hroom b
  refine ⟨h', hpush, hi', hcap, hov, by simp [hcrc], ?_⟩
  rw [hq]
  exact Scanner.Steps.refl _

/-- The packets among the events of a scan. -/
abbrev packetsOf (es : List RxEvent) : List Packet := es.filterMap RxEvent.packet?

namespace Receiver

variable {p : Protocol}

/-- Draining hands every packet of the scan to the consumer and stops where the scanner waits. -/
theorem drainLoop_spec : ∀ {fuel : Nat} {r : Receiver}, r.handler.Inv →
    r.handler.queue.length < fuel → ∃ n es h',
      drainLoop access p consume fuel r = (n, ⟨h', r.packets ++ packetsOf es⟩) ∧
      Scans p r.handler h' es ∧ frameVerdict p (h'.capacity.toNat - 1) h'.queue = .wait := by
  intro fuel
  induction fuel with
  | zero =>
    intro r _ hlt
    omega
  | succ fuel ih =>
    intro r hi hlt
    have hparse := parsePacket_spec (p := p) hi
    rw [drainLoop]
    cases hr : (access.get r).parsePacket p with
    | mk res h₁ =>
      rw [show r.handler.parsePacket p = (res, h₁) from hr] at hparse
      cases res with
      | none =>
        obtain ⟨es, hscan, hnone, hwait⟩ := hparse
        refine ⟨0, es, h₁, ?_, hscan, hwait⟩
        rw [packetsOf, hnone, List.append_nil]
        rfl
      | some pkt =>
        obtain ⟨es, hscan, hsome, hlt'⟩ := hparse
        have hnext := ih (r := ⟨h₁, r.packets ++ [pkt]⟩) hscan.inv
          (show h₁.queue.length < fuel by omega)
        obtain ⟨n, fs, h₂, hrun, hscan', hwait⟩ := hnext
        refine ⟨n + 1, es ++ fs, h₂, ?_, hscan.trans hscan', hwait⟩
        have hcons : consume pkt (access.set h₁ r) = ⟨h₁, r.packets ++ [pkt]⟩ := rfl
        simp only [hcons, hrun]
        rw [packetsOf, packetsOf, List.filterMap_append, hsome, List.append_assoc]

theorem drain_spec {r : Receiver} (hi : r.handler.Inv) : ∃ n es h',
    drain access p consume r = (n, ⟨h', r.packets ++ packetsOf es⟩) ∧
    Scans p r.handler h' es ∧ frameVerdict p (h'.capacity.toNat - 1) h'.queue = .wait :=
  drainLoop_spec hi (by rw [queue_length]; exact Nat.lt_succ_self _)

/-- One byte: it is pushed, after a drain when the ring is full. A full ring never waits, so the
drain frees a cell and the recovery branch is not reached. -/
theorem feedByte_spec {r : Receiver} (hi : r.handler.Inv)
    (hcap : 5 ≤ r.handler.capacity.toNat - 1) (b : UInt8) : ∃ es h',
      feedByte access p consume b r = (0, ⟨h', r.packets ++ packetsOf es⟩) ∧
      Feeds p r.handler h' [b] es := by
  have hlt := hi.dataAvailable_lt
  rw [← queue_length] at hlt
  rcases Nat.lt_or_ge r.handler.queue.length (r.handler.capacity.toNat - 1) with hroom | hfull
  · obtain ⟨h', hpush, hfeeds⟩ := Feeds.push (p := p) hi hroom b
    refine ⟨[], h', ?_, hfeeds⟩
    rw [feedByte, show (access.get r).tryPushByte b = (true, h') from hpush]
    simp [access]
  · have hfull' : r.handler.queue.length = r.handler.capacity.toNat - 1 := by omega
    obtain ⟨n, es, h₁, hdrain, hscan, hwait⟩ := drain_spec (p := p) hi
    have hless : h₁.queue.length < r.handler.queue.length := by
      rw [hscan.capacity_eq] at hwait
      exact hscan.steps.length_lt (frameVerdict_full hcap hfull') hwait
    have hroom : h₁.queue.length < h₁.capacity.toNat - 1 := by
      rw [hscan.capacity_eq]
      omega
    obtain ⟨h₂, hpush, hfeeds⟩ := Feeds.push (p := p) hscan.inv hroom b
    refine ⟨es, h₂, ?_, by simpa using hscan.feeds.trans hfeeds⟩
    rw [feedByte,
      show (access.get r).tryPushByte b = (false, r.handler) from tryPushByte_full hi hfull' b]
    simp only [hdrain]
    rw [show (access.get ⟨h₁, r.packets ++ packetsOf es⟩).tryPushByte b = (true, h₂) from hpush]
    rfl

theorem feedBytes_spec : ∀ (data : List UInt8) {r : Receiver}, r.handler.Inv →
    5 ≤ r.handler.capacity.toNat - 1 → ∃ es h',
      feedBytes access p consume data r = (0, ⟨h', r.packets ++ packetsOf es⟩) ∧
      Feeds p r.handler h' data es := by
  intro data
  induction data with
  | nil =>
    intro r hi _
    exact ⟨[], r.handler, by simp [feedBytes], (Scans.refl hi).feeds⟩
  | cons b data ih =>
    intro r hi hcap
    obtain ⟨es, h₁, hbyte, hfeeds⟩ := feedByte_spec (p := p) hi hcap b
    obtain ⟨fs, h₂, hrest, hfeeds'⟩ := ih (r := ⟨h₁, r.packets ++ packetsOf es⟩) hfeeds.inv
      (by rw [hfeeds.capacity_eq]; exact hcap)
    refine ⟨es ++ fs, h₂, ?_, by simpa using hfeeds.trans hfeeds'⟩
    simp only [feedBytes, hbyte, hrest]
    rw [packetsOf, packetsOf, packetsOf, List.filterMap_append, List.append_assoc]

/-- **One call of `feed_data_with_recovery`.** Nothing is dropped, the overflow counter does not
move, and the packets handed over are those of the scan. -/
theorem feedDataWithRecovery_spec {r : Receiver} (hi : r.handler.Inv)
    (hcap : 5 ≤ r.handler.capacity.toNat - 1) (data : List UInt8) : ∃ es h',
      r.feed p data = (0, ⟨h', r.packets ++ packetsOf es⟩) ∧ Feeds p r.handler h' data es ∧
      frameVerdict p (h'.capacity.toNat - 1) h'.queue = .wait := by
  obtain ⟨es, h₁, hbytes, hfeeds⟩ := feedBytes_spec (p := p) data hi hcap
  obtain ⟨n, fs, h₂, hdrain, hscan, hwait⟩ :=
    drain_spec (p := p) (r := ⟨h₁, r.packets ++ packetsOf es⟩) hfeeds.inv
  refine ⟨es ++ fs, h₂, ?_, by simpa using hfeeds.trans hscan.feeds, hwait⟩
  rw [feed, feedDataWithRecovery]
  simp only [hbytes, hdrain]
  rw [packetsOf, packetsOf, packetsOf, List.filterMap_append, List.append_assoc]

/-- Successive calls do what one call with the whole input does. -/
theorem feedCalls_spec : ∀ (chunks : List (List UInt8)) {r : Receiver}, r.handler.Inv →
    5 ≤ r.handler.capacity.toNat - 1 →
    frameVerdict p (r.handler.capacity.toNat - 1) r.handler.queue = .wait → ∃ es h',
      (r.feedCalls p chunks).2 = ⟨h', r.packets ++ packetsOf es⟩ ∧
      (∀ dropped ∈ (r.feedCalls p chunks).1, dropped = 0) ∧
      Feeds p r.handler h' chunks.flatten es ∧
      frameVerdict p (h'.capacity.toNat - 1) h'.queue = .wait := by
  intro chunks
  induction chunks with
  | nil =>
    intro r hi _ hwait
    exact ⟨[], r.handler, by simp [feedCalls], by simp [feedCalls], (Scans.refl hi).feeds, hwait⟩
  | cons data chunks ih =>
    intro r hi hcap _
    obtain ⟨es, h₁, hfeed, hfeeds, hwait⟩ := feedDataWithRecovery_spec (p := p) hi hcap data
    obtain ⟨fs, h₂, hrest, hdrop, hfeeds', hwait'⟩ := ih (r := ⟨h₁, r.packets ++ packetsOf es⟩)
      hfeeds.inv (by rw [hfeeds.capacity_eq]; exact hcap) hwait
    refine ⟨es ++ fs, h₂, ?_, ?_, hfeeds.trans hfeeds', hwait'⟩
    · simp only [feedCalls, hfeed, hrest]
      rw [packetsOf, packetsOf, packetsOf, List.filterMap_append, List.append_assoc]
    · simpa only [feedCalls, hfeed, List.forall_mem_cons, true_and] using hdrop

end Receiver

-- ---------------------------------------------------------------------------
-- Agreement with the reference scan
-- ---------------------------------------------------------------------------

/-- The receive path decodes every stream, however it is cut into calls, as the reference scan
does: no call drops a byte or counts an overflow, the packets are the reference packets and the
ring holds the residue. -/
def DecodesLikeReference (p : Protocol) (h : PacketHandler) : Prop :=
  ∀ chunks : List (List UInt8),
    (∀ dropped ∈ (Receiver.feedCalls p chunks ⟨h, []⟩).1, dropped = 0) ∧
    (Receiver.feedCalls p chunks ⟨h, []⟩).2.handler.overflowCount = h.overflowCount ∧
    (Receiver.feedCalls p chunks ⟨h, []⟩).2.packets = (referenceScan p chunks.flatten).1 ∧
    (Receiver.feedCalls p chunks ⟨h, []⟩).2.handler.queue = (referenceScan p chunks.flatten).2

section Agreement

variable {p : Protocol} {h : PacketHandler}

/-- The ring of a fresh handler holds the largest frame, unless `buffer_size + 1` wraps. -/
theorem room_of_builtWith (hwf : p.WellFormed) (hbuilt : h.BuiltWith p.bufferSize)
    (hwrap : p.bufferSize ≠ 0xFFFFFFFFFFFFFFFF) :
    p.maxPacketPayloadSize + 5 ≤ h.capacity.toNat - 1 := by
  obtain ⟨-, h₀, hnew, hcap⟩ := hbuilt
  obtain ⟨-, -, hle, -⟩ := new_spec hnew
  rw [← hcap] at hle
  have hbuf := hwf.buffer_le
  have hlt := p.bufferSize.toNat_lt
  have hne : p.bufferSize.toNat ≠ 2 ^ 64 - 1 := fun heq => hwrap (UInt64.toNat_inj.mp heq)
  rw [UInt64.le_iff_toNat_le, UInt64.toNat_add, show (1 : UInt64).toNat = 1 from rfl,
    Nat.mod_eq_of_lt (by omega)] at hle
  omega

/-- A handler whose size computation wrapped has a ring of one cell, which holds nothing. -/
structure OneCell (h : PacketHandler) : Prop where
  head : h.head = 0
  tail : h.tail = 0
  mask : h.mask = 0

theorem OneCell.of_wrap (hbuilt : h.BuiltWith 0xFFFFFFFFFFFFFFFF) : OneCell h := by
  obtain ⟨hi, h₀, hnew, hcap⟩ := hbuilt
  have hone : h₀.capacity = 1 := by
    rw [PacketHandler.new, show nextPowerOfTwo (0xFFFFFFFFFFFFFFFF + 1) = some 1 by decide] at hnew
    rw [← Option.some.inj hnew]
  have hhead := hi.head_lt
  have htail := hi.tail_lt
  have hmask := hi.mask_eq
  rw [hcap, hone] at hhead htail hmask
  exact ⟨UInt64.toNat_inj.mp (Nat.lt_one_iff.mp hhead),
    UInt64.toNat_inj.mp (Nat.lt_one_iff.mp htail), hmask⟩

theorem OneCell.tryPushByte (hone : OneCell h) (b : UInt8) : h.tryPushByte b = (false, h) := by
  simp [PacketHandler.tryPushByte, hone.mask, hone.tail]

theorem OneCell.drain (hone : OneCell h) (packets : List Packet) :
    drain Receiver.access p Receiver.consume ⟨h, packets⟩ = (0, ⟨h, packets⟩) := by
  simp [AutoSerialBridge.drain, drainLoop, Receiver.access, parsePacket, parseLoop, dataAvailable,
    hone.mask]

/-- Every byte is dropped, and nothing reaches the consumer. -/
theorem OneCell.feedByte (hone : OneCell h) (packets : List Packet) (b : UInt8) :
    ∃ h', OneCell h' ∧
      feedByte Receiver.access p Receiver.consume b ⟨h, packets⟩ = (1, ⟨h', packets⟩) := by
  have hreset : OneCell h.recordOverflow.reset := ⟨rfl, rfl, hone.mask⟩
  refine ⟨h.recordOverflow.reset, hreset, ?_⟩
  have hpush := hone.tryPushByte b
  have hdrain := hone.drain (p := p) packets
  have hpush' := hreset.tryPushByte b
  have hempty : h.recordOverflow.dataAvailable.toNat = 0 := by
    simp [recordOverflow, dataAvailable, hone.mask]
  simp only [AutoSerialBridge.feedByte, Receiver.access] at hdrain ⊢
  simp only [hpush, hdrain, hpush', hempty, if_true]

theorem OneCell.feedBytes : ∀ (data : List UInt8) {h : PacketHandler} (packets : List Packet),
    OneCell h → ∃ h', OneCell h' ∧ feedBytes Receiver.access p Receiver.consume data
      ⟨h, packets⟩ = (data.length, ⟨h', packets⟩) := by
  intro data
  induction data with
  | nil => exact fun {h} _ hone => ⟨h, hone, rfl⟩
  | cons b data ih =>
    intro h packets hone
    obtain ⟨h₁, hone₁, hbyte⟩ := hone.feedByte (p := p) packets b
    obtain ⟨h₂, hone₂, hrest⟩ := ih packets hone₁
    refine ⟨h₂, hone₂, ?_⟩
    simp only [AutoSerialBridge.feedBytes, hbyte, hrest, List.length_cons]
    rw [Nat.add_comm]

theorem OneCell.feedCalls : ∀ (chunks : List (List UInt8)) {h : PacketHandler}
    (packets : List Packet), OneCell h →
    (Receiver.feedCalls p chunks ⟨h, packets⟩).1 = chunks.map List.length ∧
    (Receiver.feedCalls p chunks ⟨h, packets⟩).2.packets = packets := by
  intro chunks
  induction chunks with
  | nil => exact fun _ _ => ⟨rfl, rfl⟩
  | cons data chunks ih =>
    intro h packets hone
    obtain ⟨h₁, hone₁, hbytes⟩ := OneCell.feedBytes (p := p) data packets hone
    have hfeed : Receiver.feed p data ⟨h, packets⟩ = (data.length, ⟨h₁, packets⟩) := by
      simp only [Receiver.feed, feedDataWithRecovery, hbytes, hone₁.drain]
    obtain ⟨hdropped, hpackets⟩ := ih packets hone₁
    simp only [Receiver.feedCalls, hfeed, hdropped, hpackets, List.map_cons, and_self]

/-- **Agreement.** The receive path of an empty handler agrees with the reference scan exactly when
every message fits the compiled payload limit and the ring's size did not wrap. -/
theorem decodesLikeReference_iff (hwf : p.WellFormed) (hbuilt : h.BuiltWith p.bufferSize)
    (hempty : h.queue = []) :
    DecodesLikeReference p h ↔ p.Fits ∧ p.bufferSize ≠ 0xFFFFFFFFFFFFFFFF := by
  have hi := hbuilt.1
  have hwait : frameVerdict p (h.capacity.toNat - 1) h.queue = .wait := by
    rw [hempty]
    rfl
  constructor
  · intro hdec
    have hwrap : p.bufferSize ≠ 0xFFFFFFFFFFFFFFFF := by
      intro heq
      rw [heq] at hbuilt
      have hzero := (hdec [[0]]).1
      rw [(OneCell.feedCalls _ _ (OneCell.of_wrap hbuilt)).1] at hzero
      exact absurd (hzero 1 (List.mem_singleton_self 1)) (by decide)
    refine ⟨?_, hwrap⟩
    have hroom := room_of_builtWith hwf hbuilt hwrap
    have hcap : 5 ≤ h.capacity.toNat - 1 := by omega
    intro m hm
    -- feed one frame of `m`: the reference takes it, the code only if it is within the limit
    set payload : List UInt8 := List.replicate m.wireSize 0 with hpay
    have hlen : payload.length = m.wireSize := List.length_replicate
    have hexp : payload.length = p.expectedPayloadSize m.id := by
      rw [hlen, hwf.expectedPayloadSize_eq hm]
    have hpos : 0 < payload.length := by
      rw [hlen]
      exact hwf.wireSize_pos hm
    have hle255 : payload.length ≤ 255 := by
      rw [hlen]
      exact hwf.wireSize_le m hm
    have href : referenceScan p (frame p m.id payload) = ([⟨m.id, payload⟩], []) := by
      have hv := referenceVerdict_frame hexp hpos hle255 []
      rw [List.append_nil] at hv
      have hs := Scanner.Steps.single (S := referenceScanner p) hv
      rw [List.drop_of_length_le (by simp)] at hs
      exact hs.eq_scan rfl
    obtain ⟨-, -, hpkts, -⟩ := hdec [frame p m.id payload]
    obtain ⟨es, h', hrun, -, hfeeds, -⟩ := Receiver.feedCalls_spec (p := p)
      [frame p m.id payload] (r := ⟨h, []⟩) hi hcap hwait
    rw [hrun, show [frame p m.id payload].flatten = frame p m.id payload by simp, href] at hpkts
    have hmem : RxEvent.packet ⟨m.id, payload⟩ ∈ es := by
      have : (⟨m.id, payload⟩ : Packet) ∈ packetsOf es := by
        rw [show packetsOf es = [⟨m.id, payload⟩] from hpkts]
        exact List.mem_singleton_self _
      obtain ⟨e, he, hep⟩ := List.mem_filterMap.mp this
      cases e with
      | packet pkt =>
        obtain rfl : pkt = ⟨m.id, payload⟩ := by simpa [RxEvent.packet?] using hep
        exact he
      | crcError => simp [RxEvent.packet?] at hep
    have := packet_length_le hfeeds.steps _ hmem
    rw [← hlen]
    exact this
  · rintro ⟨hfits, hwrap⟩ chunks
    have hroom := room_of_builtWith hwf hbuilt hwrap
    have hcap : 5 ≤ h.capacity.toNat - 1 := by omega
    obtain ⟨es, h', hrun, hdrop, hfeeds, hwait'⟩ := Receiver.feedCalls_spec (p := p)
      chunks (r := ⟨h, []⟩) hi hcap hwait
    have hsteps := hfeeds.steps
    rw [show (⟨h, []⟩ : Receiver).handler.queue = [] from hempty, List.nil_append] at hsteps
    have hscan : (frameScanner p (h.capacity.toNat - 1)).scan chunks.flatten = (es, h'.queue) := by
      rw [hfeeds.capacity_eq] at hwait'
      exact hsteps.eq_scan hwait'
    rw [hrun, referenceScan_eq hfits hroom, hscan]
    exact ⟨hdrop, hfeeds.overflow_eq, by simp, rfl⟩

end Agreement

end AutoSerialBridge
