import AutoSerialBridge.Controller.Order
import AutoSerialBridge.Controller.Ready

/-!
# Auto Serial Bridge — what removes a message

A message is removed by an Ack packet, while a chunk from the port is handled. To await an Ack takes the
completion of a write, which is another event: whatever a chunk removes was awaiting its Ack when the
chunk came, and the chunk holds a packet with its id and seq (`ReadEffect`).

## Results

* `readEffect_readDone` — **what a receive completion removes**.
* `step_removals` — nothing else removes a message.
-/

namespace AutoSerialBridge

open Lib Lib.Outbox

-- ---------------------------------------------------------------------------
-- Waiting for an Ack
-- ---------------------------------------------------------------------------

namespace ReliableSender

/-- The entries that await their Ack awaited it before, with the same seq. -/
def Waits (s s' : ReliableSender) : Prop :=
  ∀ key, ∀ entry ∈ s'.pending key, entry.awaitingAck = true →
    ∃ entry₀ ∈ s.pending key, entry₀.awaitingAck = true ∧ entry₀.expectedSeq = entry.expectedSeq ∧
      entry₀.number = entry.number

variable {p : Protocol} {s s' s'' : ReliableSender} {key : UInt8} {queue : List PendingEntry}

theorem Waits.refl (s : ReliableSender) : Waits s s :=
  fun _ entry hentry hawait => ⟨entry, hentry, hawait, rfl, rfl⟩

theorem Waits.trans (h : Waits s s') (h' : Waits s' s'') : Waits s s'' := by
  intro key entry hentry hawait
  obtain ⟨entry₁, hentry₁, hawait₁, hseq₁, hnumber₁⟩ := h' key entry hentry hawait
  obtain ⟨entry₀, hentry₀, hawait₀, hseq₀, hnumber₀⟩ := h key entry₁ hentry₁ hawait₁
  exact ⟨entry₀, hentry₀, hawait₀, hseq₀.trans hseq₁, hnumber₀.trans hnumber₁⟩

/-- A queue whose waiting entries are old ones. -/
theorem waits_setQueue (h : ∀ entry ∈ queue, entry.awaitingAck = true → entry ∈ s.pending key) :
    Waits s (s.setQueue key queue) := by
  intro k entry hentry hawait
  by_cases hk : k = key
  · subst hk
    rw [setQueue_pending_self] at hentry
    exact ⟨entry, h entry hentry hawait, hawait, rfl, rfl⟩
  · rw [setQueue_pending_of_ne hk] at hentry
    exact ⟨entry, hentry, hawait, rfl, rfl⟩

/-- After a failure nothing is awaited. -/
theorem waits_handleSendCompletion (s : ReliableSender) (c : SendCompletion) :
    Waits s (s.handleSendCompletion c false) := by
  unfold handleSendCompletion
  split
  · exact .refl s
  · next entry rest hq =>
    split_ifs
    · exact .refl s
    · unfold scheduleRetry
      simp only [setQueue_pending_self, setQueue_setQueue]
      refine waits_setQueue fun e he hawait => ?_
      rcases List.mem_cons.mp he with rfl | he
      · cases hawait
      · rw [hq]
        exact List.mem_cons_of_mem _ he

theorem waits_attemptSend (h : ∀ entry ∈ (s.pending key).head?, entry.awaitingAck = false) :
    Waits s (attemptSend p s key).1 := by
  cases hq : s.pending key with
  | nil =>
    unfold attemptSend
    simp only [hq]
    exact .refl s
  | cons entry rest =>
    by_cases hbusy : entry.sendInProgress = true
    · rw [attemptSend_of_busy hq hbusy]
      exact .refl s
    · rw [attemptSend_of_idle hq ((Bool.not_eq_true _).mp hbusy)]
      have hset : Waits s (s.setQueue key (entry.attempted p s.seqCounter :: rest)) := by
        refine waits_setQueue fun e he hawait => ?_
        rcases List.mem_cons.mp he with rfl | he
        · rw [PendingEntry.attempted_awaitingAck, h entry (by rw [hq]; rfl)] at hawait
          cases hawait
        · rw [hq]
          exact List.mem_cons_of_mem _ he
      exact hset

/-- The entry behind a removed one has not been attempted. -/
theorem waits_onAckReceivedImpl {outstanding : List SendCompletion} (h : SenderInv s outstanding)
    (key ackSeq : UInt8) : Waits s (onAckReceivedImpl p s key ackSeq).1 := by
  by_cases hmatch : ∃ entry rest, s.pending key = entry :: rest ∧ entry.expectedSeq = ackSeq ∧
      entry.awaitingAck = true
  · obtain ⟨entry, rest, hq, hseq, hawait⟩ := hmatch
    have hkey := h key
    rw [hq, QueueInv.cons_iff] at hkey
    have hremove : Waits s (s.removeFront key rest) := by
      have hset : Waits s (s.setQueue key rest) := by
        refine waits_setQueue fun e he _ => ?_
        rw [hq]
        exact List.mem_cons_of_mem _ he
      exact hset
    rw [onAckReceivedImpl_of_match hq hseq hawait]
    split_ifs
    · exact hremove
    · refine hremove.trans (waits_attemptSend fun e he => ?_)
      have hpending : (s.removeFront key rest).pending key = rest := setQueue_pending_self
      rw [hpending] at he
      exact (hkey.1 e (List.mem_of_mem_head? he)).awaitingAck
  · have hmis : ∀ entry ∈ (s.pending key).head?,
        entry.expectedSeq ≠ ackSeq ∨ entry.awaitingAck = false := by
      intro entry hentry
      obtain ⟨rest, hq⟩ := List.head?_eq_some_iff.mp hentry
      by_contra hboth
      rw [not_or, not_not, Bool.not_eq_false] at hboth
      exact hmatch ⟨entry, rest, hq, hboth.1, hboth.2⟩
    rw [onAckReceivedImpl_of_mismatch hmis]
    exact .refl s

end ReliableSender

-- ---------------------------------------------------------------------------
-- The core
-- ---------------------------------------------------------------------------

/-- Nothing is sent, removed or comes to await an Ack. -/
structure Calm (s s' : ControllerCore) : Prop where
  alive : s'.shuttingDown = s.shuttingDown
  order : s'.orderState = s.orderState
  waits : s.reliableSender.Waits s'.reliableSender

section Core

open ControllerCore ReliableSender

variable {p : Protocol} {s s' s'' : ControllerCore}

theorem Calm.refl (s : ControllerCore) : Calm s s := ⟨rfl, rfl, .refl _⟩

theorem Calm.trans (h : Calm s s') (h' : Calm s' s'') : Calm s s'' :=
  ⟨h'.alive.trans h.alive, h'.order.trans h.order, h.waits.trans h'.waits⟩

theorem calm_complete (request : Nat) (s : ControllerCore) : Calm s (complete request false s) := by
  refine ⟨?_, complete_orderState request false s, ?_⟩
  · unfold complete
    split <;> rfl
  · unfold complete
    split
    · exact waits_handleSendCompletion _ _
    · exact .refl _

theorem calm_failTxQueue (s : ControllerCore) : Calm s (failTxQueue s) :=
  failTxQueue_keeps (I := Calm s) (fun request s' h => h.trans (calm_complete request s'))
    (fun _ h => ⟨h.alive, h.order, h.waits⟩) (.refl s)

theorem calm_reset (halive : s.shuttingDown = false) : Calm s (reset p s) := by
  rw [reset_eq_of_alive p halive]
  have hcalm := calm_failTxQueue { s with
    isConnected := false
    connectionGeneration := s.connectionGeneration + 1 }
  exact ⟨hcalm.alive, hcalm.order, hcalm.waits⟩

theorem calm_startsNext (halive : s.shuttingDown = false) (hnext : StartsNext p s s') :
    Calm s s' := by
  cases hnext with
  | idle => exact .refl s
  | gone => exact calm_failTxQueue s
  | begin => exact ⟨rfl, rfl, .refl _⟩
  | @fails request _ port =>
    have hcalm := calm_reset (p := p) (s := handOver request port.id s) halive
    exact ⟨hcalm.alive, hcalm.order, hcalm.waits⟩

/-- An Ack removes an entry that awaits it with its seq, if anything. -/
theorem updateAcked_removals (horder : OrderInv s) {ackedId ackSeq id : UInt8} {n : Nat}
    (hmem : .removed id n ∈ (s.updateAcked p ackedId ackSeq).orderState.2) :
    .removed id n ∈ s.orderState.2 ∨ id = ackedId ∧ ∃ entry ∈ s.reliableSender.pending id,
      entry.awaitingAck = true ∧ entry.expectedSeq = ackSeq ∧ entry.number = n := by
  by_cases hmatch : ∃ entry rest, s.reliableSender.pending ackedId = entry :: rest ∧
      entry.expectedSeq = ackSeq ∧ entry.awaitingAck = true
  · obtain ⟨entry, rest, hq, hseq, hawait⟩ := hmatch
    have hnumber := horder.queues ackedId
    rw [show s.orderState.1.queue ackedId = _ from outbox_queue hq] at hnumber
    have hfront : entry.number = s.reliableSender.acked ackedId := hnumber.number_front.1
    have hhistory : (s.updateAcked p ackedId ackSeq).orderState.2 = _ :=
      updateAcked_outboxHistory ackedId ackSeq s
    rw [hhistory] at hmem
    rcases List.mem_append.mp hmem with hrequest | hmem
    · unfold requestEvents at hrequest
      obtain ⟨req, -, heq⟩ := Option.map_eq_some_iff.mp (Option.mem_toList.mp hrequest)
      cases heq
    · rcases List.mem_append.mp hmem with hremoved | hold
      · unfold removedEvents at hremoved
        split_ifs at hremoved
        · exact absurd hremoved List.not_mem_nil
        · obtain ⟨rfl, rfl⟩ := Outbox.Event.removed.inj (List.mem_singleton.mp hremoved)
          right
          refine ⟨rfl, entry, ?_, hawait, hseq, hfront⟩
          rw [hq]
          exact List.mem_cons_self
      · exact .inl hold
  · left
    have hmis : ∀ entry ∈ (s.reliableSender.pending ackedId).head?,
        entry.expectedSeq ≠ ackSeq ∨ entry.awaitingAck = false := by
      intro entry hentry
      obtain ⟨rest, hq⟩ := List.head?_eq_some_iff.mp hentry
      by_contra hboth
      rw [not_or, not_not, Bool.not_eq_false] at hboth
      exact hmatch ⟨entry, rest, hq, hboth.1, hboth.2⟩
    have hsame : s.updateAcked p ackedId ackSeq = s := by
      unfold updateAcked updateSender
      rw [onAckReceivedImpl_of_mismatch hmis]
      simp
    rw [hsame] at hmem
    exact hmem

end Core

-- ---------------------------------------------------------------------------
-- The handlers
-- ---------------------------------------------------------------------------

namespace Controller

variable {p : Protocol} {throws : Nat → Bool} {s s' : Controller}

theorem calm_resetSerial (halive : s.shuttingDown = false) :
    Calm s.toControllerCore (resetSerial p s).toControllerCore := by
  rw [resetSerial_core]
  exact calm_reset halive

theorem calm_asyncSendImpl (halive : s.shuttingDown = false) (bytes : List UInt8)
    (completion : Option SendCompletion) (origin : Option (UInt8 × Nat)) :
    Calm s.toControllerCore (asyncSendImpl p throws bytes completion origin s).toControllerCore := by
  have hsubmit : Calm s.toControllerCore (s.toControllerCore.submit bytes completion origin) :=
    ⟨rfl, rfl, .refl _⟩
  have hreject : Calm s.toControllerCore
      ((s.toControllerCore.submit bytes completion origin).reject s.nextRequest) := by
    have hnoted : Calm s.toControllerCore (ControllerCore.note (.rejected s.nextRequest)
      (s.toControllerCore.submit bytes completion origin)) := ⟨rfl, rfl, .refl _⟩
    exact hnoted.trans (calm_complete s.nextRequest _)
  unfold asyncSendImpl
  simp only
  split_ifs
  · exact hreject
  · exact hreject
  · exact hreject
  · exact hreject
  · simp only [attempt]
    cases throws (onCore (ControllerCore.submit bytes completion origin) s).attempts with
    | true =>
      rw [resetSerial_core]
      exact hreject.trans (calm_reset (hreject.alive.trans halive))
    | false =>
      have haccept : Calm s.toControllerCore
          ((s.toControllerCore.submit bytes completion origin).accept s.nextRequest) :=
        ⟨rfl, rfl, .refl _⟩
      set s₂ : Controller := onCore (ControllerCore.accept s.nextRequest)
        { onCore (ControllerCore.submit bytes completion origin) s with attempts := s.attempts + 1 }
      exact haccept.trans (calm_startsNext (s := s₂.toControllerCore) (haccept.alive.trans halive)
        (startNextWrite_spec s₂).core)

theorem calm_sendCallback (halive : s.shuttingDown = false) (req : Option SendRequest) :
    Calm s.toControllerCore (sendCallback p throws req s).toControllerCore := by
  cases req with
  | none => exact .refl _
  | some req => exact calm_asyncSendImpl halive _ _ _

theorem calm_startReceive (halive : s.shuttingDown = false) :
    Calm s.toControllerCore (startReceive p throws s).toControllerCore := by
  unfold startReceive
  split
  · exact .refl _
  · split_ifs
    · exact .refl _
    · simp only [attempt]
      cases throws s.attempts with
      | true =>
        rw [resetSerial_core, completeSerialOp_core]
        exact calm_reset halive
      | false => exact .refl _

theorem calm_handleDispatch (pkt : Packet) (s : Controller) :
    Calm s.toControllerCore (handleDispatch p pkt s).toControllerCore := by
  have hshake : Calm s.toControllerCore (processHandshake p pkt s).toControllerCore := by
    unfold processHandshake
    split_ifs
    · exact .refl _
    · split
      · exact .refl _
      · rw [publishReady_core]
        exact ⟨rfl, rfl, .refl _⟩
  unfold handleDispatch dispatchToProtocol
  simp only
  split_ifs <;> first | exact .refl _ | exact hshake

/-- What handling packets does, when `P` is what is known of the Acks among them: it removes entries that
awaited an Ack with such an id and seq, and no entry comes to await one. -/
structure ReadEffect (P : UInt8 → UInt8 → Prop) (s s' : Controller) : Prop where
  waits : s.reliableSender.Waits s'.reliableSender
  removals : ∀ id n, .removed id n ∈ s'.toControllerCore.orderState.2 →
    .removed id n ∈ s.toControllerCore.orderState.2 ∨ ∃ entry ∈ s.reliableSender.pending id,
      entry.awaitingAck = true ∧ P id entry.expectedSeq ∧ entry.number = n

section ReadEffect

variable {P : UInt8 → UInt8 → Prop} {s'' : Controller}

theorem ReadEffect.of_calm (h : Calm s.toControllerCore s'.toControllerCore) : ReadEffect P s s' :=
  ⟨h.waits, fun _ _ hmem => .inl (h.order ▸ hmem)⟩

theorem ReadEffect.trans (h : ReadEffect P s s') (h' : ReadEffect P s' s'') : ReadEffect P s s'' := by
  refine ⟨h.waits.trans h'.waits, fun id n hmem => ?_⟩
  rcases h'.removals id n hmem with hold | ⟨entry, hentry, hawait, hack, hnumber⟩
  · exact h.removals id n hold
  · obtain ⟨entry₀, hentry₀, hawait₀, hseq₀, hnumber₀⟩ := h.waits id entry hentry hawait
    rw [← hseq₀] at hack
    exact .inr ⟨entry₀, hentry₀, hawait₀, hack, hnumber₀.trans hnumber⟩

/-- A packet whose handling is known. -/
theorem readEffect_handlePacket {pkt : Packet} (hsending : SendingInv s.toControllerCore)
    (horder : OrderInv s.toControllerCore)
    (hack : pkt.id = packetIdAck → P (p.member 0 pkt).toUInt8 (p.member 1 pkt).toUInt8) :
    ReadEffect P s (handlePacket p throws pkt s) := by
  unfold handlePacket
  refine ReadEffect.trans ?_ (.of_calm (calm_handleDispatch pkt _))
  set s₁ : Controller := handleHeartbeatAck p pkt (onCore (ControllerCore.receive pkt) s) with hs₁
  have hcore : s₁.toControllerCore = s.toControllerCore.receive pkt := by
    rw [hs₁, handleHeartbeatAck]
    split_ifs <;> rfl
  have hfirst : Calm s.toControllerCore s₁.toControllerCore := by
    rw [hcore]
    exact ⟨rfl, rfl, .refl _⟩
  unfold handleAck
  split_ifs with hpkt
  · refine (ReadEffect.of_calm hfirst).trans ?_
    have hsender : SenderInv s₁.reliableSender s.outstanding := by
      show SenderInv s₁.toControllerCore.reliableSender _
      rw [hcore]
      exact hsending.sender
    have horder₁ : OrderInv s₁.toControllerCore := horder.congr hfirst.order
    unfold senderAckReceived
    simp only
    set ackedId := (p.member 0 pkt).toUInt8
    set ackSeq := (p.member 1 pkt).toUInt8
    have halive : (onCore (ControllerCore.updateAcked p ackedId ackSeq) s₁).shuttingDown = false := by
      show (s₁.toControllerCore.updateAcked p ackedId ackSeq).shuttingDown = false
      have hop : SenderOp p s₁.toControllerCore _ _ := .ack ackedId ackSeq
      exact (congrArg PortState.shuttingDown hop.portState).trans
        (hfirst.alive.trans hsending.alive)
    refine ReadEffect.trans ?_ (.of_calm (calm_sendCallback halive _))
    refine ⟨ReliableSender.waits_onAckReceivedImpl hsender ackedId ackSeq, fun id n hmem => ?_⟩
    rcases updateAcked_removals horder₁ hmem with hold | ⟨rfl, entry, hentry, hawait, hseq, hnumber⟩
    · exact .inl hold
    · rw [← hseq] at hack
      exact .inr ⟨entry, hentry, hawait, hack hpkt.1, hnumber⟩
  · exact .of_calm hfirst

/-- The invariants that hold while packets are handled. -/
def ReadInv (p : Protocol) (s : Controller) : Prop :=
  TransmitInv Allowed.all s.toControllerCore ∧ OrderedInv p s.toControllerCore

def ReadRel (p : Protocol) (P : UInt8 → UInt8 → Prop) (s s' : Controller) : Prop :=
  ReadInv p s → ReadInv p s' ∧ ReadEffect P s s'

theorem readRel_ingestReceivedBytes {data : List UInt8}
    (hack : ∀ c ∈ consumerCalls packetHandlerAccess p (handlePacket p throws) data s,
      c.1.id = packetIdAck → P (p.member 0 c.1).toUInt8 (p.member 1 c.1).toUInt8) :
    ReadRel p P s (ingestReceivedBytes p throws data s) := by
  refine feedDataWithRecovery_rel_of_calls (fun s hs => ⟨hs, .of_calm (.refl _)⟩) ?_
    (fun h s hs => ⟨hs, .of_calm (.refl _)⟩) fun c hc hs => ⟨?_, ?_⟩
  · intro a b c hab hbc ha
    obtain ⟨hb, heffect⟩ := hab ha
    obtain ⟨hc, heffect'⟩ := hbc hb
    exact ⟨hc, heffect.trans heffect'⟩
  · exact order_invariant.controller.moves hs
      (moves_handlePacket c.1 c.2 fun _ _ => trivial)
  · exact readEffect_handlePacket hs.2.sending hs.2.order (hack c hc)

/-- The Ack packets that a receive completion hands to `handle_packet`, by id and seq. -/
def AckRead (p : Protocol) (throws : Nat → Bool) (index : Nat) (data : List UInt8) (s : Controller)
    (id seq : UInt8) : Prop :=
  ∃ c ∈ packetCalls p throws index data s, c.1.id = packetIdAck ∧ (p.member 0 c.1).toUInt8 = id ∧
    (p.member 1 c.1).toUInt8 = seq

/-- **What a receive completion removes**. -/
theorem readEffect_readDone {index : Nat} {data : List UInt8}
    (hinv : ReadInv p s) (hstep : step p throws s (.readDone index .success data) = some s') :
    ReadEffect (AckRead p throws index data s) s s' ∧
      ((∃ id n, .removed id n ∈ s'.toControllerCore.orderState.2 ∧
        .removed id n ∉ s.toControllerCore.orderState.2) →
          ∃ read ∈ s.reads[index]?, s.isCurrent read.port read.generation = true) := by
  simp only [step] at hstep
  split at hstep
  · next read hread =>
    split_ifs at hstep
    obtain rfl := Option.some.inj hstep
    set s₁ : Controller := completeSerialOp { s with reads := s.reads.eraseIdx index } with hs₁
    have hcore : s₁.toControllerCore = s.toControllerCore := by
      rw [hs₁, completeSerialOp_core]
    have hcalm : Calm s.toControllerCore s₁.toControllerCore := by
      rw [hcore]
      exact .refl _
    have halive : s₁.shuttingDown = false := hcalm.alive.trans hinv.2.sending.alive
    unfold handleReceive
    simp only [← hs₁]
    split_ifs with hstale hclosed hempty
    · refine ⟨.of_calm hcalm, ?_⟩
      rintro ⟨id, n, hnew, hold⟩
      exact absurd (hcalm.order ▸ hnew) hold
    all_goals
      refine ⟨?_, fun _ => ⟨read, hread, ?_⟩⟩
      rotate_left
      · rw [hcore] at hstale
        exact (Bool.not_eq_false _).mp hstale
    · exact .of_calm (hcalm.trans (calm_resetSerial halive))
    · exact .of_calm (hcalm.trans (calm_startReceive halive))
    · have hinv₁ : ReadInv p s₁ := by
        unfold ReadInv
        rw [hcore]
        exact hinv
      obtain ⟨hinv₂, hingest⟩ := readRel_ingestReceivedBytes (P := AckRead p throws index data s)
        (fun c hc hid => ⟨c, hc, hid, rfl, rfl⟩) hinv₁
      exact ((ReadEffect.of_calm hcalm).trans hingest).trans
        (.of_calm (calm_startReceive hinv₂.2.sending.alive))
  · cases hstep

end ReadEffect

-- ---------------------------------------------------------------------------
-- The other events
-- ---------------------------------------------------------------------------

theorem calm_checkConnectionImpl (halive : s.shuttingDown = false) :
    Calm s.toControllerCore (checkConnectionImpl p throws s).toControllerCore := by
  have hreset := calm_resetSerial (p := p) halive
  unfold checkConnectionImpl
  by_cases hconn : s.isConnected = true
  · rw [if_pos hconn]
    split_ifs
    · exact .refl _
    · exact hreset
  · rw [if_neg hconn]
    simp only [attempt]
    cases throws (resetSerial p s).attempts with
    | true => exact hreset
    | false =>
      set s₁ : Controller := { onCore (ControllerCore.connect p) { resetSerial p s with
        attempts := (resetSerial p s).attempts + 1 } with shutdownRequested := false }
      have hconnect : Calm s.toControllerCore s₁.toControllerCore :=
        hreset.trans ⟨rfl, rfl, .refl _⟩
      have hready : Calm s.toControllerCore (publishReady true s₁).toControllerCore := by
        rw [publishReady_core]
        exact hconnect
      show Calm s.toControllerCore (if p.requireHandshake = true
        then sendPacket p packetIdHandshake (systemPayload p packetIdHandshake p.protocolHash)
          (startReceive p throws (if p.requireHandshake = true then s₁ else publishReady true s₁))
        else startReceive p throws
          (if p.requireHandshake = true then s₁ else publishReady true s₁)).toControllerCore
      split_ifs
      · unfold sendPacket
        rw [postSerial_core]
        exact hconnect.trans (calm_startReceive (hconnect.alive.trans halive))
      · exact hready.trans (calm_startReceive (hready.alive.trans halive))

theorem calm_handleHeartbeatTimer (halive : s.shuttingDown = false) (now : Int) :
    Calm s.toControllerCore (handleHeartbeatTimer p now s).toControllerCore := by
  unfold handleHeartbeatTimer sendHeartbeat resendHeartbeat sendPacket
  split_ifs
  · exact .refl _
  · rw [postSerial_core]
    exact .refl _
  · exact .refl _
  · rw [postSerial_core]
    exact ⟨rfl, rfl, .refl _⟩
  · exact calm_resetSerial halive
  · rw [postSerial_core]
    exact ⟨rfl, rfl, .refl _⟩
  · rw [postSerial_core]
    exact ⟨rfl, rfl, .refl _⟩

/-- A handler of the sender that removes nothing. -/
theorem removals_sendCallback {r : ReliableSender × Option SendRequest}
    (halive : s.shuttingDown = false) {id : UInt8} {n : Nat}
    (hmem : .removed id n ∈ (sendCallback p throws r.2
      (onCore (ControllerCore.updateSender r) s)).toControllerCore.orderState.2) :
    .removed id n ∈ s.toControllerCore.orderState.2 := by
  have halive₁ : (onCore (ControllerCore.updateSender r) s).shuttingDown = false := halive
  have hcalm : Calm (onCore (ControllerCore.updateSender r) s).toControllerCore
    (sendCallback p throws r.2 (onCore (ControllerCore.updateSender r) s)).toControllerCore :=
    calm_sendCallback halive₁ r.2
  rw [hcalm.order] at hmem
  have hhistory : (s.toControllerCore.updateSender r).orderState.2 = _ :=
    updateSender_outboxHistory r
  have hmem : .removed id n ∈ (s.toControllerCore.updateSender r).orderState.2 := hmem
  rw [hhistory] at hmem
  rcases List.mem_append.mp hmem with hrequest | hold
  · unfold requestEvents at hrequest
    obtain ⟨req, -, heq⟩ := Option.map_eq_some_iff.mp (Option.mem_toList.mp hrequest)
    cases heq
  · exact hold

theorem handleWrite_orderState {write : PendingWrite} {result : IoResult}
    (halive : s.shuttingDown = false) :
    (handleWrite p throws write result s).toControllerCore.orderState =
      s.toControllerCore.orderState := by
  have hcore : (completeSerialOp s).toControllerCore = s.toControllerCore := completeSerialOp_core
  unfold handleWrite
  revert hcore
  generalize completeSerialOp s = s₁
  intro hcore
  rw [← hcore] at halive ⊢
  have hnote : (ControllerCore.noteWrite write result s₁.toControllerCore).orderState =
      s₁.toControllerCore.orderState := noteWrite_orderState write result s₁.toControllerCore
  have hfinish := (finishWrite_orderState write.request (result = .success)
    (ControllerCore.noteWrite write result s₁.toControllerCore)).trans hnote
  have hfinishalive : (ControllerCore.finishWrite write.request (result = .success)
      (ControllerCore.noteWrite write result s₁.toControllerCore)).shuttingDown = false :=
    (congrArg PortState.shuttingDown ((ControllerCore.finishWrite_portState _ _).trans
      (ControllerCore.noteWrite_portState write result))).trans halive
  simp only
  split_ifs
  · exact hnote
  · cases result with
    | success =>
      set s₂ : Controller := { onCore (ControllerCore.finishWrite write.request
        (IoResult.success = IoResult.success)) (onCore (ControllerCore.noteWrite write .success) s₁) with
        txPacketCount := s₁.txPacketCount + 1 }
      have hspec : StartNext p s₂ (startNextWrite p throws s₂) := startNextWrite_spec s₂
      exact (startsNext_orderState hspec.core hfinishalive).trans hfinish
    | operationAborted => exact hfinish
    | failure =>
      show (resetSerial p _).toControllerCore.orderState = _
      rw [resetSerial_core]
      exact (reset_orderState hfinishalive).trans hfinish

/-- **Nothing else removes a message.** -/
theorem step_removals {event : ControllerEvent} (halive : s.shuttingDown = false)
    (hevent : ∀ index data, event ≠ .readDone index .success data)
    (hstep : step p throws s event = some s') {id : UInt8} {n : Nat}
    (hmem : .removed id n ∈ s'.toControllerCore.orderState.2) :
    .removed id n ∈ s.toControllerCore.orderState.2 := by
  cases event with
  | connectionTimer =>
    obtain rfl := Option.some.inj hstep
    rw [postSerial_core] at hmem
    exact hmem
  | heartbeatTimer =>
    obtain rfl := Option.some.inj hstep
    rw [postSerial_core] at hmem
    exact hmem
  | sendPacket id data =>
    obtain rfl := Option.some.inj hstep
    unfold sendPacket at hmem
    rw [postSerial_core] at hmem
    exact hmem
  | reliableSend id data =>
    obtain rfl := Option.some.inj hstep
    unfold reliableSend at hmem
    rw [postSerial_core] at hmem
    exact hmem
  | retryTimer key index =>
    simp only [step] at hstep
    split at hstep
    · obtain rfl := Option.some.inj hstep
      exact hmem
    · cases hstep
  | run index now =>
    simp only [step] at hstep
    split at hstep
    · next task htask =>
      obtain rfl := Option.some.inj hstep
      set s₁ : Controller := { s with posted := s.posted.eraseIdx index }
      have halive₁ : s₁.shuttingDown = false := halive
      show .removed id n ∈ s₁.toControllerCore.orderState.2
      cases task with
      | checkConnection =>
        have hcalm : Calm s₁.toControllerCore (checkConnectionImpl p throws s₁).toControllerCore :=
          calm_checkConnectionImpl halive₁
        exact hcalm.order ▸ hmem
      | heartbeatTimer =>
        have hcalm : Calm s₁.toControllerCore (handleHeartbeatTimer p now s₁).toControllerCore :=
          calm_handleHeartbeatTimer halive₁ now
        exact hcalm.order ▸ hmem
      | asyncSend bytes =>
        have hcalm : Calm s₁.toControllerCore
            (asyncSendImpl p throws bytes none none s₁).toControllerCore :=
          calm_asyncSendImpl halive₁ bytes none none
        exact hcalm.order ▸ hmem
      | reliableSend id bytes => exact removals_sendCallback halive₁ hmem
      | retryTimeout key seq => exact removals_sendCallback halive₁ hmem
      | serialOpsDrained => exact hmem
    · cases hstep
  | readDone index result data =>
    simp only [step] at hstep
    split at hstep
    · split_ifs at hstep
      obtain rfl := Option.some.inj hstep
      cases result with
      | success => exact absurd rfl (hevent index data)
      | operationAborted =>
        unfold handleReceive at hmem
        simp only at hmem
        split_ifs at hmem
        · rw [completeSerialOp_core] at hmem
          exact hmem
        · rw [completeSerialOp_core] at hmem
          exact hmem
      | failure =>
        unfold handleReceive at hmem
        simp only at hmem
        split_ifs at hmem
        · rw [completeSerialOp_core] at hmem
          exact hmem
        · rw [resetSerial_core, completeSerialOp_core] at hmem
          exact (reset_orderState (p := p) (s := s.toControllerCore) halive) ▸ hmem
    · cases hstep
  | writeDone index result =>
    simp only [step] at hstep
    split at hstep
    · obtain rfl := Option.some.inj hstep
      have halive₁ : ({ s with writes := s.writes.eraseIdx index } : Controller).shuttingDown = false :=
        halive
      rw [handleWrite_orderState halive₁] at hmem
      exact hmem
    · cases hstep

end Controller

end AutoSerialBridge
