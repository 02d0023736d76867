import AutoSerialBridge.Controller.CoreMoves
import AutoSerialBridge.Controller.Ready
import AutoSerialBridge.Controller.Shutdown
import AutoSerialBridge.Lib.History

/-!
# Auto Serial Bridge — transmit requests

What becomes of the requests passed to `async_send_impl`. Completions are invoked in six places; the
ledger of the requests (`Ledger`) says that a completion that was not invoked belongs to a request
that is still in `tx_queue_`, and that none is invoked twice. `tx_write_in_progress_` is cleared by a
reset while the handler of the old write is outstanding, so what is in flight is told apart by the
port (`Flight`): the write of the current connection is one for the front of the queue.

## Results

* `transmit_sound` — **every request is completed once, and none is stranded**.
-/

namespace AutoSerialBridge

open Lib

-- ---------------------------------------------------------------------------
-- What the pieces of the handlers leave alone
-- ---------------------------------------------------------------------------

/-- The members that make up the transmissions. -/
structure TxState where
  txQueue : List Nat
  txWriteInProgress : Bool
  requests : Nat → TxRequest
  nextRequest : Nat
  writes : List PendingWrite

namespace ControllerCore

variable {p : Protocol} {ok : Controller.Allowed} {s s' core : ControllerCore} {request port : Nat}
  {success : Bool}

def txState (s : ControllerCore) : TxState where
  txQueue := s.txQueue
  txWriteInProgress := s.txWriteInProgress
  requests := s.requests
  nextRequest := s.nextRequest
  writes := s.writes

/-- The request without its completion. -/
def disarm (request : Nat) (requests : Nat → TxRequest) : Nat → TxRequest :=
  Function.update requests request { requests request with completion := none }

theorem complete_txState : (complete request success s).txState =
    { s.txState with requests := disarm request s.requests } := by
  unfold complete
  split
  · rfl
  · next hnone =>
    have hsame : disarm request s.requests = s.requests := by
      unfold disarm
      rw [← hnone]
      exact Function.update_eq_self request s.requests
    rw [hsame]
    rfl

@[simp] theorem complete_txQueue : (complete request success s).txQueue = s.txQueue :=
  congrArg TxState.txQueue complete_txState

@[simp] theorem complete_txWriteInProgress :
    (complete request success s).txWriteInProgress = s.txWriteInProgress :=
  congrArg TxState.txWriteInProgress complete_txState

@[simp] theorem complete_requests :
    (complete request success s).requests = disarm request s.requests :=
  congrArg TxState.requests complete_txState

@[simp] theorem complete_nextRequest : (complete request success s).nextRequest = s.nextRequest :=
  congrArg TxState.nextRequest complete_txState

theorem disarm_bytes (request r : Nat) (requests : Nat → TxRequest) :
    (disarm request requests r).bytes = (requests r).bytes := by
  unfold disarm
  by_cases h : r = request
  · rw [h, Function.update_self]
  · rw [Function.update_of_ne h]

theorem disarm_origin (request r : Nat) (requests : Nat → TxRequest) :
    (disarm request requests r).origin = (requests r).origin := by
  unfold disarm
  by_cases h : r = request
  · rw [h, Function.update_self]
  · rw [Function.update_of_ne h]

theorem disarm_eq_some {r : Nat} {requests : Nat → TxRequest} {c : SendCompletion} :
    (disarm request requests r).completion = some c ↔
      r ≠ request ∧ (requests r).completion = some c := by
  unfold disarm
  by_cases h : r = request
  · rw [h, Function.update_self]
    simp
  · rw [Function.update_of_ne h]
    simp [h]

theorem noteWrite_txState (write : PendingWrite) (result : IoResult) :
    (noteWrite write result s).txState = s.txState := by
  unfold noteWrite
  split_ifs <;> rfl

theorem updateAcked_txState (ackedId ackSeq : UInt8) :
    (updateAcked p ackedId ackSeq s).txState = s.txState := by
  unfold updateAcked updateSender
  simp only
  split_ifs <;> rfl

/-- The members that make up the connection, without the state. -/
def line (s : ControllerCore) : Bool × Option SerialPort × UInt64 × Nat :=
  (s.isConnected, s.serialPort, s.connectionGeneration, s.nextPort)

theorem line_congr (h : s'.portState = s.portState) : s'.line = s.line := by
  show (s'.portState.isConnected, s'.portState.serialPort, s'.portState.connectionGeneration,
    s'.portState.nextPort) = s.line
  rw [h]
  rfl

theorem connection_of_line (h : s'.line = s.line) : s'.connection = s.connection := by
  show s'.line.2.1.map (fun port => Connection.mk port.id s'.line.2.2.1) = s.connection
  rw [h]
  rfl

/-- The writes of the current connection. -/
def currentWrites (s : ControllerCore) : List PendingWrite :=
  s.writes.filter fun write => s.isCurrent write.port write.generation

theorem currentWrites_congr (hwrites : s'.writes = s.writes) (h : s'.line = s.line) :
    s'.currentWrites = s.currentWrites := by
  show s'.writes.filter (fun write => write.generation == s'.line.2.2.1 &&
    s'.line.2.1.map (·.id) == some write.port) = s.currentWrites
  rw [h, hwrites]
  rfl

/-- The current connection, from a write that belongs to it. -/
theorem isCurrent_iff {generation : UInt64} : s.isCurrent port generation = true ↔
    s.connection = some ⟨port, generation⟩ := by
  unfold isCurrent connection
  rw [Bool.and_eq_true, beq_iff_eq, beq_iff_eq]
  cases s.serialPort with
  | none => simp
  | some _ =>
    simp only [Option.map_some, Option.some.injEq, Connection.mk.injEq]
    exact ⟨fun h => ⟨h.2, h.1.symm⟩, fun h => ⟨h.2.symm, h.1⟩⟩

end ControllerCore

-- ---------------------------------------------------------------------------
-- Events about requests
-- ---------------------------------------------------------------------------

namespace HistoryEvent

/-- The request an event decides about. -/
def requestOf : HistoryEvent → Option Nat
  | .submitted request _ => some request
  | .rejected request => some request
  | .accepted request _ => some request
  | .completed request _ => some request
  | _ => none

/-- The event is one of the reliable sender. -/
def OfSender : HistoryEvent → Prop
  | .transmitted _ _ _ => True
  | .acked _ _ => True
  | _ => False

/-- The event is about no request. -/
def Silent (e : HistoryEvent) : Prop := e.requestOf = none

/-- The event decides about a request, if about any. -/
def Decides (nextRequest : Nat) : HistoryEvent → Prop
  | .submitted _ _ => False
  | .completed _ _ => False
  | .rejected request => request < nextRequest
  | .accepted request _ => request < nextRequest
  | _ => True

/-- The event neither brings up a request nor rejects one. -/
def Harmless : HistoryEvent → Prop
  | .submitted _ _ => False
  | .rejected _ => False
  | _ => True

def completes (request : Nat) : HistoryEvent → Bool
  | .completed request' _ => request' == request
  | _ => false

theorem Silent.decides {e : HistoryEvent} (h : e.Silent) (n : Nat) : e.Decides n := by
  cases e <;> trivial

theorem Silent.harmless {e : HistoryEvent} (h : e.Silent) : e.Harmless := by
  cases e <;> trivial

theorem OfSender.silent {e : HistoryEvent} (h : e.OfSender) : e.Silent := by
  cases e <;> first | rfl | cases h

theorem silent_of_noted {e : HistoryEvent} (h : ControllerCore.Noted e) : e.Silent := by
  cases e <;> first | rfl | cases h

end HistoryEvent

section Silent

open HistoryEvent

variable {p : Protocol} {s core : ControllerCore} {req : Option SendRequest}

theorem updateSender_gained (r : ReliableSender × Option SendRequest) :
    Gained OfSender s.history (s.updateSender r).history := by
  unfold ControllerCore.updateSender
  cases r.2 with
  | none => exact .refl _
  | some req => exact .cons trivial

theorem noteWrite_silent (write : PendingWrite) (result : IoResult) :
    Gained Silent s.history (ControllerCore.noteWrite write result s).history := by
  unfold ControllerCore.noteWrite
  split_ifs
  · exact .cons rfl
  · exact .refl _

theorem SenderOp.gained (h : SenderOp p s core req) : Gained OfSender s.history core.history := by
  cases h with
  | send => exact updateSender_gained _
  | timeout => exact updateSender_gained _
  | ack ackedId ackSeq =>
    unfold ControllerCore.updateAcked
    simp only
    split_ifs
    · exact updateSender_gained _
    · have hacked : Gained OfSender s.history
          (.acked ackedId (s.reliableSender.acked ackedId) :: s.history) := .cons trivial
      exact hacked.trans (updateSender_gained _)

theorem SenderOp.silent (h : SenderOp p s core req) : Gained Silent s.history core.history :=
  h.gained.mono fun _ he => he.silent

theorem SenderOp.txState (h : SenderOp p s core req) : core.txState = s.txState := by
  cases h with
  | send => rfl
  | timeout => rfl
  | ack => exact ControllerCore.updateAcked_txState _ _

variable {bytes : List UInt8} {completion : Option SendCompletion} {origin : Option (UInt8 × Nat)}

theorem Offer.silent (h : Offer p s core bytes completion origin) :
    Gained Silent s.history core.history := by
  cases h with
  | plain => exact .refl _
  | reliable h => exact h.silent

theorem Offer.txState (h : Offer p s core bytes completion origin) : core.txState = s.txState := by
  cases h with
  | plain => rfl
  | reliable h => exact h.txState

end Silent

-- ---------------------------------------------------------------------------
-- The ledger
-- ---------------------------------------------------------------------------

/-- The request was accepted on a connection, and written on it without an error. -/
def WrittenOut (request : Nat) (history : List HistoryEvent) : Prop :=
  ∃ connection, .accepted request (some connection) ∈ history ∧
    .written request connection ∈ history

/-- The completions, when those that were not invoked belong to the requests `todo`. -/
structure Ledger (todo : List Nat) (s : ControllerCore) : Prop where
  fresh : ∀ r, s.nextRequest ≤ r →
    (s.requests r).completion = none ∧ ∀ e ∈ s.history, e.requestOf ≠ some r
  awaited : ∀ r c, (s.requests r).completion = some c →
    r ∈ todo ∧ ∀ success, .completed r success ∉ s.history
  settled : ∀ r c, .submitted r (some c) ∈ s.history →
    (s.requests r).completion = some c ∨ ∃ success, .completed r success ∈ s.history
  once : ∀ r, (s.history.filter (·.completes r)).length ≤ 1
  success : Recorded (fun e older => ∀ r, e = .completed r true → WrittenOut r older) s.history

namespace Ledger

open ControllerCore HistoryEvent

variable {todo todo' : List Nat} {s s' : ControllerCore} {request : Nat} {success : Bool}

/-- Decisions leave the completions alone. -/
theorem gained (h : Ledger todo s) (hreq : s'.requests = s.requests)
    (hnext : s'.nextRequest = s.nextRequest)
    (hg : Gained (Decides s.nextRequest) s.history s'.history) : Ledger todo s' := by
  have hcompleted : ∀ r success, ¬ (HistoryEvent.completed r success).Decides s.nextRequest :=
    fun _ _ h => h
  have hsubmitted : ∀ r c, ¬ (HistoryEvent.submitted r c).Decides s.nextRequest := fun _ _ h => h
  refine ⟨fun r hr => ?_, fun r c hc => ?_, fun r c hmem => ?_, fun r => ?_, ?_⟩
  · rw [hnext] at hr
    obtain ⟨hnone, hevents⟩ := h.fresh r hr
    rw [hreq]
    refine ⟨hnone, fun e he hreqOf => ?_⟩
    obtain ⟨events, heq, hall⟩ := hg
    rw [heq] at he
    rcases List.mem_append.mp he with he | he
    · have hdec := hall e he
      cases e with
      | rejected r' =>
        obtain rfl : r' = r := Option.some.inj hreqOf
        exact absurd hr (Nat.not_le_of_lt hdec)
      | accepted r' _ =>
        obtain rfl : r' = r := Option.some.inj hreqOf
        exact absurd hr (Nat.not_le_of_lt hdec)
      | submitted => exact hdec
      | completed => exact hdec
      | _ => cases hreqOf
    · exact hevents e he hreqOf
  · rw [hreq] at hc
    obtain ⟨htodo, hnone⟩ := h.awaited r c hc
    exact ⟨htodo, fun success hmem => hnone success ((hg.mem_iff (hcompleted r success)).mp hmem)⟩
  · rw [hreq]
    exact (h.settled r c ((hg.mem_iff (hsubmitted r _)).mp hmem)).imp_right
      (Exists.imp fun _ => hg.mem)
  · rw [hg.filter_eq]
    · exact h.once r
    · intro e he
      cases e with
      | completed => exact he.elim
      | _ => rfl
  · refine h.success.gained hg ?_
    rintro e older he r rfl
    exact he.elim

theorem complete (h : Ledger (request :: todo) s)
    (hwritten : success = true → WrittenOut request s.history) :
    Ledger todo (complete request success s) := by
  cases hc : (s.requests request).completion with
  | none =>
    have hsame : ControllerCore.complete request success s = s := by
      unfold ControllerCore.complete
      rw [hc]
    rw [hsame]
    refine ⟨h.fresh, fun r c hr => ?_, h.settled, h.once, h.success⟩
    obtain ⟨hmem, hnone⟩ := h.awaited r c hr
    refine ⟨(List.mem_cons.mp hmem).resolve_left ?_, hnone⟩
    rintro rfl
    rw [hc] at hr
    cases hr
  | some c =>
    have hhistory : (ControllerCore.complete request success s).history =
        .completed request success :: s.history := by
      unfold ControllerCore.complete
      rw [hc]
    have hfresh := (h.awaited request c hc).2
    refine ⟨fun r hr => ?_, fun r c' hr => ?_, fun r c' hmem => ?_, fun r => ?_, ?_⟩
    · rw [complete_nextRequest] at hr
      obtain ⟨hnone, hevents⟩ := h.fresh r hr
      have hne : r ≠ request := by
        rintro rfl
        rw [hc] at hnone
        cases hnone
      rw [complete_requests, hhistory]
      constructor
      · unfold disarm
        rw [Function.update_of_ne hne]
        exact hnone
      · rw [List.forall_mem_cons]
        exact ⟨fun heq => hne (Option.some.inj heq).symm, hevents⟩
    · rw [complete_requests, disarm_eq_some] at hr
      obtain ⟨hmem, hnone⟩ := h.awaited r c' hr.2
      refine ⟨(List.mem_cons.mp hmem).resolve_left hr.1, fun success' hmem' => ?_⟩
      rw [hhistory] at hmem'
      rcases List.mem_cons.mp hmem' with heq | hmem'
      · exact hr.1 (HistoryEvent.completed.inj heq).1
      · exact hnone success' hmem'
    · rw [hhistory] at hmem ⊢
      have hmem : .submitted r (some c') ∈ s.history := by simpa using hmem
      rw [complete_requests, disarm_eq_some]
      by_cases hr : r = request
      · rw [hr]
        exact .inr ⟨success, List.mem_cons_self⟩
      · rcases h.settled r c' hmem with hsome | ⟨success', hcompleted⟩
        · exact .inl ⟨hr, hsome⟩
        · exact .inr ⟨success', List.mem_cons_of_mem _ hcompleted⟩
    · rw [hhistory, List.filter_cons]
      by_cases hr : request = r
      · have hnone : s.history.filter (·.completes r) = [] := by
          rw [List.filter_eq_nil_iff]
          intro e he hcompletes
          cases e with
          | completed r' success' =>
            obtain rfl : r' = r := beq_iff_eq.mp hcompletes
            exact hfresh success' (hr ▸ he)
          | _ => cases hcompletes
        rw [hnone]
        split_ifs <;> simp
      · rw [if_neg]
        · exact h.once r
        · show ¬ (request == r) = true
          rw [beq_iff_eq]
          exact hr
    · rw [hhistory]
      refine ⟨?_, h.success⟩
      rintro r heq
      obtain ⟨rfl, rfl⟩ := HistoryEvent.completed.inj heq
      exact hwritten rfl

theorem failTxQueue (h : Ledger s.txQueue s) : Ledger [] (failTxQueue s) := by
  have hall : ∀ (queue : List Nat) (s : ControllerCore), Ledger queue s →
      Ledger [] (queue.foldl (fun s request => ControllerCore.complete request false s) s) := by
    intro queue
    induction queue with
    | nil => exact fun _ h => h
    | cons request queue ih => exact fun s h => ih _ (h.complete (by rintro ⟨⟩))
  have h := hall s.txQueue s h
  exact ⟨h.fresh, h.awaited, h.settled, h.once, h.success⟩

theorem submit (h : Ledger todo s) (bytes : List UInt8) (completion : Option SendCompletion)
    (origin : Option (UInt8 × Nat)) :
    Ledger (s.nextRequest :: todo) (submit bytes completion origin s) := by
  obtain ⟨-, hevents⟩ := h.fresh s.nextRequest le_rfl
  have hself : (ControllerCore.submit bytes completion origin s).requests s.nextRequest =
      ⟨bytes, completion, origin⟩ := Function.update_self ..
  have hother : ∀ {r}, r ≠ s.nextRequest →
      (ControllerCore.submit bytes completion origin s).requests r = s.requests r := fun hne =>
    Function.update_of_ne hne ..
  refine ⟨fun r hr => ?_, fun r c hc => ?_, fun r c hmem => ?_, fun r => ?_, ?_⟩
  · have hr : s.nextRequest + 1 ≤ r := hr
    obtain ⟨hnone, hold⟩ := h.fresh r (by omega)
    rw [hother (by omega)]
    refine ⟨hnone, List.forall_mem_cons.mpr ⟨fun heq => ?_, hold⟩⟩
    have heq : s.nextRequest = r := Option.some.inj heq
    omega
  · by_cases hr : r = s.nextRequest
    · subst hr
      refine ⟨List.mem_cons_self, fun success hmem => ?_⟩
      have hmem : .completed s.nextRequest success ∈ s.history := by
        simpa [ControllerCore.submit] using hmem
      exact hevents _ hmem rfl
    · rw [hother hr] at hc
      obtain ⟨hmem, hnone⟩ := h.awaited r c hc
      refine ⟨List.mem_cons_of_mem _ hmem, fun success hmem' => hnone success ?_⟩
      simpa [ControllerCore.submit] using hmem'
  · rcases List.mem_cons.mp hmem with heq | hmem
    · obtain ⟨rfl, rfl⟩ := HistoryEvent.submitted.inj heq
      rw [hself]
      exact .inl rfl
    · have hr : r ≠ s.nextRequest := by
        rintro rfl
        exact hevents _ hmem rfl
      rw [hother hr]
      exact (h.settled r c hmem).imp_right (Exists.imp fun _ => List.mem_cons_of_mem _)
  · exact h.once r
  · refine ⟨?_, h.success⟩
    rintro r heq
    cases heq

theorem mono (h : Ledger todo s) (hsub : ∀ r ∈ todo, r ∈ todo') : Ledger todo' s :=
  ⟨h.fresh, fun r c hc => ⟨hsub r (h.awaited r c hc).1, (h.awaited r c hc).2⟩, h.settled, h.once,
    h.success⟩

end Ledger

/-- Every request was accepted or rejected, and the rejected ones were completed. -/
structure Decided (history : List HistoryEvent) : Prop where
  decided : ∀ r completion, .submitted r completion ∈ history →
    .rejected r ∈ history ∨ ∃ connection, .accepted r connection ∈ history
  rejected : ∀ r c, .submitted r (some c) ∈ history → .rejected r ∈ history →
    .completed r false ∈ history

namespace Decided

open ControllerCore HistoryEvent

variable {s : ControllerCore} {history history' : List HistoryEvent}

theorem gained (h : Decided history) (hg : Gained Harmless history history') :
    Decided history' := by
  have hsubmitted : ∀ r c, ¬ (HistoryEvent.submitted r c).Harmless := fun _ _ h => h
  have hrejected : ∀ r, ¬ (HistoryEvent.rejected r).Harmless := fun _ h => h
  constructor
  · intro r completion hmem
    rw [hg.mem_iff (hsubmitted r completion)] at hmem
    exact (h.decided r completion hmem).imp hg.mem (Exists.imp fun _ => hg.mem)
  · intro r c hmem hrej
    rw [hg.mem_iff (hsubmitted r (some c))] at hmem
    rw [hg.mem_iff (hrejected r)] at hrej
    exact hg.mem (h.rejected r c hmem hrej)

theorem accept {r : Nat} {completion : Option SendCompletion} {connection : Option Connection}
    (h : Decided history) (hfresh : ∀ e ∈ history, e.requestOf ≠ some r) :
    Decided (.accepted r connection :: .submitted r completion :: history) := by
  constructor
  · intro r' completion' hmem
    by_cases hr : r' = r
    · rw [hr]
      exact .inr ⟨connection, List.mem_cons_self⟩
    · have hmem : .submitted r' completion' ∈ history := by simpa [hr] using hmem
      exact (h.decided r' completion' hmem).imp
        (fun hmem => List.mem_cons_of_mem _ (List.mem_cons_of_mem _ hmem))
        (Exists.imp fun _ hmem => List.mem_cons_of_mem _ (List.mem_cons_of_mem _ hmem))
  · intro r' c hmem hrej
    have hrej : .rejected r' ∈ history := by simpa using hrej
    have hr : r' ≠ r := by
      intro hr
      exact hfresh _ hrej (congrArg some hr)
    have hmem : .submitted r' (some c) ∈ history := by simpa [hr] using hmem
    exact List.mem_cons_of_mem _ (List.mem_cons_of_mem _ (h.rejected r' c hmem hrej))

theorem reject {r : Nat} {completion : Option SendCompletion} (h : Decided history)
    (hfresh : ∀ e ∈ history, e.requestOf ≠ some r) :
    Decided ((completion.map fun _ => .completed r false).toList ++
      .rejected r :: .submitted r completion :: history) := by
  have hold : ∀ e ∈ history, e ∈ (completion.map fun _ => .completed r false).toList ++
      .rejected r :: .submitted r completion :: history := fun e he => by simp [he]
  have hmem_iff : ∀ {r'} {completion' : Option SendCompletion}, r' ≠ r →
      .submitted r' completion' ∈ (completion.map fun _ => .completed r false).toList ++
        .rejected r :: .submitted r completion :: history → .submitted r' completion' ∈ history := by
    intro r' completion' hr hmem
    simpa [hr] using hmem
  constructor
  · intro r' completion' hmem
    by_cases hr : r' = r
    · rw [hr]
      exact .inl (by simp)
    · exact (h.decided r' completion' (hmem_iff hr hmem)).imp (hold _) (Exists.imp fun _ => hold _)
  · intro r' c hmem hrej
    by_cases hr : r' = r
    · subst hr
      have hnot : .submitted r' (some c) ∉ history := by
        intro hmem
        exact hfresh _ hmem rfl
      have hcompletion : completion = some c := by simpa [hnot, eq_comm] using hmem
      simp [hcompletion]
    · have hrej : .rejected r' ∈ history := by simpa [hr] using hrej
      exact hold _ (h.rejected r' c (hmem_iff hr hmem) hrej)

theorem reject_history (bytes : List UInt8) (completion : Option SendCompletion)
    (origin : Option (UInt8 × Nat)) :
    ((s.submit bytes completion origin).reject s.nextRequest).history =
      (completion.map fun _ => HistoryEvent.completed s.nextRequest false).toList ++
        .rejected s.nextRequest :: .submitted s.nextRequest completion :: s.history := by
  have hself : ((s.submit bytes completion origin).requests s.nextRequest).completion =
      completion := by
    unfold ControllerCore.submit
    simp
  unfold ControllerCore.reject ControllerCore.complete
  simp only [hself]
  cases completion <;> rfl

end Decided

-- ---------------------------------------------------------------------------
-- What is in flight
-- ---------------------------------------------------------------------------

/-- Every request in the queue was accepted on the current connection. -/
def QueueAccepted (s : ControllerCore) : Prop :=
  ∀ r ∈ s.txQueue, r < s.nextRequest ∧ ∃ connection, s.connection = some connection ∧
    .accepted r (some connection) ∈ s.history

/-- The writes of the current connection: none, or one for the front of the queue. -/
structure Flight (s : ControllerCore) : Prop where
  older : ∀ write ∈ s.writes, write.port < s.nextPort
  port : ∀ port, s.serialPort = some port →
    port.id < s.nextPort ∧ port.isOpen = true ∧ s.isConnected = true
  noPort : s.serialPort = none → s.isConnected = false
  idle : s.txWriteInProgress = false → s.currentWrites = []
  busy : s.txWriteInProgress = true → ∃ request rest port, s.txQueue = request :: rest ∧
    s.serialPort = some port ∧ s.currentWrites = [⟨port.id, s.connectionGeneration, request⟩]

theorem Flight.congr {s s' : ControllerCore} (h : Flight s) (hline : s'.line = s.line)
    (hwrites : s'.writes = s.writes) (hqueue : s'.txQueue = s.txQueue)
    (hprogress : s'.txWriteInProgress = s.txWriteInProgress) : Flight s' := by
  have hcurrent := ControllerCore.currentWrites_congr hwrites hline
  have hconnected : s'.isConnected = s.isConnected := congrArg Prod.fst hline
  have hport : s'.serialPort = s.serialPort := congrArg (·.2.1) hline
  have hgeneration : s'.connectionGeneration = s.connectionGeneration := congrArg (·.2.2.1) hline
  have hnextPort : s'.nextPort = s.nextPort := congrArg (·.2.2.2) hline
  constructor
  · rw [hwrites, hnextPort]
    exact h.older
  · rw [hport, hnextPort, hconnected]
    exact h.port
  · rw [hport, hconnected]
    exact h.noPort
  · rw [hprogress, hcurrent]
    exact h.idle
  · rw [hprogress, hqueue, hport, hcurrent, hgeneration]
    exact h.busy

/-- The invariant while a handler runs. -/
structure TransmitPre (s : ControllerCore) : Prop where
  ledger : Ledger s.txQueue s
  decided : Decided s.history
  queued : QueueAccepted s
  flight : Flight s

/-- The invariant between two handlers: the queue is being written, unless a write of the current
connection may be aborted. -/
structure TransmitInv (ok : Controller.Allowed) (s : ControllerCore) : Prop
    extends TransmitPre s where
  settled : ¬ ok.abort → s.txWriteInProgress = false → s.txQueue = []
  closed : s.isConnected = false → s.txQueue = []

section Erase

variable {α : Type} {q : α → Bool} {l : List α} {i : Nat} {x y : α}

theorem filter_eraseIdx_of_not (hx : l[i]? = some x) (hq : q x = false) :
    (l.eraseIdx i).filter q = l.filter q := by
  induction l generalizing i with
  | nil => cases hx
  | cons z l ih =>
    cases i with
    | zero =>
      obtain rfl : z = x := by simpa using hx
      simp [hq]
    | succ i =>
      rw [List.eraseIdx_cons_succ, List.filter_cons, List.filter_cons, ih (by simpa using hx)]

theorem filter_eraseIdx_of_singleton (hx : l[i]? = some x) (hq : q x = true)
    (hl : l.filter q = [y]) : x = y ∧ (l.eraseIdx i).filter q = [] := by
  have hmem : x ∈ l.filter q := List.mem_filter.mpr ⟨List.mem_of_getElem? hx, hq⟩
  have hxy : x = y := by
    rw [hl] at hmem
    exact List.mem_singleton.mp hmem
  refine ⟨hxy, ?_⟩
  clear hmem
  induction l generalizing i with
  | nil => cases hx
  | cons z l ih =>
    cases i with
    | zero =>
      obtain rfl : z = x := by simpa using hx
      rw [List.filter_cons, if_pos hq] at hl
      exact (List.cons.inj hl).2
    | succ i =>
      have hx : l[i]? = some x := by simpa using hx
      rw [List.filter_cons] at hl
      rw [List.eraseIdx_cons_succ, List.filter_cons]
      split_ifs at hl ⊢ with hz
      · -- two elements would be left
        have hmem : x ∈ l.filter q := List.mem_filter.mpr ⟨List.mem_of_getElem? hx, hq⟩
        rw [(List.cons.inj hl).2] at hmem
        cases hmem
      · exact ih hx hl

end Erase

section Transmit

open ControllerCore HistoryEvent

variable {p : Protocol} {s s' core : ControllerCore} {ok : Controller.Allowed}

/-- Whatever changes neither the requests nor the port keeps the invariant. -/
theorem TransmitPre.silent (h : TransmitPre s) (htx : s'.txState = s.txState)
    (hline : s'.line = s.line) (hg : Gained Silent s.history s'.history) : TransmitPre s' := by
  have hqueue : s'.txQueue = s.txQueue := congrArg TxState.txQueue htx
  have hnext : s'.nextRequest = s.nextRequest := congrArg TxState.nextRequest htx
  refine ⟨?_, h.decided.gained (hg.mono fun _ he => he.harmless), ?_, ?_⟩
  · rw [hqueue]
    exact h.ledger.gained (congrArg TxState.requests htx) hnext
      (hg.mono fun _ he => he.decides _)
  · intro r hr
    rw [hqueue] at hr
    obtain ⟨hlt, connection, hconn, hmem⟩ := h.queued r hr
    rw [hnext, connection_of_line hline]
    exact ⟨hlt, connection, hconn, hg.mem hmem⟩
  · exact h.flight.congr hline (congrArg TxState.writes htx) hqueue
      (congrArg TxState.txWriteInProgress htx)

theorem TransmitInv.silent (h : TransmitInv ok s) (htx : s'.txState = s.txState)
    (hline : s'.line = s.line) (hg : Gained Silent s.history s'.history) : TransmitInv ok s' := by
  have hqueue : s'.txQueue = s.txQueue := congrArg TxState.txQueue htx
  refine ⟨h.toTransmitPre.silent htx hline hg, ?_, ?_⟩
  · rw [hqueue, show s'.txWriteInProgress = s.txWriteInProgress from
      congrArg TxState.txWriteInProgress htx]
    exact h.settled
  · rw [hqueue, show s'.isConnected = s.isConnected from congrArg Prod.fst hline]
    exact h.closed

/-- After a reset nothing is queued, and no write is one of the current connection. -/
theorem TransmitPre.reset (h : TransmitPre s) : TransmitInv ok (ControllerCore.reset p s) := by
  set s₁ : ControllerCore := { s with
    isConnected := false
    connectionGeneration := s.connectionGeneration + 1
    reliableSender :=
      if s.shuttingDown then s.reliableSender.clearAllImpl else s.reliableSender } with hs₁
  have hledger : Ledger s₁.txQueue s₁ :=
    ⟨h.ledger.fresh, h.ledger.awaited, h.ledger.settled, h.ledger.once, h.ledger.success⟩
  have hfailed := hledger.failTxQueue
  have hgained : Gained Harmless s.history (ControllerCore.reset p s).history :=
    failTxQueue_keeps (I := fun s' => Gained Harmless s.history s'.history)
      (fun request s' hs' => by
        refine hs'.trans ?_
        unfold complete
        split
        · exact .cons trivial
        · exact .refl _)
      (fun _ hs' => hs') (s := s₁) (.refl _)
  have hqueue : (ControllerCore.reset p s).txQueue = [] := rfl
  have hport : (ControllerCore.reset p s).serialPort = none := rfl
  have hprogress : (ControllerCore.reset p s).txWriteInProgress = false := rfl
  have hline := reset_portState (p := p) (s := s)
  have hnextPort : (ControllerCore.reset p s).nextPort = s.nextPort :=
    congrArg PortState.nextPort hline
  have hconnected : (ControllerCore.reset p s).isConnected = false :=
    congrArg PortState.isConnected hline
  refine ⟨⟨?_, h.decided.gained hgained, ?_, ?_⟩, fun _ _ => hqueue, fun _ => hqueue⟩
  · rw [hqueue]
    exact ⟨hfailed.fresh, hfailed.awaited, hfailed.settled, hfailed.once, hfailed.success⟩
  · intro r hr
    rw [hqueue] at hr
    cases hr
  · constructor
    · rw [reset_writes, hnextPort]
      exact h.flight.older
    · rw [hport]
      rintro port ⟨⟩
    · exact fun _ => hconnected
    · intro _
      unfold currentWrites isCurrent
      rw [hport, List.filter_eq_nil_iff]
      simp
    · rw [hprogress]
      rintro ⟨⟩

/-- A new port has no writes. -/
theorem TransmitInv.connect (h : TransmitInv ok s) (hconn : s.isConnected = false) :
    TransmitInv ok (ControllerCore.connect p s) := by
  have hport : s.serialPort = none := by
    cases hport : s.serialPort with
    | none => rfl
    | some port =>
      have hconnected := (h.flight.port port hport).2.2
      rw [hconn] at hconnected
      cases hconnected
  have hidle : s.txWriteInProgress = false := by
    by_contra hbusy
    obtain ⟨_, _, port, -, hsome, -⟩ := h.flight.busy ((Bool.not_eq_false _).mp hbusy)
    rw [hport] at hsome
    cases hsome
  have hqueue : s.txQueue = [] := h.closed hconn
  refine ⟨⟨h.ledger.gained rfl rfl (.refl _), h.decided, ?_, ?_⟩, fun _ _ => hqueue, fun _ => hqueue⟩
  · intro r hr
    have hr : r ∈ s.txQueue := hr
    rw [hqueue] at hr
    cases hr
  · constructor
    · intro write hwrite
      have hlt := h.flight.older write hwrite
      show write.port < s.nextPort + 1
      omega
    · rintro port ⟨⟩
      exact ⟨Nat.lt_succ_self s.nextPort, rfl, rfl⟩
    · rintro ⟨⟩
    · intro _
      unfold currentWrites
      rw [List.filter_eq_nil_iff]
      intro write hwrite hcurrent
      have hlt := h.flight.older write hwrite
      rw [isCurrent_iff] at hcurrent
      have hid : s.nextPort = write.port := congrArg Connection.port (Option.some.inj hcurrent)
      omega
    · intro hbusy
      have hbusy : s.txWriteInProgress = true := hbusy
      rw [hidle] at hbusy
      cases hbusy

/-- The write is the one in flight. -/
theorem Flight.handOver_connection {port : SerialPort} (hport : s.serialPort = some port) :
    s.isCurrent port.id s.connectionGeneration = true := by
  rw [isCurrent_iff, connection, hport]
  rfl

/-- **`start_next_write`** settles the queue. -/
theorem TransmitPre.startsNext (h : TransmitPre s) (hconn : s.isConnected = true)
    (hnext : StartsNext p s s') : TransmitInv ok s' := by
  cases hnext with
  | idle hidle =>
    refine ⟨h, fun _ hprogress => hidle.resolve_right ?_, fun hgone => ?_⟩
    · rw [hprogress]
      exact Bool.false_ne_true
    · rw [hconn] at hgone
      cases hgone
  | gone _ hgone =>
    have hport : s.serialPort = none := by
      cases hport : s.serialPort with
      | none => rfl
      | some port =>
        obtain ⟨-, hopen, -⟩ := h.flight.port port hport
        rcases hgone with hgone | hgone
        · rw [hconn] at hgone
          cases hgone
        · have hclosed := hgone port hport
          rw [hopen] at hclosed
          cases hclosed
    have hidle : s.txWriteInProgress = false := by
      by_contra hbusy
      obtain ⟨_, _, port, -, hsome, -⟩ := h.flight.busy ((Bool.not_eq_false _).mp hbusy)
      rw [hport] at hsome
      cases hsome
    have hline := line_congr (failTxQueue_portState (s := s))
    have hcurrent := currentWrites_congr (failTxQueue_writes (s := s)) hline
    have hgained : Gained Harmless s.history (failTxQueue s).history :=
      failTxQueue_keeps (I := fun s' => Gained Harmless s.history s'.history)
        (fun request s' hs' => by
          refine hs'.trans ?_
          unfold complete
          split
          · exact .cons trivial
          · exact .refl _)
        (fun _ hs' => hs') (.refl _)
    have hserial : (failTxQueue s).serialPort = none := (congrArg (·.2.1) hline).trans hport
    refine ⟨⟨h.ledger.failTxQueue, h.decided.gained hgained, ?_, ?_⟩, fun _ _ => rfl, fun _ => rfl⟩
    · rintro r ⟨⟩
    · constructor
      · rw [failTxQueue_writes, show (failTxQueue s).nextPort = s.nextPort from
          congrArg (·.2.2.2) hline]
        exact h.flight.older
      · rw [hserial]
        rintro port ⟨⟩
      · intro _
        exact (congrArg Prod.fst hline).trans (h.flight.noPort hport)
      · intro _
        rw [hcurrent]
        exact h.flight.idle hidle
      · rintro ⟨⟩
  | @begin request rest port hqueue hidle hconn hport hopen =>
    have hg : Gained Silent s.history (beginWrite request port.id s).history := .cons rfl
    refine ⟨⟨h.ledger.gained rfl rfl (hg.mono fun _ he => he.decides _),
      h.decided.gained (hg.mono fun _ he => he.harmless), ?_, ?_⟩, ?_, ?_⟩
    · intro r hr
      obtain ⟨hlt, connection, hconn, hmem⟩ := h.queued r hr
      exact ⟨hlt, connection, hconn, hg.mem hmem⟩
    · constructor
      · intro write hwrite
        rcases List.mem_append.mp hwrite with hwrite | hwrite
        · exact h.flight.older write hwrite
        · rw [List.mem_singleton.mp hwrite]
          exact (h.flight.port port hport).1
      · exact h.flight.port
      · exact h.flight.noPort
      · rintro ⟨⟩
      · intro _
        refine ⟨request, rest, port, hqueue, hport, ?_⟩
        have hnone : s.writes.filter (fun write => s.isCurrent write.port write.generation) = [] :=
          h.flight.idle hidle
        have hnew : s.isCurrent port.id s.connectionGeneration = true :=
          Flight.handOver_connection hport
        show (s.writes ++ [PendingWrite.mk port.id s.connectionGeneration request]).filter
          (fun write => s.isCurrent write.port write.generation) = _
        rw [List.filter_append, hnone, List.nil_append, List.filter_cons, if_pos hnew]
        rfl
    · rintro _ ⟨⟩
    · intro hgone
      have hgone : s.isConnected = false := hgone
      rw [hconn] at hgone
      cases hgone
  | @fails request rest port =>
    refine TransmitPre.reset (s := handOver request port.id s) (h.silent rfl rfl ?_)
    exact .cons rfl

/-- The write in flight is one for the front of the queue, and the only one. -/
theorem TransmitPre.front_of_isCurrent (h : TransmitPre s) {index : Nat} {write : PendingWrite}
    (hwrite : s.writes[index]? = some write)
    (hcurrent : s.isCurrent write.port write.generation = true) :
    ∃ rest, s.txQueue = write.request :: rest := by
  have hmem : write ∈ s.currentWrites :=
    List.mem_filter.mpr ⟨List.mem_of_getElem? hwrite, hcurrent⟩
  have hbusy : s.txWriteInProgress = true := by
    by_contra hidle
    rw [h.flight.idle ((Bool.not_eq_true _).mp hidle)] at hmem
    cases hmem
  obtain ⟨request, rest, port, hqueue, -, hone⟩ := h.flight.busy hbusy
  rw [hone] at hmem
  rw [List.mem_singleton.mp hmem]
  exact ⟨rest, hqueue⟩

/-- **`handle_write`** of a write of the current connection: it was the one in flight, and the front
request is done. -/
theorem TransmitPre.finishWrite (h : TransmitPre s) {index : Nat} {write : PendingWrite}
    (hwrite : s.writes[index]? = some write)
    (hcurrent : s.isCurrent write.port write.generation = true) (result : IoResult) :
    TransmitPre (ControllerCore.finishWrite write.request (result = .success)
      (noteWrite write result (dropWrite index s))) := by
  have hbusy : s.txWriteInProgress = true := by
    by_contra hidle
    have hnone := h.flight.idle ((Bool.not_eq_true _).mp hidle)
    have hmem : write ∈ s.currentWrites :=
      List.mem_filter.mpr ⟨List.mem_of_getElem? hwrite, hcurrent⟩
    rw [hnone] at hmem
    cases hmem
  obtain ⟨request, rest, port, hqueue, hport, hone⟩ := h.flight.busy hbusy
  obtain ⟨hwriteEq, hnone⟩ := filter_eraseIdx_of_singleton hwrite hcurrent hone
  have hrequest : write.request = request := congrArg PendingWrite.request hwriteEq
  rw [hrequest]
  have hg := noteWrite_silent (s := dropWrite index s) write result
  have htx := noteWrite_txState (s := dropWrite index s) write result
  have hline := line_congr (noteWrite_portState (s := dropWrite index s) write result)
  have hwritten : result = .success →
      WrittenOut request (noteWrite write result (dropWrite index s)).history := by
    rintro rfl
    obtain ⟨-, connection, hconn, hmem⟩ := h.queued request (by rw [hqueue]; exact List.mem_cons_self)
    rw [isCurrent_iff, hconn] at hcurrent
    refine ⟨connection, hg.mem hmem, ?_⟩
    rw [Option.some.inj hcurrent, ← hrequest]
    exact List.mem_cons_self
  generalize noteWrite write result (dropWrite index s) = s₁ at hg htx hline hwritten ⊢
  have hqueue₁ : s₁.txQueue = request :: rest := (congrArg TxState.txQueue htx).trans hqueue
  have hwrites₁ : s₁.writes = s.writes.eraseIdx index := congrArg TxState.writes htx
  have hserial₁ : s₁.serialPort = s.serialPort := congrArg (·.2.1) hline
  have hledger : Ledger (request :: rest) s₁ := by
    rw [← hqueue]
    exact h.ledger.gained (congrArg TxState.requests htx) (congrArg TxState.nextRequest htx)
      (hg.mono fun _ he => he.decides _)
  set s₂ : ControllerCore := { s₁ with
    txWriteInProgress := false
    txQueue := if s₁.txQueue.head? = some request then s₁.txQueue.tail else s₁.txQueue } with hs₂
  have hqueue₂ : s₂.txQueue = rest := by
    rw [hs₂]
    simp only
    rw [hqueue₁, List.head?_cons, if_pos rfl, List.tail_cons]
  have hledger₂ : Ledger (request :: rest) s₂ :=
    ⟨hledger.fresh, hledger.awaited, hledger.settled, hledger.once, hledger.success⟩
  have hdone : Ledger rest (ControllerCore.complete request (decide (result = .success)) s₂) :=
    hledger₂.complete fun hsuccess => hwritten (of_decide_eq_true hsuccess)
  have hharmless : Gained Harmless s₁.history
      (complete request (decide (result = .success)) s₂).history := by
    unfold complete
    split
    · exact .cons trivial
    · exact .refl _
  have hall := (hg.mono fun _ he => he.harmless).trans hharmless
  have hline₂ : (complete request (decide (result = .success)) s₂).line = s.line :=
    (line_congr (complete_portState _ _)).trans hline
  show TransmitPre (complete request (decide (result = .success)) s₂)
  refine ⟨?_, h.decided.gained hall, ?_, ?_⟩
  · rw [complete_txQueue, hqueue₂]
    exact hdone
  · intro r hr
    rw [complete_txQueue, hqueue₂] at hr
    obtain ⟨hlt, connection, hconn, hmem⟩ := h.queued r (by rw [hqueue]; exact List.mem_cons_of_mem _ hr)
    rw [complete_nextRequest, connection_of_line hline₂]
    exact ⟨lt_of_lt_of_eq hlt (congrArg TxState.nextRequest htx).symm, connection, hconn, hall.mem hmem⟩
  · constructor
    · rw [complete_writes, show s₂.writes = s.writes.eraseIdx index from hwrites₁,
        show (complete request _ s₂).nextPort = s.nextPort from congrArg (·.2.2.2) hline₂]
      exact fun write hwrite => h.flight.older write (List.mem_of_mem_eraseIdx hwrite)
    · rw [show (complete request _ s₂).serialPort = s.serialPort from congrArg (·.2.1) hline₂,
        show (complete request _ s₂).nextPort = s.nextPort from congrArg (·.2.2.2) hline₂,
        show (complete request _ s₂).isConnected = s.isConnected from congrArg Prod.fst hline₂]
      exact h.flight.port
    · rw [show (complete request _ s₂).serialPort = s.serialPort from congrArg (·.2.1) hline₂,
        show (complete request _ s₂).isConnected = s.isConnected from congrArg Prod.fst hline₂]
      exact h.flight.noPort
    · intro _
      rw [← hnone]
      exact currentWrites_congr (s := dropWrite index s) ((complete_writes _ _).trans hwrites₁) hline₂
    · rw [complete_txWriteInProgress]
      rintro ⟨⟩

/-- A request that comes in, and is rejected. -/
theorem TransmitInv.reject (h : TransmitInv ok s) (bytes : List UInt8)
    (completion : Option SendCompletion) (origin : Option (UInt8 × Nat)) :
    TransmitInv ok ((s.submit bytes completion origin).reject s.nextRequest) := by
  have hfresh := (h.ledger.fresh s.nextRequest le_rfl).2
  have hsubmit := h.ledger.submit bytes completion origin
  have hledger : Ledger s.txQueue ((s.submit bytes completion origin).reject s.nextRequest) := by
    refine Ledger.complete ?_ (by rintro ⟨⟩)
    refine hsubmit.gained rfl rfl ?_
    exact Gained.cons (Nat.lt_succ_self s.nextRequest)
  have hdecided : Decided ((s.submit bytes completion origin).reject s.nextRequest).history := by
    rw [Decided.reject_history]
    exact h.decided.reject hfresh
  have hold : ∀ e ∈ s.history,
      e ∈ ((s.submit bytes completion origin).reject s.nextRequest).history := by
    intro e he
    rw [Decided.reject_history]
    simp [he]
  have hline : ((s.submit bytes completion origin).reject s.nextRequest).line = s.line :=
    line_congr (by simp)
  have hwrites : ((s.submit bytes completion origin).reject s.nextRequest).writes = s.writes :=
    reject_writes _
  have hqueue : ((s.submit bytes completion origin).reject s.nextRequest).txQueue = s.txQueue :=
    complete_txQueue
  have hprogress : ((s.submit bytes completion origin).reject s.nextRequest).txWriteInProgress =
      s.txWriteInProgress := complete_txWriteInProgress
  have hnext : ((s.submit bytes completion origin).reject s.nextRequest).nextRequest =
      s.nextRequest + 1 := complete_nextRequest
  have hconnected : ((s.submit bytes completion origin).reject s.nextRequest).isConnected =
      s.isConnected := congrArg Prod.fst hline
  generalize (s.submit bytes completion origin).reject s.nextRequest = s₁ at *
  refine ⟨⟨?_, hdecided, ?_, ?_⟩, ?_, ?_⟩
  · rw [hqueue]
    exact hledger
  · intro r hr
    rw [hqueue] at hr
    obtain ⟨hlt, connection, hconn, hmem⟩ := h.queued r hr
    rw [hnext, connection_of_line hline]
    exact ⟨Nat.lt_succ_of_lt hlt, connection, hconn, hold _ hmem⟩
  · exact h.flight.congr hline hwrites hqueue hprogress
  · rw [hprogress, hqueue]
    exact h.settled
  · rw [hqueue, hconnected]
    exact h.closed

/-- A request that comes in, and is queued. -/
theorem TransmitPre.accept (h : TransmitPre s) (hopen : s.portOpen = true) (bytes : List UInt8)
    (completion : Option SendCompletion) (origin : Option (UInt8 × Nat)) :
    TransmitPre ((s.submit bytes completion origin).accept s.nextRequest) := by
  have hfresh := (h.ledger.fresh s.nextRequest le_rfl).2
  have hledger : Ledger (s.txQueue ++ [s.nextRequest])
      ((s.submit bytes completion origin).accept s.nextRequest) := by
    have hsubmit : Ledger (s.txQueue ++ [s.nextRequest]) (s.submit bytes completion origin) :=
      (h.ledger.submit bytes completion origin).mono fun r hr => by simpa [or_comm] using hr
    refine hsubmit.gained rfl rfl ?_
    exact Gained.cons (Nat.lt_succ_self s.nextRequest)
  obtain ⟨port, hport⟩ : ∃ port, s.serialPort = some port := by
    cases hport : s.serialPort with
    | none =>
      unfold portOpen at hopen
      rw [hport] at hopen
      cases hopen
    | some port => exact ⟨port, rfl⟩
  have hconnection : s.connection = some ⟨port.id, s.connectionGeneration⟩ := by
    rw [connection, hport]
    rfl
  refine ⟨hledger, h.decided.accept hfresh, ?_, ?_⟩
  · intro r hr
    rcases List.mem_append.mp hr with hr | hr
    · obtain ⟨hlt, connection, hconn, hmem⟩ := h.queued r hr
      exact ⟨Nat.lt_succ_of_lt hlt, connection, hconn,
        List.mem_cons_of_mem _ (List.mem_cons_of_mem _ hmem)⟩
    · obtain rfl := List.mem_singleton.mp hr
      refine ⟨Nat.lt_succ_self s.nextRequest, _, hconnection, ?_⟩
      show HistoryEvent.accepted s.nextRequest (some ⟨port.id, s.connectionGeneration⟩) ∈
        .accepted s.nextRequest s.connection :: _
      rw [hconnection]
      exact List.mem_cons_self
  · constructor
    · exact h.flight.older
    · exact h.flight.port
    · exact h.flight.noPort
    · exact h.flight.idle
    · intro hbusy
      obtain ⟨request, rest, port, hqueue, hrest⟩ := h.flight.busy hbusy
      refine ⟨request, rest ++ [s.nextRequest], port, ?_, hrest⟩
      show s.txQueue ++ [s.nextRequest] = _
      rw [hqueue, List.cons_append]

/-- A write of the current connection has a port. -/
theorem TransmitPre.connected_of_isCurrent (h : TransmitPre s) {write : PendingWrite}
    (hcurrent : s.isCurrent write.port write.generation = true) : s.isConnected = true := by
  rw [isCurrent_iff, connection] at hcurrent
  cases hport : s.serialPort with
  | none =>
    rw [hport] at hcurrent
    cases hcurrent
  | some port => exact (h.flight.port port hport).2.2

/-- **Every move keeps the invariant.** -/
theorem TransmitInv.move (h : TransmitInv ok s) (hmove : CoreMove p ok s s') :
    TransmitInv ok s' := by
  have hfinished : ∀ {index : Nat} {write : PendingWrite} (result : IoResult)
      (hwrite : s.writes[index]? = some write)
      (hcurrent : s.isCurrent write.port write.generation = true),
      (ControllerCore.finishWrite write.request (result = .success)
        (noteWrite write result (dropWrite index s))).isConnected = true := by
    intro index write result _ hcurrent
    have hport := (finishWrite_portState (s := noteWrite write result (dropWrite index s))
      write.request (result = .success)).trans (noteWrite_portState write result)
    exact (congrArg PortState.isConnected hport).trans
      (h.toTransmitPre.connected_of_isCurrent hcurrent)
  cases hmove with
  | same => exact h
  | note event hevent => exact h.silent rfl rfl (.cons (silent_of_noted hevent))
  | handshake => exact h.silent rfl rfl (.cons rfl)
  | expire => exact h.silent rfl rfl (.refl _)
  | op hop => exact h.silent hop.txState (line_congr hop.portState) hop.silent
  | rejected hoffer =>
    exact (h.silent hoffer.txState (line_congr hoffer.portState) hoffer.silent).reject _ _ _
  | accepted hoffer hconn hopen _ _ hnext =>
    have hcore := h.silent hoffer.txState (line_congr hoffer.portState) hoffer.silent
    exact (hcore.toTransmitPre.accept hopen _ _ _).startsNext hconn hnext
  | @writeStale index write hwrite hstale result =>
    have hdrop : TransmitInv ok (dropWrite index s) := by
      refine ⟨⟨⟨h.ledger.fresh, h.ledger.awaited, h.ledger.settled, h.ledger.once, h.ledger.success⟩,
        h.decided, h.queued, ?_⟩, h.settled, h.closed⟩
      have hcurrent : (dropWrite index s).currentWrites = s.currentWrites :=
        filter_eraseIdx_of_not hwrite hstale
      constructor
      · exact fun write hwrite => h.flight.older write (List.mem_of_mem_eraseIdx hwrite)
      · exact h.flight.port
      · exact h.flight.noPort
      · rw [hcurrent]
        exact h.flight.idle
      · rw [hcurrent]
        exact h.flight.busy
    exact hdrop.silent (noteWrite_txState _ _) (line_congr (noteWrite_portState _ _))
      (noteWrite_silent _ _)
  | writeDone hwrite hcurrent hnext =>
    exact (h.toTransmitPre.finishWrite hwrite hcurrent .success).startsNext
      (hfinished .success hwrite hcurrent) hnext
  | writeFails hwrite hcurrent => exact (h.toTransmitPre.finishWrite hwrite hcurrent .failure).reset
  | writeAborted hwrite hcurrent habort =>
    refine ⟨h.toTransmitPre.finishWrite hwrite hcurrent .operationAborted,
      fun hno => absurd habort hno, fun hgone => ?_⟩
    have hconn := hfinished .operationAborted hwrite hcurrent
    have hgone : _ = false := hgone
    rw [show ControllerCore.finishWrite _ false (dropWrite _ s) = ControllerCore.finishWrite _
      (IoResult.operationAborted = .success) (noteWrite _ .operationAborted (dropWrite _ s)) from rfl,
      hconn] at hgone
    cases hgone
  | reset => exact h.toTransmitPre.reset

theorem transmit_invariant : CoreInvariant p ok (TransmitInv ok) where
  initial := by
    refine ⟨⟨⟨fun _ _ => ⟨rfl, List.forall_mem_nil _⟩, ?_, ?_, fun _ => Nat.zero_le 1, trivial⟩,
      ⟨?_, ?_⟩, List.forall_mem_nil _, ⟨List.forall_mem_nil _, ?_, fun _ => rfl, fun _ => rfl, ?_⟩⟩,
      fun _ _ => rfl, fun _ => rfl⟩
    · rintro r c ⟨⟩
    · rintro r c ⟨⟩
    · rintro r completion ⟨⟩
    · rintro r c ⟨⟩
    · rintro port ⟨⟩
    · rintro ⟨⟩
  move h hmove := h.move hmove
  connect h hconn := h.connect hconn

end Transmit

-- ---------------------------------------------------------------------------
-- The result
-- ---------------------------------------------------------------------------

open Controller

/-- What is claimed of the requests between two handlers. -/
structure TransmitSound (s : ControllerCore) : Prop where
  /-- No completion is invoked twice. -/
  once : ∀ r, (s.history.filter (·.completes r)).length ≤ 1
  /-- A request is accepted or rejected. -/
  decided : ∀ r completion, .submitted r completion ∈ s.history →
    .rejected r ∈ s.history ∨ ∃ connection, .accepted r connection ∈ s.history
  /-- A rejected one was completed with false. -/
  rejected : ∀ r c, .submitted r (some c) ∈ s.history → .rejected r ∈ s.history →
    .completed r false ∈ s.history
  /-- An accepted one whose completion was not invoked is in the queue. -/
  accepted : ∀ r c connection, .submitted r (some c) ∈ s.history →
    .accepted r connection ∈ s.history → (∀ success, .completed r success ∉ s.history) →
    r ∈ s.txQueue
  /-- Success is reported after the request was written on the connection it was accepted on. -/
  success : Recorded (fun e older => ∀ r, e = .completed r true → WrittenOut r older) s.history
  /-- While requests are queued, one write of the current connection is in flight: the front's. -/
  inFlight : s.txQueue ≠ [] → s.isConnected = true ∧ s.portOpen = true ∧
    ∃ request rest port, s.txQueue = request :: rest ∧ s.serialPort = some port ∧
      s.currentWrites = [⟨port.id, s.connectionGeneration, request⟩]

theorem TransmitInv.sound {s : ControllerCore} {ok : Allowed} (hok : ¬ ok.abort)
    (h : TransmitInv ok s) : TransmitSound s := by
  refine ⟨h.ledger.once, h.decided.decided, h.decided.rejected, ?_, h.ledger.success, ?_⟩
  · intro r c connection hsubmitted _ hnone
    rcases h.ledger.settled r c hsubmitted with hsome | ⟨success, hcompleted⟩
    · exact (h.ledger.awaited r c hsome).1
    · exact absurd hcompleted (hnone success)
  · intro hqueue
    have hbusy : s.txWriteInProgress = true := by
      by_contra hidle
      exact hqueue (h.settled hok ((Bool.not_eq_true _).mp hidle))
    obtain ⟨request, rest, port, hrest, hport, hone⟩ := h.flight.busy hbusy
    obtain ⟨-, hopen, hconn⟩ := h.flight.port port hport
    refine ⟨hconn, ?_, request, rest, port, hrest, hport, hone⟩
    rw [ControllerCore.portOpen, hport]
    exact hopen

/-- `operation_aborted` is delivered for a write that `reset_serial` cancelled. -/
def AbortsCancelled (s : Controller) : ControllerEvent → Prop
  | .writeDone index .operationAborted =>
    ∀ write ∈ s.writes[index]?, s.isCurrent write.port write.generation = false
  | _ => True

instance decidableAbortsCancelled (s : Controller) : DecidablePred (AbortsCancelled s)
  | .writeDone index .operationAborted =>
    inferInstanceAs (Decidable (∀ write ∈ s.writes[index]?,
      s.isCurrent write.port write.generation = false))
  | .writeDone _ .success => .isTrue trivial
  | .writeDone _ .failure => .isTrue trivial
  | .connectionTimer => .isTrue trivial
  | .heartbeatTimer => .isTrue trivial
  | .sendPacket _ _ => .isTrue trivial
  | .reliableSend _ _ => .isTrue trivial
  | .retryTimer _ _ => .isTrue trivial
  | .run _ _ => .isTrue trivial
  | .readDone _ _ _ => .isTrue trivial

/-- The moves when only cancelled writes are aborted. -/
def noAborts : Allowed := ⟨fun _ _ => True, False, True⟩

theorem AbortsCancelled.permitted {p : Protocol} {throws : Nat → Bool} {s : Controller}
    {event : ControllerEvent} (h : AbortsCancelled s event) : Permitted p throws noAborts s event where
  ingest _ _ data _ _ _ _ := moves_ingestReceivedBytes (fun _ _ _ => trivial) data _
  abort index write hevent hwrite hcurrent := by
    subst hevent
    have hstale := h write hwrite
    rw [hcurrent] at hstale
    cases hstale
  turn _ := trivial

variable {p : Protocol} {throws : Nat → Bool} {s : Controller}

/-- **Every transmit request is completed exactly once and none is stranded.** -/
theorem transmit_sound (h : (controllerMachine p throws).ReachableBy AbortsCancelled s) :
    TransmitSound s.toControllerCore :=
  (transmit_invariant.reachable (fun _ _ hevent => hevent.permitted) h).sound
    fun h => h

/-- The connection is lost while a message is being written, the write is cancelled, and the message
is written again on the next connection. -/
def retransmitEvents (p : Protocol) : List ControllerEvent :=
  connectEvents ++
  [.readDone 0 .success (frame p packetIdHandshake (leBytes 4 p.protocolHash.toNat)),
    .run 0 0, .writeDone 0 .success, .reliableSend 2 [1, 0, 0, 0], .run 0 0,
    .readDone 0 .failure [], .connectionTimer, .run 0 0, .writeDone 0 .operationAborted,
    .readDone 0 .success (frame p packetIdHandshake (leBytes 4 p.protocolHash.toNat)),
    .retryTimer 2 0, .run 1 0]

theorem transmit_sound_demo : ∃ s,
    throwingRun demoProtocol 100 (fun s event => decide (AbortsCancelled s event))
      (retransmitEvents demoProtocol) = some s ∧
    s.txQueue = [2] ∧ TransmitSound s.toControllerCore := by
  have hrun : (throwingRun demoProtocol 100 (fun s event => decide (AbortsCancelled s event))
      (retransmitEvents demoProtocol)).map (·.txQueue) = some [2] := by decide +kernel
  obtain ⟨s, hs, hqueue⟩ := Option.map_eq_some_iff.mp hrun
  exact ⟨s, hs, hqueue,
    transmit_sound (reachableBy_of_throwingRun (fun _ _ hcheck => of_decide_eq_true hcheck) hs)⟩

end AutoSerialBridge
