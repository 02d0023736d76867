import AutoSerialBridge.Controller.Handshake

/-!
# Auto Serial Bridge — the heartbeat window

The four heartbeat members against the history. A count is outstanding (`Outstanding`) when it was
sent on the current connection and no echo of it was handled in `RUNNING` since. With the strict check
switched on, the members know exactly that (`HeartbeatInv.window`): an outstanding count is the last
one sent, and there is one exactly while `awaiting_heartbeat_ack_` is set.

## Results

* `heartbeat_window` — **the timer resets the connection exactly when the window of an outstanding
  count has closed**, and sends that count again while it is open.
* `not_heartbeatsWatched_wrapped` — a timeout that wraps to zero switches the check off.
-/

namespace AutoSerialBridge

open Lib

-- ---------------------------------------------------------------------------
-- What the history gains
-- ---------------------------------------------------------------------------

/-- The event says nothing about heartbeats. -/
def HistoryEvent.Plain : HistoryEvent → Prop
  | .received _ _ _ => False
  | .heartbeatSent _ _ _ => False
  | _ => True

/-- A history has gained plain events. -/
def Gains (old new : List HistoryEvent) : Prop := ∃ events, new = events ++ old ∧ ∀ e ∈ events, e.Plain

namespace Gains

variable {a b c : List HistoryEvent}

theorem refl (a : List HistoryEvent) : Gains a a := ⟨[], rfl, nofun⟩

theorem cons {e : HistoryEvent} (he : e.Plain) : Gains a (e :: a) :=
  ⟨[e], rfl, fun _ h => List.mem_singleton.mp h ▸ he⟩

theorem trans (h : Gains a b) (h' : Gains b c) : Gains a c := by
  obtain ⟨events, rfl, hall⟩ := h
  obtain ⟨events', rfl, hall'⟩ := h'
  refine ⟨events' ++ events, (List.append_assoc ..).symm, fun e he => ?_⟩
  exact (List.mem_append.mp he).elim (hall' e) (hall e)

end Gains

/-- A Heartbeat packet with the count was handled in `RUNNING`. -/
def Echoed (p : Protocol) (count : UInt32) (events : List HistoryEvent) : Prop :=
  ∃ connection pkt, .received connection .running pkt ∈ events ∧ Controller.IsEcho p pkt count

/-- The count was sent for the first time at `t` on the connection, and not echoed since. -/
def Outstanding (p : Protocol) (connection : Option Connection) (history : List HistoryEvent)
    (count : UInt32) (t : Int) : Prop :=
  ∃ newer older, history = newer ++ .heartbeatSent connection count t :: older ∧
    ¬ Echoed p count newer

/-- Whenever a new count was sent, none was outstanding on its connection. -/
def SentInTurn (p : Protocol) (history : List HistoryEvent) : Prop :=
  ∀ newer connection count t older, history = newer ++ .heartbeatSent connection count t :: older →
    ∀ count' t', ¬ Outstanding p connection older count' t'

section History

variable {p : Protocol} {connection : Option Connection} {history history' : List HistoryEvent}
  {count : UInt32} {t : Int}

theorem Echoed.of_plain {e : HistoryEvent} (he : e.Plain) : ¬ Echoed p count [e] := by
  rintro ⟨_, _, hmem, -⟩
  rw [← List.mem_singleton.mp hmem] at he
  exact he

theorem echoed_cons {e : HistoryEvent} {events : List HistoryEvent} :
    Echoed p count (e :: events) ↔ Echoed p count [e] ∨ Echoed p count events := by
  constructor
  · rintro ⟨connection, pkt, hmem, hecho⟩
    rcases List.mem_cons.mp hmem with rfl | hmem
    · exact .inl ⟨connection, pkt, List.mem_singleton_self _, hecho⟩
    · exact .inr ⟨connection, pkt, hmem, hecho⟩
  · rintro (⟨connection, pkt, hmem, hecho⟩ | ⟨connection, pkt, hmem, hecho⟩)
    · exact ⟨connection, pkt, List.mem_cons.mpr (.inl (List.mem_singleton.mp hmem)), hecho⟩
    · exact ⟨connection, pkt, List.mem_cons_of_mem _ hmem, hecho⟩

/-- One event more: it sends the count, or it is no echo of it. -/
theorem outstanding_cons {e : HistoryEvent} :
    Outstanding p connection (e :: history) count t ↔
      e = .heartbeatSent connection count t ∨
        Outstanding p connection history count t ∧ ¬ Echoed p count [e] := by
  constructor
  · rintro ⟨newer, older, heq, hnot⟩
    cases newer with
    | nil => exact .inl (List.cons.inj heq).1
    | cons e' newer =>
      obtain ⟨rfl, hrest⟩ := List.cons.inj heq
      rw [echoed_cons, not_or] at hnot
      exact .inr ⟨⟨newer, older, hrest, hnot.2⟩, hnot.1⟩
  · rintro (rfl | ⟨⟨newer, older, rfl, hnot⟩, he⟩)
    · exact ⟨[], history, rfl, by rintro ⟨_, _, hmem, -⟩; cases hmem⟩
    · refine ⟨e :: newer, older, rfl, ?_⟩
      rw [echoed_cons, not_or]
      exact ⟨he, hnot⟩

theorem outstanding_cons_of_plain {e : HistoryEvent} (he : e.Plain) :
    Outstanding p connection (e :: history) count t ↔ Outstanding p connection history count t := by
  rw [outstanding_cons]
  constructor
  · rintro (rfl | h)
    · exact he.elim
    · exact h.1
  · exact fun h => .inr ⟨h, Echoed.of_plain he⟩

theorem Gains.outstanding_iff (h : Gains history history') :
    Outstanding p connection history' count t ↔ Outstanding p connection history count t := by
  obtain ⟨events, rfl, hall⟩ := h
  induction events with
  | nil => rfl
  | cons e events ih =>
    rw [List.forall_mem_cons] at hall
    rw [List.cons_append, outstanding_cons_of_plain hall.1, ih hall.2]

theorem Gains.mem_heartbeatSent (h : Gains history history')
    (hmem : .heartbeatSent connection count t ∈ history') :
    .heartbeatSent connection count t ∈ history := by
  obtain ⟨events, rfl, hall⟩ := h
  exact (List.mem_append.mp hmem).resolve_left fun hmem => hall _ hmem

theorem Outstanding.mem (h : Outstanding p connection history count t) :
    .heartbeatSent connection count t ∈ history := by
  obtain ⟨newer, older, rfl, -⟩ := h
  simp

theorem SentInTurn.cons {e : HistoryEvent} (h : SentInTurn p history)
    (he : ∀ connection count t, e = .heartbeatSent connection count t →
      ∀ count' t', ¬ Outstanding p connection history count' t') : SentInTurn p (e :: history) := by
  intro newer connection count t older heq
  cases newer with
  | nil =>
    obtain ⟨rfl, rfl⟩ := List.cons.inj heq
    exact he connection count t rfl
  | cons e' newer => exact h newer connection count t older (List.cons.inj heq).2

theorem SentInTurn.gains (h : SentInTurn p history) (hgains : Gains history history') :
    SentInTurn p history' := by
  obtain ⟨events, rfl, hall⟩ := hgains
  induction events with
  | nil => exact h
  | cons e events ih =>
    rw [List.forall_mem_cons] at hall
    refine (ih hall.2).cons fun connection count t he => ?_
    rw [he] at hall
    exact hall.1.elim

end History

namespace ControllerCore

variable {p : Protocol} {s : ControllerCore}

theorem complete_gains (request : Nat) (success : Bool) :
    Gains s.history (complete request success s).history := by
  unfold complete
  split
  · exact Gains.cons trivial
  · exact .refl _

theorem failTxQueue_gains : Gains s.history (failTxQueue s).history :=
  failTxQueue_keeps (I := fun s' => Gains s.history s'.history)
    (fun _ _ h => h.trans (complete_gains _ _)) (fun _ h => h) (.refl _)

theorem submit_gains (bytes : List UInt8) (completion : Option SendCompletion)
    (origin : Option (UInt8 × Nat)) : Gains s.history (submit bytes completion origin s).history :=
  Gains.cons (e := .submitted s.nextRequest completion) trivial

theorem accept_gains (request : Nat) : Gains s.history (accept request s).history :=
  Gains.cons (e := .accepted request s.connection) trivial

theorem reject_gains (request : Nat) : Gains s.history (reject request s).history :=
  Gains.trans (.cons (e := .rejected request) trivial) (complete_gains _ _)

theorem noteWrite_gains (write : PendingWrite) (result : IoResult) :
    Gains s.history (noteWrite write result s).history := by
  unfold noteWrite
  split_ifs
  · exact Gains.cons trivial
  · exact .refl _

theorem finishWrite_gains (request : Nat) (success : Bool) :
    Gains s.history (finishWrite request success s).history := by
  unfold finishWrite
  exact complete_gains (s := { s with
    txWriteInProgress := false
    txQueue := if s.txQueue.head? = some request then s.txQueue.tail else s.txQueue }) request success

theorem reset_gains : Gains s.history (reset p s).history := by
  unfold reset
  exact failTxQueue_gains (s := { s with
    isConnected := false
    connectionGeneration := s.connectionGeneration + 1
    reliableSender :=
      if s.shuttingDown then s.reliableSender.clearAllImpl else s.reliableSender })

theorem updateSender_gains (r : ReliableSender × Option SendRequest) :
    Gains s.history (updateSender r s).history := by
  unfold updateSender
  cases r.2 with
  | none => exact .refl _
  | some req => exact Gains.cons trivial

theorem updateAcked_gains (ackedId ackSeq : UInt8) :
    Gains s.history (updateAcked p ackedId ackSeq s).history := by
  unfold updateAcked
  simp only
  split_ifs
  · exact updateSender_gains _
  · exact Gains.trans (.cons (e := .acked ackedId (s.reliableSender.acked ackedId)) trivial)
      (updateSender_gains _)

end ControllerCore

theorem SenderOp.gains {p : Protocol} {s core : ControllerCore} {req : Option SendRequest}
    (h : SenderOp p s core req) : Gains s.history core.history := by
  cases h with
  | send => exact ControllerCore.updateSender_gains _
  | timeout => exact ControllerCore.updateSender_gains _
  | ack => exact ControllerCore.updateAcked_gains _ _

theorem Offer.gains {p : Protocol} {s core : ControllerCore} {bytes : List UInt8}
    {completion : Option SendCompletion} {origin : Option (UInt8 × Nat)}
    (h : Offer p s core bytes completion origin) : Gains s.history core.history := by
  cases h with
  | plain => exact .refl _
  | reliable h => exact h.gains

namespace Controller

variable {p : Protocol} {ok : Allowed} {throws : Nat → Bool} {s s' : Controller}

-- ---------------------------------------------------------------------------
-- The heartbeat members
-- ---------------------------------------------------------------------------

/-- The members that describe the window: the last count, when it was first sent, and whether it is
awaited. -/
structure Window where
  lastCount : UInt32
  startedAt : Int
  awaiting : Bool

def window (s : Controller) : Window where
  lastCount := s.lastHeartbeatTxCount
  startedAt := s.heartbeatAckWaitStartedAt
  awaiting := s.awaitingHeartbeatAck

@[simp] theorem onCore_window (f : ControllerCore → ControllerCore) :
    (onCore f s).window = s.window := rfl

@[simp] theorem withCore_window (core : ControllerCore) : (withCore core s).window = s.window := rfl

@[simp] theorem countSent_window : (countSent s).window = s.window := rfl

@[simp] theorem publishReady_window (ready : Bool) : (publishReady ready s).window = s.window := by
  unfold publishReady
  split_ifs <;> rfl

@[simp] theorem postSerial_window (task : StrandTask) : (postSerial task s).window = s.window := by
  unfold postSerial
  split_ifs <;> rfl

@[simp] theorem notifySerialOpsDrained_window : (notifySerialOpsDrained s).window = s.window := by
  unfold notifySerialOpsDrained
  split_ifs <;> rfl

@[simp] theorem completeSerialOp_window : (completeSerialOp s).window = s.window := by
  unfold completeSerialOp
  simp only
  split_ifs
  · exact notifySerialOpsDrained_window
  · rfl
  · exact notifySerialOpsDrained_window
  · rfl

@[simp] theorem endWrite_window (index : Nat) (write : PendingWrite) (result : IoResult) :
    (endWrite index write result s).window = s.window :=
  completeSerialOp_window

theorem resetSerial_awaiting : (resetSerial p s).awaitingHeartbeatAck = false := by
  unfold resetSerial notifySerialOpsDrained
  simp only
  split_ifs <;> rfl

theorem endWrite_gains (index : Nat) (write : PendingWrite) (result : IoResult) :
    Gains s.history (endWrite index write result s).history := by
  rw [endWrite_core]
  exact ControllerCore.noteWrite_gains
    (s := { s.toControllerCore with writes := s.writes.eraseIdx index }) write result

theorem finishWrite_gains (request : Nat) (success : Bool) :
    Gains s.history (onCore (ControllerCore.finishWrite request success) s).history :=
  ControllerCore.finishWrite_gains request success

/-- What a move does that is not about heartbeats: nothing to the window, or it resets the
connection. -/
inductive Quiet (p : Protocol) (s s' : Controller) : Prop where
  | same (hport : s'.portState = s.portState) (hwindow : s'.window = s.window)
      (hgains : Gains s.history s'.history)
  | reset (hport : s'.portState = s.portState.reset p) (hawaiting : s'.awaitingHeartbeatAck = false)
      (hgains : Gains s.history s'.history)

theorem quiet_reset : Quiet p s (resetSerial p s) :=
  .reset (by simp) resetSerial_awaiting (by rw [resetSerial_core]; exact ControllerCore.reset_gains)

theorem Quiet.congr {s₀ : Controller} (h : Quiet p s s') (hport : s.portState = s₀.portState)
    (hwindow : s.window = s₀.window) (hgains : Gains s₀.history s.history) : Quiet p s₀ s' := by
  cases h with
  | same hport' hwindow' hgains' =>
    exact .same (hport'.trans hport) (hwindow'.trans hwindow) (hgains.trans hgains')
  | reset hport' hawaiting hgains' =>
    exact .reset (hport' ▸ hport ▸ rfl) hawaiting (hgains.trans hgains')

theorem StartNext.quiet (h : StartNext p s s') : Quiet p s s' := by
  cases h with
  | idle => exact .same rfl rfl (.refl _)
  | gone => exact .same (by simp) rfl ControllerCore.failTxQueue_gains
  | begin => exact .same (by simp) rfl (Gains.cons trivial)
  | fails request rest port =>
    refine quiet_reset.congr (by simp) (by simp; rfl) ?_
    rw [completeSerialOp_core]
    exact Gains.cons trivial

-- ---------------------------------------------------------------------------
-- The invariant
-- ---------------------------------------------------------------------------

/-- The heartbeat members and the history. -/
structure HeartbeatInv (p : Protocol) (s : Controller) : Prop where
  port : s.isConnected = true → s.serialPort ≠ none
  fresh : ∀ port, s.serialPort = some port → port.id < s.nextPort
  sent : ∀ connection count t, .heartbeatSent connection count t ∈ s.history →
    ∃ c, connection = some c ∧ c.port < s.nextPort
  running : s.awaitingHeartbeatAck = true → s.state = .running
  window : ∀ count t, Outstanding p s.connection s.history count t ↔
    s.awaitingHeartbeatAck = true ∧ count = s.lastHeartbeatTxCount ∧ t = s.heartbeatAckWaitStartedAt
  inTurn : SentInTurn p s.history

/-- The members of a `PortState` one by one. -/
theorem portState_inj {c c' : ControllerCore} (h : c.portState = c'.portState) :
    c.isConnected = c'.isConnected ∧ c.serialPort = c'.serialPort ∧
      c.connectionGeneration = c'.connectionGeneration ∧ c.state = c'.state ∧
      c.nextPort = c'.nextPort := by
  have h := PortState.mk.inj h
  exact ⟨h.1, h.2.1, h.2.2.1, h.2.2.2.1, h.2.2.2.2.1⟩

theorem connection_congr {c c' : ControllerCore} (h : c.portState = c'.portState) :
    c.connection = c'.connection := by
  obtain ⟨-, hport, hgeneration, -⟩ := portState_inj h
  unfold ControllerCore.connection
  rw [hport, hgeneration]

namespace HeartbeatInv

/-- The window is closed when nothing is awaited. -/
theorem closed (h : HeartbeatInv p s) (hawaiting : s.awaitingHeartbeatAck = false) (count : UInt32)
    (t : Int) : ¬ Outstanding p s.connection s.history count t := by
  rw [h.window, hawaiting]
  simp

/-- No count was sent without a connection. -/
theorem not_outstanding_none (h : HeartbeatInv p s) (count : UInt32) (t : Int) :
    ¬ Outstanding p none s.history count t := by
  intro hout
  obtain ⟨c, hc, -⟩ := h.sent _ _ _ hout.mem
  cases hc

theorem quiet (h : HeartbeatInv p s) (hquiet : Quiet p s s') : HeartbeatInv p s' := by
  cases hquiet with
  | same hport hwindow hgains =>
    obtain ⟨hconn, hserial, -, hstate, hnext⟩ := portState_inj hport
    obtain ⟨hlast, hstarted, hawaiting⟩ := Window.mk.inj hwindow
    refine ⟨?_, ?_, ?_, ?_, ?_, h.inTurn.gains hgains⟩
    · rw [hconn, hserial]
      exact h.port
    · rw [hserial, hnext]
      exact h.fresh
    · rw [hnext]
      exact fun connection count t hmem => h.sent connection count t (hgains.mem_heartbeatSent hmem)
    · rw [hawaiting, hstate]
      exact h.running
    · intro count t
      rw [connection_congr hport, hgains.outstanding_iff, hawaiting, hlast, hstarted]
      exact h.window count t
  | reset hport hawaiting hgains =>
    have hconn : s'.isConnected = false := congrArg PortState.isConnected hport
    have hserial : s'.serialPort = none := congrArg PortState.serialPort hport
    have hnext : s'.nextPort = s.nextPort := congrArg PortState.nextPort hport
    have hconnection : s'.connection = none := by
      unfold ControllerCore.connection
      rw [hserial]
      rfl
    refine ⟨?_, ?_, ?_, ?_, ?_, h.inTurn.gains hgains⟩
    · simp [hconn]
    · simp [hserial]
    · rw [hnext]
      exact fun connection count t hmem => h.sent connection count t (hgains.mem_heartbeatSent hmem)
    · simp [hawaiting]
    · intro count t
      rw [hconnection, hgains.outstanding_iff, hawaiting]
      simp [h.not_outstanding_none]

/-- A packet is handled; if it is the echo, the window closes. -/
theorem receive (h : HeartbeatInv p s) (pkt : Packet) {awaiting : Bool}
    (hawaiting : ∀ count t, Outstanding p s.connection (.received s.connection s.state pkt :: s.history)
      count t ↔ awaiting = true ∧ count = s.lastHeartbeatTxCount ∧ t = s.heartbeatAckWaitStartedAt)
    (hrunning : awaiting = true → s.state = .running) :
    HeartbeatInv p { onCore (ControllerCore.receive pkt) s with awaitingHeartbeatAck := awaiting } := by
  refine ⟨h.port, h.fresh, fun connection count t hmem => ?_, hrunning, hawaiting, ?_⟩
  · refine h.sent connection count t ((List.mem_cons.mp hmem).resolve_left nofun)
  · exact h.inTurn.cons nofun

/-- What a packet does to the window of a count. -/
theorem outstanding_receive {pkt : Packet} {count : UInt32} {t : Int} :
    Outstanding p s.connection (.received s.connection s.state pkt :: s.history) count t ↔
      Outstanding p s.connection s.history count t ∧ ¬ (s.state = .running ∧ IsEcho p pkt count) := by
  rw [outstanding_cons]
  constructor
  · rintro (h | ⟨hout, hecho⟩)
    · cases h
    · refine ⟨hout, fun ⟨hstate, h⟩ => hecho ⟨s.connection, pkt, ?_, h⟩⟩
      rw [hstate]
      exact List.mem_singleton_self _
  · rintro ⟨hout, hecho⟩
    refine .inr ⟨hout, fun ⟨connection, pkt', hmem, h⟩ => hecho ?_⟩
    obtain ⟨rfl, hstate, rfl⟩ := HistoryEvent.received.inj (List.mem_singleton.mp hmem)
    exact ⟨hstate.symm, h⟩

/-- The first heartbeat of a window. -/
theorem heartbeat (h : HeartbeatInv p s) (now : Int) (hconn : s.isConnected = true)
    (hstate : s.state = .running) (hawaiting : s.awaitingHeartbeatAck = false) :
    HeartbeatInv p (startHeartbeat now s) := by
  have hclosed := h.closed hawaiting
  refine ⟨h.port, h.fresh, fun connection count t hmem => ?_, fun _ => hstate, fun count t => ?_, ?_⟩
  · rcases List.mem_cons.mp hmem with heq | hmem
    · obtain ⟨rfl, -, -⟩ := HistoryEvent.heartbeatSent.inj heq
      obtain ⟨port, hport⟩ := Option.ne_none_iff_exists'.mp (h.port hconn)
      exact ⟨⟨port.id, s.connectionGeneration⟩, by simp [ControllerCore.connection, hport],
        h.fresh port hport⟩
    · exact h.sent connection count t hmem
  · show Outstanding p s.connection (.heartbeatSent s.connection s.heartbeatCount now :: s.history)
      count t ↔ true = true ∧ count = s.heartbeatCount ∧ t = now
    rw [outstanding_cons]
    constructor
    · rintro (heq | ⟨hout, -⟩)
      · obtain ⟨-, rfl, rfl⟩ := HistoryEvent.heartbeatSent.inj heq
        exact ⟨rfl, rfl, rfl⟩
      · exact absurd hout (hclosed count t)
    · rintro ⟨-, rfl, rfl⟩
      exact .inl rfl
  · refine h.inTurn.cons fun connection count t heq => ?_
    obtain ⟨rfl, -, -⟩ := HistoryEvent.heartbeatSent.inj heq
    exact hclosed

/-- **What every move keeps**, with the strict check switched on. -/
theorem move (h : HeartbeatInv p s) (hstrict : p.strictHeartbeat = true)
    (htimeout : 0 < p.heartbeatTimeoutMs) (hmove : Move p ok s s') : HeartbeatInv p s' := by
  cases hmove with
  | quiet => exact h.quiet (.same rfl rfl (.refl _))
  | post => exact h.quiet (.same (by simp) (by simp) (by rw [postSerial_core]; exact .refl _))
  | take => exact h.quiet (.same rfl rfl (.refl _))
  | expire => exact h.quiet (.same rfl rfl (.refl _))
  | receive hecho =>
    refine h.receive _ (fun count t => ?_) h.running
    rw [outstanding_receive, ← h.window]
    refine and_iff_left_of_imp fun hout => ?_
    obtain ⟨-, rfl, -⟩ := (h.window count t).mp hout
    exact fun ⟨hstate, h⟩ => hecho hstate h
  | echo hstate hecho =>
    refine h.receive _ (fun count t => ?_) nofun
    rw [outstanding_receive, h.window]
    constructor
    · rintro ⟨⟨-, rfl, -⟩, hnot⟩
      exact absurd ⟨hstate, hecho⟩ hnot
    · rintro ⟨h, -⟩
      cases h
  | @handshake pkt hstate hpkt =>
    have hawaiting : s.awaitingHeartbeatAck = false :=
      Bool.eq_false_iff.mpr fun h' => hstate (h.running h')
    have hreceived : HeartbeatInv p { onCore (ControllerCore.receive pkt) s with
        awaitingHeartbeatAck := false } := by
      refine h.receive pkt (fun count t => ?_) nofun
      rw [outstanding_receive, h.window, hawaiting]
      simp
    have hcore : (acceptHandshake (onCore (ControllerCore.receive pkt) s)).toControllerCore =
        { s.toControllerCore.receive pkt with state := .running } := by
      simp [acceptHandshake]
    have hclosed : (acceptHandshake (onCore (ControllerCore.receive pkt) s)).awaitingHeartbeatAck =
        false := by
      unfold acceptHandshake
      exact congrArg Window.awaiting (publishReady_window true)
    refine ⟨?_, ?_, ?_, ?_, fun count t => ?_, ?_⟩
    · rw [hcore]
      exact hreceived.port
    · rw [hcore]
      exact hreceived.fresh
    · rw [hcore]
      exact hreceived.sent
    · simp [hclosed]
    · rw [hcore, hclosed]
      have hnone := hreceived.closed rfl count t
      constructor
      · exact fun hout => absurd hout hnone
      · rintro ⟨h, -⟩
        cases h
    · rw [hcore]
      exact hreceived.inTurn
  | op hop => exact h.quiet (.same hop.portState rfl hop.gains)
  | rejected hoffer =>
    refine h.quiet (.same (by simp [hoffer.portState]) rfl ?_)
    exact (hoffer.gains.trans (ControllerCore.submit_gains _ _ _)).trans
      (ControllerCore.reject_gains _)
  | accepted hoffer _ _ _ _ hnext =>
    refine h.quiet (hnext.quiet.congr (by simp [hoffer.portState]) rfl ?_)
    exact (hoffer.gains.trans (ControllerCore.submit_gains _ _ _)).trans
      (ControllerCore.accept_gains _)
  | readEnds =>
    exact h.quiet (.same (by simp) (by simp; rfl) (by rw [completeSerialOp_core]; exact .refl _))
  | readStarts => exact h.quiet (.same rfl rfl (.refl _))
  | readFails =>
    refine h.quiet (quiet_reset.congr (by simp) (by simp; rfl) ?_)
    rw [completeSerialOp_core]
    exact .refl _
  | writeStale hwrite _ result =>
    exact h.quiet (.same (by simp; rfl) (by simp) (endWrite_gains _ _ _))
  | writeDone hwrite _ hnext =>
    refine h.quiet (hnext.quiet.congr (by simp; rfl) (by simp) ?_)
    rw [countSent_core]
    exact (endWrite_gains _ _ _).trans (finishWrite_gains _ _)
  | writeFails =>
    refine h.quiet (quiet_reset.congr (by simp; rfl) (by simp) ?_)
    exact (endWrite_gains _ _ _).trans (finishWrite_gains _ _)
  | writeAborted =>
    refine h.quiet (.same (by simp; rfl) (by simp) ?_)
    exact (endWrite_gains _ _ _).trans (finishWrite_gains _ _)
  | reset => exact h.quiet quiet_reset
  | heartbeat now hconn hstate hwindow =>
    refine h.heartbeat now hconn hstate ?_
    rcases hwindow with hoff | hawaiting | ⟨hlenient, -⟩
    · exact absurd htimeout (Int.not_lt.mpr hoff)
    · exact hawaiting
    · rw [hstrict] at hlenient
      cases hlenient
  | resend now => exact h.quiet (.same rfl rfl (.cons trivial))

theorem reconnect (h : HeartbeatInv p s) : HeartbeatInv p (reconnect p s) := by
  have hreset : HeartbeatInv p (resetSerial p s) := h.quiet quiet_reset
  have hawaiting : (Controller.reconnect p s).awaitingHeartbeatAck = false := by
    unfold Controller.reconnect
    simp only
    split_ifs
    · exact resetSerial_awaiting
    · refine (congrArg Window.awaiting (publishReady_window true)).trans ?_
      exact resetSerial_awaiting
  have hcore : (Controller.reconnect p s).toControllerCore =
      (resetSerial p s).toControllerCore.connect p := by simp
  have hsent : ∀ connection count t, .heartbeatSent connection count t ∈ (resetSerial p s).history →
      ∃ c, connection = some c ∧ c.port < (resetSerial p s).nextPort := hreset.sent
  refine ⟨?_, ?_, ?_, ?_, fun count t => ?_, ?_⟩
  · rw [hcore]
    exact fun _ => Option.some_ne_none _
  · rw [hcore]
    rintro port ⟨⟩
    exact Nat.lt_succ_self _
  · rw [hcore]
    intro connection count t hmem
    obtain ⟨c, hc, hport⟩ := hsent connection count t hmem
    exact ⟨c, hc, Nat.lt_succ_of_lt hport⟩
  · simp [hawaiting]
  · -- the port is new, so nothing was sent on it
    rw [hcore, hawaiting]
    constructor
    · intro hout
      obtain ⟨c, hc, hport⟩ := hsent _ _ _ hout.mem
      obtain rfl := Option.some.inj hc
      exact absurd hport (Nat.lt_irrefl _)
    · rintro ⟨h, -⟩
      cases h
  · rw [hcore]
    exact hreset.inTurn

theorem invariant (hstrict : p.strictHeartbeat = true) (htimeout : 0 < p.heartbeatTimeoutMs) :
    ControllerInvariant p .all (HeartbeatInv p) where
  initial _ _ := by
    have hempty : ∀ connection count t, ¬ Outstanding p connection [] count t :=
      fun _ _ _ hout => List.not_mem_nil hout.mem
    refine ⟨nofun, nofun, nofun, nofun, fun count t => ?_, ?_⟩
    · exact iff_of_false (hempty _ _ _) (by rintro ⟨h, -⟩; cases h)
    · intro newer _ _ _ _ heq
      exact absurd heq (by simp [Controller.new])
  move h hmove := h.move hstrict htimeout hmove
  reconnect h _ := h.reconnect

end HeartbeatInv

-- ---------------------------------------------------------------------------
-- The timer
-- ---------------------------------------------------------------------------

/-- The window of a count has closed at a tick. -/
def DeadWindow (p : Protocol) (s : Controller) (t : Int) : Prop :=
  ∃ count t₀, Outstanding p s.connection s.history count t₀ ∧ p.heartbeatTimeoutMs < elapsedMs t₀ t

/-- What `handle_heartbeat_timer` does at a tick. -/
structure HeartbeatWindow (p : Protocol) (s : Controller) (t : Int) : Prop where
  resets : handleHeartbeatTimer p t s = resetSerial p s ↔
    s.isConnected = true ∧ s.state = .running ∧ DeadWindow p s t
  resends : ∀ count t₀, s.isConnected = true → s.state = .running →
    Outstanding p s.connection s.history count t₀ → elapsedMs t₀ t ≤ p.heartbeatTimeoutMs →
    handleHeartbeatTimer p t s =
      sendPacket p packetIdHeartbeat (systemPayload p packetIdHeartbeat count)
        (onCore (ControllerCore.note (.heartbeatResent s.connection count t)) s)

/-- A reset begins a new generation. -/
theorem ne_resetSerial (h : s'.connectionGeneration = s.connectionGeneration) :
    s' ≠ resetSerial p s := by
  rintro rfl
  have hreset : (resetSerial p s).connectionGeneration = s.connectionGeneration + 1 :=
    congrArg PortState.connectionGeneration
      (by simp : (resetSerial p s).portState = s.portState.reset p)
  rw [hreset] at h
  grind

theorem sendPacket_generation (id : UInt8) (data : List UInt8) :
    (sendPacket p id data s).connectionGeneration = s.connectionGeneration := by
  unfold sendPacket
  rw [postSerial_core]

theorem HeartbeatInv.heartbeatWindow (h : HeartbeatInv p s) (hstrict : p.strictHeartbeat = true)
    (htimeout : 0 < p.heartbeatTimeoutMs) (t : Int) : HeartbeatWindow p s t := by
  constructor
  · unfold handleHeartbeatTimer
    split_ifs with hconn hwaiting hstate hawaiting hopen
    · refine iff_of_false (ne_resetSerial rfl) fun ⟨h, _⟩ => ?_
      rw [hconn] at h
      cases h
    · refine iff_of_false (ne_resetSerial (sendPacket_generation _ _)) fun ⟨_, h, _⟩ => ?_
      rw [hwaiting.2] at h
      cases h
    · exact iff_of_false (ne_resetSerial rfl) fun ⟨_, h, _⟩ => hstate h
    · refine iff_of_false (ne_resetSerial (sendPacket_generation _ _)) ?_
      rintro ⟨-, -, count, t₀, hout, hdead⟩
      obtain ⟨-, -, rfl⟩ := (h.window count t₀).mp hout
      exact absurd hopen (Int.not_le.mpr hdead)
    · refine iff_of_true rfl ⟨?_, not_not.mp hstate, s.lastHeartbeatTxCount,
        s.heartbeatAckWaitStartedAt, (h.window _ _).mpr ⟨hawaiting.2, rfl, rfl⟩,
        Int.lt_of_not_ge hopen⟩
      exact (Bool.not_eq_false _).mp hconn
    · refine iff_of_false (ne_resetSerial (sendPacket_generation _ _)) ?_
      rintro ⟨-, -, count, t₀, hout, -⟩
      exact hawaiting ⟨htimeout, ((h.window count t₀).mp hout).1⟩
  · intro count t₀ hconn hstate hout hopen
    obtain ⟨hawaiting, rfl, rfl⟩ := (h.window count t₀).mp hout
    unfold handleHeartbeatTimer
    rw [if_neg (by simp [hconn]), if_neg (by simp [hstate]), if_neg (by simp [hstate]),
      if_pos ⟨htimeout, hawaiting⟩, if_pos hopen]
    rfl

/-- An echo of another count leaves the window open. -/
theorem outstanding_handlePacket {throws : Nat → Bool} {pkt : Packet} {count other : UInt32} {t : Int}
    (hecho : IsEcho p pkt other) (hne : other ≠ count)
    (h : Outstanding p s.connection s.history count t) :
    Outstanding p (handlePacket p throws pkt s).connection (handlePacket p throws pkt s).history count
      t := by
  have hack : pkt.id ≠ packetIdAck := by rw [hecho.id]; decide
  have hhandshake : pkt.id ≠ packetIdHandshake := by rw [hecho.id]; decide
  have hcore : (handlePacket p throws pkt s).toControllerCore = s.toControllerCore.receive pkt := by
    unfold handlePacket handleAck handleDispatch handleHeartbeatAck
    simp only [hack, hhandshake, false_and, if_false]
    split_ifs <;> rfl
  rw [hcore]
  refine HeartbeatInv.outstanding_receive.mpr ⟨h, fun ⟨_, h⟩ => hne ?_⟩
  exact hecho.count.symm.trans h.count

end Controller

-- ---------------------------------------------------------------------------
-- The result
-- ---------------------------------------------------------------------------

open Controller

/-- The heartbeats of a protocol: the timer at every tick, the order of the counts, and the echoes of
other counts. -/
structure HeartbeatsWatched (p : Protocol) (throws : Nat → Bool) : Prop where
  window : ∀ s, (controllerMachine p throws).Reachable s → ∀ tasks t,
    HeartbeatWindow p { s with posted := tasks } t
  inTurn : ∀ s, (controllerMachine p throws).Reachable s → SentInTurn p s.history
  other : ∀ (s : Controller) pkt count other t, IsEcho p pkt other → other ≠ count →
    Outstanding p s.connection s.history count t →
    Outstanding p (handlePacket p throws pkt s).connection (handlePacket p throws pkt s).history count
      t

/-- **Strict heartbeat resets exactly on a dead window**, where the timeout is positive: the timer
resets the connection if and only if the window of an outstanding count has closed, an open window's
count is sent again, no echo of another count closes it, and no new count is sent before it is
closed. -/
theorem heartbeat_window (p : Protocol) (throws : Nat → Bool) (hstrict : p.strictHeartbeat = true)
    (htimeout : 0 < p.heartbeatTimeoutMs) : HeartbeatsWatched p throws := by
  have hinv : ∀ s, (controllerMachine p throws).Reachable s → HeartbeatInv p s := fun s hs =>
    ((HeartbeatInv.invariant hstrict htimeout).reachable (fun s event _ => permitted_all s event)
      hs).1
  refine ⟨fun s hs tasks t => ?_, fun s hs => (hinv s hs).inTurn, fun s pkt count other t hecho hne h =>
    outstanding_handlePacket hecho hne h⟩
  have h : HeartbeatInv p { s with posted := tasks } := (hinv s hs).quiet (.same rfl rfl (.refl _))
  exact h.heartbeatWindow hstrict htimeout t

/-- `config/protocol.yaml` without messages, and with `heartbeat_timeout_ms: 4294967296`. -/
def wrappedTimeoutConfig : Yaml :=
  .map [(.str "serial_controller", demoSerialController),
    (.str "config", .map [(.str "buffer_size", .int 1024), (.str "head_byte_1", .int 0x5A),
      (.str "head_byte_2", .int 0xA5), (.str "heartbeat_timeout_ms", .int 0x100000000)]),
    (.str "type_mappings", demoTypeMappings []), (.str "messages", .list [])]

/-- The timeout is an `int`, and zero. -/
def wrappedTimeoutProtocol : Protocol :=
  { wrappedProtocol with bufferSize := 1024, heartbeatTimeoutMs := 0 }

theorem deployed_wrappedTimeout :
    Deployed lp64 (fun _ => 0x8A582110) wrappedTimeoutConfig wrappedTimeoutProtocol :=
  ⟨_, _, rfl, rfl, rfl⟩

/-- Handshake, and a heartbeat at time 0. -/
def heartbeatEvents (p : Protocol) : List ControllerEvent :=
  connectEvents ++
  [.readDone 0 .success (frame p packetIdHandshake (leBytes 4 p.protocolHash.toNat)),
    .run 0 0, .heartbeatTimer, .run 0 0]

theorem outstanding_of_heartbeatEvents {p : Protocol} {s : Controller}
    (hs : demoRun p (heartbeatEvents p) = some s)
    (hrun : (demoRun p (heartbeatEvents p)).map (fun s => (s.isConnected, s.state, s.connection,
      s.history.head?)) =
      some (true, .running, some ⟨0, 1⟩, some (.heartbeatSent (some ⟨0, 1⟩) 0 0))) :
    s.isConnected = true ∧ s.state = .running ∧ Outstanding p s.connection s.history 0 0 := by
  rw [hs] at hrun
  obtain ⟨hconn, hstate, hconnection, hhead⟩ : _ ∧ _ ∧ _ ∧ _ := by simpa using hrun
  obtain ⟨older, hhistory⟩ := List.head?_eq_some_iff.mp hhead
  refine ⟨hconn, hstate, ?_⟩
  rw [hconnection, hhistory]
  exact outstanding_cons.mpr (.inl rfl)

/-- The window of the first heartbeat closes after 3 s. -/
theorem heartbeat_window_demo : ∃ s, demoRun demoProtocol (heartbeatEvents demoProtocol) = some s ∧
    handleHeartbeatTimer demoProtocol 3001000000 s = resetSerial demoProtocol s := by
  have hrun : (demoRun demoProtocol (heartbeatEvents demoProtocol)).isSome := by decide +kernel
  obtain ⟨s, hs⟩ := Option.isSome_iff_exists.mp hrun
  obtain ⟨hconn, hstate, hout⟩ := outstanding_of_heartbeatEvents hs (by decide +kernel)
  have hwindow := (heartbeat_window demoProtocol (fun _ => false) rfl (by decide)).window s
    (reachable_of_demoRun hs) s.posted 3001000000
  exact ⟨s, hs, hwindow.resets.mpr ⟨hconn, hstate, 0, 0, hout, by decide⟩⟩

/-- With the timeout at zero the check is switched off: the first heartbeat is still outstanding when
more than `2 ^ 32` ms have passed, and the connection is not reset. -/
theorem not_heartbeatsWatched_wrapped :
    Deployed lp64 (fun _ => 0x8A582110) wrappedTimeoutConfig wrappedTimeoutProtocol ∧
      wrappedTimeoutProtocol.strictHeartbeat = true ∧
      ¬ HeartbeatsWatched wrappedTimeoutProtocol fun _ => false := by
  refine ⟨deployed_wrappedTimeout, rfl, fun h => ?_⟩
  have hrun : (demoRun wrappedTimeoutProtocol (heartbeatEvents wrappedTimeoutProtocol)).map (fun s =>
      (s.connectionGeneration,
        (handleHeartbeatTimer wrappedTimeoutProtocol 4294967297000000 s).connectionGeneration)) =
      some (1, 1) := by decide +kernel
  obtain ⟨s, hs, hgeneration⟩ := Option.map_eq_some_iff.mp hrun
  obtain ⟨hbefore, hafter⟩ := Prod.mk.inj hgeneration
  obtain ⟨hconn, hstate, hout⟩ := outstanding_of_heartbeatEvents hs (by decide +kernel)
  have hreset := (h.window s (reachable_of_demoRun hs) s.posted 4294967297000000).resets.mpr
    ⟨hconn, hstate, 0, 0, hout, by decide⟩
  exact ne_resetSerial (hafter.trans hbefore.symm) hreset

end AutoSerialBridge
