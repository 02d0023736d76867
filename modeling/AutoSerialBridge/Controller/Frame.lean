import AutoSerialBridge.Controller.Moves

/-!
# Auto Serial Bridge — what the moves leave alone

The connection of a `ControllerCore` (`PortState`), and what a move does to it: nothing, a reset, or
an accepted handshake (`Move.portState`). Everything that happens to requests, writes and timers
leaves it alone.
-/

namespace AutoSerialBridge

/-- The members that make up the connection. -/
structure PortState where
  isConnected : Bool
  serialPort : Option SerialPort
  connectionGeneration : UInt64
  state : ControllerState
  nextPort : Nat
  shuttingDown : Bool

namespace PortState

/-- After `reset_serial`. -/
def reset (p : Protocol) (c : PortState) : PortState :=
  { c with
    isConnected := false
    serialPort := none
    connectionGeneration := c.connectionGeneration + 1
    state := if p.requireHandshake then .waitingHandshake else .running }

/-- After a port was opened. -/
def connect (p : Protocol) (c : PortState) : PortState :=
  { c with
    isConnected := true
    serialPort := some ⟨c.nextPort, true⟩
    nextPort := c.nextPort + 1
    state := if p.requireHandshake then .waitingHandshake else .running }

end PortState

-- ---------------------------------------------------------------------------
-- The core
-- ---------------------------------------------------------------------------

namespace ControllerCore

variable {p : Protocol} {s : ControllerCore}

def portState (s : ControllerCore) : PortState where
  isConnected := s.isConnected
  serialPort := s.serialPort
  connectionGeneration := s.connectionGeneration
  state := s.state
  nextPort := s.nextPort
  shuttingDown := s.shuttingDown

/-- What every completion keeps, giving up the queue keeps. -/
theorem failTxQueue_keeps {I : ControllerCore → Prop}
    (hcomplete : ∀ request s, I s → I (complete request false s))
    (hqueue : ∀ s, I s → I { s with txQueue := [], txWriteInProgress := false })
    {s : ControllerCore} (h : I s) : I (failTxQueue s) := by
  unfold failTxQueue
  refine hqueue _ ?_
  generalize s.txQueue = queue
  induction queue generalizing s with
  | nil => exact h
  | cons request queue ih => exact ih (hcomplete request s h)

/-- What no completion changes, giving up the queue does not change. -/
theorem failTxQueue_congr {α : Type} (f : ControllerCore → α)
    (hcomplete : ∀ request s, f (complete request false s) = f s)
    (hqueue : ∀ s, f { s with txQueue := [], txWriteInProgress := false } = f s)
    (s : ControllerCore) : f (failTxQueue s) = f s :=
  failTxQueue_keeps (I := fun s' => f s' = f s) (fun request s' h => (hcomplete request s').trans h)
    (fun s' h => (hqueue s').trans h) rfl

@[simp] theorem complete_portState (request : Nat) (success : Bool) :
    (complete request success s).portState = s.portState := by
  unfold complete
  split <;> rfl

@[simp] theorem failTxQueue_portState : (failTxQueue s).portState = s.portState :=
  failTxQueue_congr portState (fun _ _ => complete_portState _ _) (fun _ => rfl) s

@[simp] theorem submit_portState (bytes : List UInt8) (completion : Option SendCompletion)
    (origin : Option (UInt8 × Nat)) : (submit bytes completion origin s).portState = s.portState :=
  rfl

@[simp] theorem reject_portState (request : Nat) : (reject request s).portState = s.portState := by
  rw [reject, complete_portState]
  rfl

@[simp] theorem accept_portState (request : Nat) : (accept request s).portState = s.portState := rfl

@[simp] theorem handOver_portState (request port : Nat) :
    (handOver request port s).portState = s.portState := rfl

@[simp] theorem beginWrite_portState (request port : Nat) :
    (beginWrite request port s).portState = s.portState := rfl

@[simp] theorem noteWrite_portState (write : PendingWrite) (result : IoResult) :
    (noteWrite write result s).portState = s.portState := by
  unfold noteWrite
  split_ifs <;> rfl

@[simp] theorem finishWrite_portState (request : Nat) (success : Bool) :
    (finishWrite request success s).portState = s.portState := by
  rw [finishWrite, complete_portState]
  rfl

@[simp] theorem reset_portState : (reset p s).portState = s.portState.reset p := by
  have h := failTxQueue_portState (s := { s with
    isConnected := false
    connectionGeneration := s.connectionGeneration + 1
    reliableSender :=
      if s.shuttingDown then s.reliableSender.clearAllImpl else s.reliableSender })
  unfold reset
  simp only [portState, PortState.mk.injEq] at h ⊢
  simp [PortState.reset, h]

@[simp] theorem connect_portState : (connect p s).portState = s.portState.connect p := rfl

@[simp] theorem receive_portState (pkt : Packet) : (receive pkt s).portState = s.portState := rfl

@[simp] theorem note_portState (event : HistoryEvent) : (note event s).portState = s.portState := rfl

@[simp] theorem updateSender_portState (r : ReliableSender × Option SendRequest) :
    (updateSender r s).portState = s.portState := rfl

@[simp] theorem updateAcked_portState (ackedId ackSeq : UInt8) :
    (updateAcked p ackedId ackSeq s).portState = s.portState := by
  unfold updateAcked
  simp only
  rw [updateSender_portState]
  split_ifs <;> rfl

end ControllerCore

theorem SenderOp.portState {p : Protocol} {s core : ControllerCore} {req : Option SendRequest}
    (h : SenderOp p s core req) : core.portState = s.portState := by
  cases h with
  | send => rfl
  | timeout => rfl
  | ack => exact ControllerCore.updateAcked_portState _ _

theorem Offer.portState {p : Protocol} {s core : ControllerCore} {bytes : List UInt8}
    {completion : Option SendCompletion} {origin : Option (UInt8 × Nat)}
    (h : Offer p s core bytes completion origin) : core.portState = s.portState := by
  cases h with
  | plain => rfl
  | reliable h => exact h.portState

-- ---------------------------------------------------------------------------
-- The controller
-- ---------------------------------------------------------------------------

namespace Controller

variable {p : Protocol} {ok : Allowed} {s s' : Controller}

@[simp] theorem onCore_core (f : ControllerCore → ControllerCore) :
    (onCore f s).toControllerCore = f s.toControllerCore := rfl

@[simp] theorem onCore_readyState (f : ControllerCore → ControllerCore) :
    (onCore f s).readyState = s.readyState := rfl

@[simp] theorem countSent_core : (countSent s).toControllerCore = s.toControllerCore := rfl

@[simp] theorem countSent_readyState : (countSent s).readyState = s.readyState := rfl

@[simp] theorem withCore_core (core : ControllerCore) :
    (withCore core s).toControllerCore = core := rfl

@[simp] theorem publishReady_core (ready : Bool) :
    (publishReady ready s).toControllerCore = s.toControllerCore := by
  unfold publishReady
  split_ifs <;> rfl

@[simp] theorem publishReady_readyState (ready : Bool) : (publishReady ready s).readyState = ready := by
  unfold publishReady
  split_ifs with h
  · rw [Bool.and_eq_true, beq_iff_eq] at h
    exact h.2
  · rfl

@[simp] theorem notifySerialOpsDrained_core :
    (notifySerialOpsDrained s).toControllerCore = s.toControllerCore := by
  unfold notifySerialOpsDrained
  split_ifs <;> rfl

@[simp] theorem notifySerialOpsDrained_readyState :
    (notifySerialOpsDrained s).readyState = s.readyState := by
  unfold notifySerialOpsDrained
  split_ifs <;> rfl

@[simp] theorem completeSerialOp_readyState : (completeSerialOp s).readyState = s.readyState := by
  unfold completeSerialOp
  simp only
  split_ifs <;> simp

@[simp] theorem resetSerial_core :
    (resetSerial p s).toControllerCore = s.toControllerCore.reset p := by
  unfold resetSerial
  simp only
  split_ifs <;> simp

@[simp] theorem resetSerial_readyState : (resetSerial p s).readyState = false := by
  unfold resetSerial
  simp only
  split_ifs <;> simp [onCore]

@[simp] theorem endWrite_core (index : Nat) (write : PendingWrite) (result : IoResult) :
    (endWrite index write result s).toControllerCore =
      ControllerCore.noteWrite write result
        { s.toControllerCore with writes := s.writes.eraseIdx index } := by
  unfold endWrite
  simp

@[simp] theorem endWrite_readyState (index : Nat) (write : PendingWrite) (result : IoResult) :
    (endWrite index write result s).readyState = s.readyState :=
  completeSerialOp_readyState

@[simp] theorem reconnect_core :
    (reconnect p s).toControllerCore = (s.toControllerCore.reset p).connect p := by
  unfold reconnect
  simp only
  split_ifs <;> simp

theorem reconnect_readyState : (reconnect p s).readyState = !p.requireHandshake := by
  unfold reconnect
  simp only
  split_ifs with h
  · simp [onCore, h]
  · simp [h]

@[simp] theorem postSerial_core (task : StrandTask) :
    (postSerial task s).toControllerCore = s.toControllerCore := by
  unfold postSerial
  split_ifs <;> rfl

@[simp] theorem postSerial_readyState (task : StrandTask) :
    (postSerial task s).readyState = s.readyState := by
  unfold postSerial
  split_ifs <;> rfl

/-- What the start of a write does to the connection: nothing, or a reset. -/
theorem StartNext.portState (h : StartNext p s s') :
    (s'.portState = s.portState ∧ s'.readyState = s.readyState) ∨
      (s'.portState = s.portState.reset p ∧ s'.readyState = false) := by
  cases h with
  | idle => exact .inl ⟨rfl, rfl⟩
  | gone => exact .inl ⟨by simp, rfl⟩
  | begin => exact .inl ⟨by simp, rfl⟩
  | fails => exact .inr ⟨by simp, by simp⟩

/-- **What a move does to the connection.** -/
theorem Move.portState (h : Move p ok s s') :
    (s'.portState = s.portState ∧ s'.readyState = s.readyState) ∨
      (s'.portState = s.portState.reset p ∧ s'.readyState = false) ∨
      ∃ pkt, s.state ≠ .running ∧ AcceptedHandshake p pkt ∧ ok.handshake s pkt ∧
        s'.portState = { s.portState with state := .running } ∧ s'.readyState = true := by
  cases h with
  | quiet => exact .inl ⟨rfl, rfl⟩
  | post => exact .inl ⟨by simp, by simp⟩
  | take => exact .inl ⟨rfl, rfl⟩
  | expire => exact .inl ⟨rfl, rfl⟩
  | receive => exact .inl ⟨rfl, rfl⟩
  | echo => exact .inl ⟨rfl, rfl⟩
  | @handshake pkt hstate hpkt hok =>
    exact .inr (.inr ⟨pkt, hstate, hpkt, hok, by simp [acceptHandshake]; rfl,
      by simp [acceptHandshake]⟩)
  | op h => exact .inl ⟨h.portState, rfl⟩
  | rejected h => exact .inl ⟨by simp [h.portState], rfl⟩
  | accepted h _ _ _ _ hnext =>
    rcases hnext.portState with ⟨hport, hready⟩ | ⟨hport, hready⟩
    · exact .inl ⟨by rw [hport]; simp [h.portState], hready⟩
    · exact .inr (.inl ⟨by rw [hport]; simp [h.portState], hready⟩)
  | readEnds => exact .inl ⟨by simp, by simp⟩
  | readStarts => exact .inl ⟨rfl, rfl⟩
  | readFails => exact .inr (.inl ⟨by simp, by simp⟩)
  | writeStale => exact .inl ⟨by simp; rfl, by simp⟩
  | writeDone _ _ hnext =>
    rcases hnext.portState with ⟨hport, hready⟩ | ⟨hport, hready⟩
    · exact .inl ⟨by rw [hport]; simp; rfl, by rw [hready]; simp⟩
    · exact .inr (.inl ⟨by rw [hport]; simp; rfl, hready⟩)
  | writeFails => exact .inr (.inl ⟨by simp; rfl, by simp⟩)
  | writeAborted => exact .inl ⟨by simp; rfl, by simp⟩
  | reset => exact .inr (.inl ⟨by simp, by simp⟩)
  | heartbeat => exact .inl ⟨rfl, rfl⟩
  | resend => exact .inl ⟨rfl, rfl⟩

-- ---------------------------------------------------------------------------
-- Posted tasks
-- ---------------------------------------------------------------------------

/-- Every frame that is posted was packed. -/
def PostedPacked (p : Protocol) (s : Controller) : Prop := ∀ task ∈ s.posted, task.Packed p

namespace PostedPacked

theorem notifySerialOpsDrained (h : PostedPacked p s) :
    PostedPacked p (notifySerialOpsDrained s) := by
  unfold Controller.notifySerialOpsDrained
  split_ifs
  · intro task htask
    rcases List.mem_append.mp htask with htask | htask
    · exact h task htask
    · rw [List.mem_singleton.mp htask]
      trivial
  · exact h

theorem completeSerialOp (h : PostedPacked p s) : PostedPacked p (completeSerialOp s) := by
  unfold Controller.completeSerialOp
  simp only
  split_ifs
  · exact notifySerialOpsDrained h
  · exact h
  · exact notifySerialOpsDrained h
  · exact h

theorem publishReady (h : PostedPacked p s) (ready : Bool) :
    PostedPacked p (publishReady ready s) := by
  unfold Controller.publishReady
  split_ifs <;> exact h

theorem resetSerial (h : PostedPacked p s) : PostedPacked p (resetSerial p s) := by
  unfold Controller.resetSerial
  simp only
  split_ifs
  · exact notifySerialOpsDrained (publishReady h false)
  · exact publishReady h false

theorem startNext (h : PostedPacked p s) (hnext : StartNext p s s') : PostedPacked p s' := by
  cases hnext with
  | idle => exact h
  | gone => exact h
  | begin => exact h
  | fails => exact resetSerial (completeSerialOp h)

/-- A task that is posted is packed, a task that is taken is gone. -/
theorem move (h : PostedPacked p s) (hmove : Move p ok s s') : PostedPacked p s' := by
  cases hmove with
  | post task htask _ =>
    unfold postSerial
    split_ifs
    · exact h
    · intro task' htask'
      rcases List.mem_append.mp htask' with htask' | htask'
      · exact h task' htask'
      · rw [List.mem_singleton.mp htask']
        exact htask
  | take index => exact fun task htask => h task (List.mem_of_mem_eraseIdx htask)
  | expire =>
    intro task htask
    rcases List.mem_append.mp htask with htask | htask
    · exact h task htask
    · rw [List.mem_singleton.mp htask]
      trivial
  | handshake =>
    refine publishReady ?_ true
    exact h
  | accepted _ _ _ _ _ hnext =>
    refine startNext ?_ hnext
    exact h
  | readEnds => exact completeSerialOp h
  | readFails => exact resetSerial (completeSerialOp h)
  | writeStale => exact completeSerialOp h
  | writeDone _ _ hnext =>
    refine startNext ?_ hnext
    exact completeSerialOp h
  | writeFails => exact resetSerial (completeSerialOp h)
  | writeAborted => exact completeSerialOp h
  | reset => exact resetSerial h
  | _ => exact h

theorem reconnect (h : PostedPacked p s) : PostedPacked p (reconnect p s) := by
  unfold Controller.reconnect
  simp only
  split_ifs
  · exact resetSerial h
  · refine publishReady ?_ true
    exact resetSerial h

end PostedPacked

theorem postedPacked_invariant : ControllerInvariant p ok (PostedPacked p) where
  initial _ _ := nofun
  move h hmove := h.move hmove
  reconnect h _ := h.reconnect

/-- **The rule of invariants** for the controller: what every move and every new connection keeps
holds in every state of a run whose events are permitted. -/
theorem ControllerInvariant.reachable {I : Controller → Prop} {throws : Nat → Bool}
    {P : Controller → ControllerEvent → Prop} (hI : ControllerInvariant p ok I)
    (hP : ∀ s event, P s event → Permitted p throws ok s event)
    (h : (controllerMachine p throws).ReachableBy P s) : I s ∧ PostedPacked p s := by
  refine h.invariant (I := fun s => I s ∧ PostedPacked p s) ?_ ?_
  · rintro _ ⟨handler, hnew, rfl⟩
    exact ⟨hI.initial handler hnew, nofun⟩
  · rintro s event s' ⟨hs, hposted⟩ hcond hstep
    have hreaches := step_reaches hposted (hP s event hcond) hstep
    exact ⟨hI.reaches hs hreaches, postedPacked_invariant.reaches hposted hreaches⟩

end Controller

end AutoSerialBridge
