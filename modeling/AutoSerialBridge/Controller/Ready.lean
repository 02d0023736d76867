import AutoSerialBridge.Controller.Handshake

/-!
# Auto Serial Bridge — the ready topic

`ready` is published as true when a connection is ready and as false when it is reset. The two drift
apart in one place: `process_handshake` does not look at the connection. When a transmission fails to
start while the packets of a chunk are handled, the connection is reset, and a matching Handshake
packet behind it in the same chunk is accepted all the same.

## Results

* `ready_iff_connected` — **ready tells the truth**, in every run in which that does not happen, and
  no longer after the first step in which it does.
* `not_readyTruthful` — a run in which it happens.
-/

namespace AutoSerialBridge

open Lib

namespace Controller

variable (p : Protocol) (throws : Nat → Bool)

/-- `ready` is what it should be. -/
def ReadyTruthful (s : Controller) : Prop :=
  s.readyState = true ↔ s.isConnected = true ∧ s.state = .running

/-- The packets that a receive completion hands to `handle_packet`, each with the state in which it
does. -/
def packetCalls (index : Nat) (data : List UInt8) (s : Controller) : List (Packet × Controller) :=
  consumerCalls packetHandlerAccess p (handlePacket p throws) data
    (completeSerialOp { s with reads := s.reads.eraseIdx index })

/-- No matching Handshake packet comes behind the packet whose handling reset the connection, in the
chunk of a receive completion. -/
def HandshakesConnected (s : Controller) : ControllerEvent → Prop
  | .readDone index .success data =>
    ∀ read ∈ s.reads[index]?, s.isCurrent read.port read.generation = true → data ≠ [] →
      ∀ c ∈ packetCalls p throws index data s,
        AcceptedHandshake p c.1 → c.2.state ≠ .running → c.2.isConnected = true
  | _ => True

instance (pkt : Packet) : Decidable (AcceptedHandshake p pkt) :=
  decidable_of_iff (pkt.id = packetIdHandshake ∧
      pkt.payload.length = p.sizeofPacket packetIdHandshake ∧
      classifyHandshakeValidation p.protocolHash (p.member 0 pkt) p.ignoreVersionMismatch ≠
        .rejectedMismatch)
    ⟨fun h => ⟨h.1, h.2.1, h.2.2⟩, fun h => ⟨h.id, h.size, h.hash⟩⟩

instance (s : Controller) : DecidablePred (HandshakesConnected p throws s)
  | .readDone index .success data =>
    inferInstanceAs (Decidable (∀ read ∈ s.reads[index]?, s.isCurrent read.port read.generation →
      data ≠ [] → ∀ c ∈ packetCalls p throws index data s,
        AcceptedHandshake p c.1 → c.2.state ≠ .running → c.2.isConnected = true))
  | .readDone _ .operationAborted _ => .isTrue trivial
  | .readDone _ .failure _ => .isTrue trivial
  | .connectionTimer => .isTrue trivial
  | .heartbeatTimer => .isTrue trivial
  | .sendPacket _ _ => .isTrue trivial
  | .reliableSend _ _ => .isTrue trivial
  | .retryTimer _ _ => .isTrue trivial
  | .run _ _ => .isTrue trivial
  | .writeDone _ _ => .isTrue trivial

/-- The moves of the runs in question: a Handshake packet is accepted on a connection. -/
def handshakesConnected : Allowed := ⟨fun s _ => s.isConnected = true, True, True⟩

variable {p throws} {s s' : Controller}

theorem HandshakesConnected.permitted {event : ControllerEvent}
    (h : HandshakesConnected p throws s event) :
    Permitted p throws handshakesConnected s event where
  ingest index read data hevent hread hcurrent hdata := by
    subst hevent
    exact moves_ingestReceivedBytes_of_calls fun c hc => h read hread hcurrent hdata c hc
  abort _ _ _ _ _ := trivial
  turn _ := trivial

-- ---------------------------------------------------------------------------
-- The invariant
-- ---------------------------------------------------------------------------

/-- `ready` is what it should be, and without a handshake the state is always `RUNNING`. -/
structure ReadyInv (p : Protocol) (s : Controller) : Prop where
  truthful : s.ReadyTruthful
  running : p.requireHandshake = false → s.state = .running

theorem ReadyInv.move (h : ReadyInv p s) (hmove : Move p handshakesConnected s s') :
    ReadyInv p s' := by
  rcases hmove.portState with ⟨hport, hready⟩ | ⟨hport, hready⟩ | ⟨pkt, _, _, hconn, hport, hready⟩
  all_goals
    have hstate : s'.state = s'.portState.state := rfl
    have hconnected : s'.isConnected = s'.portState.isConnected := rfl
    rw [hport] at hstate hconnected
  · constructor
    · rw [ReadyTruthful, hready, hstate, hconnected]
      exact h.truthful
    · rw [hstate]
      exact h.running
  · constructor
    · simp [ReadyTruthful, hready, hconnected, PortState.reset]
    · intro hrequire
      simp [hstate, PortState.reset, hrequire]
  · constructor
    · have hconn : s.isConnected = true := hconn
      simp [ReadyTruthful, hready, hstate, hconnected, ControllerCore.portState, hconn]
    · exact fun _ => hstate

theorem ReadyInv.reconnect : ReadyInv p (reconnect p s) := by
  have hstate : (Controller.reconnect p s).state =
      if p.requireHandshake then .waitingHandshake else .running := by
    rw [reconnect_core]
    rfl
  have hconnected : (Controller.reconnect p s).isConnected = true := by
    rw [reconnect_core]
    rfl
  constructor
  · rw [ReadyTruthful, reconnect_readyState, hstate, hconnected]
    cases p.requireHandshake <;> simp
  · intro hrequire
    rw [hstate, hrequire]
    rfl

theorem readyInv_invariant : ControllerInvariant p handshakesConnected (ReadyInv p) where
  initial h _ := by
    constructor
    · simp [ReadyTruthful, Controller.new]
    · intro hrequire
      simp [Controller.new, hrequire]
  move h hmove := h.move hmove
  reconnect _ _ := .reconnect

-- ---------------------------------------------------------------------------
-- The other direction
-- ---------------------------------------------------------------------------

/-- Without a connection a handshake was accepted. -/
structure ReadyUnconnected (s : Controller) : Prop where
  isConnected : s.isConnected = false
  state : s.state = .running
  readyState : s.readyState = true

/-- Without a connection every request is rejected. -/
theorem ReadyUnconnected.sendCallback {core : ControllerCore} {req : Option SendRequest}
    (h : ReadyUnconnected s) (hcore : core.portState = s.portState) :
    ReadyUnconnected (sendCallback p throws req (withCore core s)) := by
  have hconn : core.isConnected = false := (congrArg PortState.isConnected hcore).trans h.isConnected
  have hstate : core.state = .running := (congrArg PortState.state hcore).trans h.state
  unfold Controller.sendCallback
  cases req with
  | none => exact ⟨hconn, hstate, h.readyState⟩
  | some req =>
    unfold asyncSendImpl
    simp only
    rw [if_pos (.inl hconn)]
    have hport := ControllerCore.reject_portState (s := ControllerCore.submit req.bytes
      (some req.completion) (some (req.completion.key, req.number)) core) core.nextRequest
    rw [ControllerCore.submit_portState] at hport
    exact ⟨(congrArg PortState.isConnected hport).trans hconn,
      (congrArg PortState.state hport).trans hstate, h.readyState⟩

theorem ReadyUnconnected.handlePacket (pkt : Packet) (h : ReadyUnconnected s) :
    ReadyUnconnected (handlePacket p throws pkt s) := by
  have hheartbeat : ReadyUnconnected
      (handleHeartbeatAck p pkt (onCore (ControllerCore.receive pkt) s)) := by
    unfold handleHeartbeatAck
    split_ifs <;> exact ⟨h.isConnected, h.state, h.readyState⟩
  have hack : ∀ {s : Controller}, ReadyUnconnected s → ReadyUnconnected (handleAck p throws pkt s) := by
    intro s hs
    unfold handleAck
    split_ifs
    · exact hs.sendCallback (ControllerCore.updateAcked_portState _ _)
    · exact hs
  have hdispatch : ∀ {s : Controller}, ReadyUnconnected s → ReadyUnconnected (handleDispatch p pkt s) := by
    intro s hs
    unfold handleDispatch
    simp only [hs.state, reduceCtorEq, ne_eq, not_true_eq_false, and_false, if_false, if_true]
    split_ifs <;> exact ⟨hs.isConnected, hs.state, hs.readyState⟩
  exact hdispatch (hack hheartbeat)

/-- The handshake is accepted without a connection. -/
theorem readyUnconnected_of_handshake {pkt : Packet} (hpkt : AcceptedHandshake p pkt)
    (hstate : s.state ≠ .running) (hconn : s.isConnected = false) :
    ReadyUnconnected (handlePacket p throws pkt s) := by
  have haccept : ReadyUnconnected (acceptHandshake (onCore (ControllerCore.receive pkt) s)) := by
    refine ⟨?_, ?_, ?_⟩
    · rw [acceptHandshake, publishReady_core]
      exact hconn
    · rw [acceptHandshake, publishReady_core]
    · rw [acceptHandshake, publishReady_readyState]
  obtain ⟨payload, h⟩ := handlePacket_accepted throws hstate hpkt
  rw [h]
  exact ⟨haccept.isConnected, haccept.state, haccept.readyState⟩

/-- A step that breaks the condition leaves `ready` true without a connection. -/
theorem readyUnconnected_of_not {event : ControllerEvent}
    (hnot : ¬ HandshakesConnected p throws s event) (hstep : step p throws s event = some s') :
    ReadyUnconnected s' := by
  unfold HandshakesConnected at hnot
  split at hnot
  · next index data =>
    push Not at hnot
    obtain ⟨read, hread, hcurrent, hdata, c, hc, hpkt, hstate, hconn⟩ := hnot
    have hread : s.reads[index]? = some read := hread
    simp only [step, hread] at hstep
    split_ifs at hstep
    obtain rfl := Option.some.inj hstep
    have hingest : ReadyUnconnected (ingestReceivedBytes p throws data
        (completeSerialOp { s with reads := s.reads.eraseIdx index })) :=
      feedDataWithRecovery_of_call (J := ReadyUnconnected)
        (fun _ _ h => ⟨h.isConnected, h.state, h.readyState⟩) (fun pkt _ h => h.handlePacket pkt) hc
        (readyUnconnected_of_handshake hpkt hstate (by simpa using hconn))
    have hcurrent' : (completeSerialOp { s with reads := s.reads.eraseIdx index }).isCurrent
        read.port read.generation = true := by
      rw [completeSerialOp_core]
      exact hcurrent
    have hlength : data.length ≠ 0 := by simpa using hdata
    unfold handleReceive
    simp only [hcurrent', classifyReceiveResult, hlength, false_and, reduceCtorEq, if_false]
    unfold startReceive
    split
    · exact hingest
    · rw [if_pos (.inl hingest.isConnected)]
      exact hingest
  · exact absurd trivial hnot

end Controller

-- ---------------------------------------------------------------------------
-- The result
-- ---------------------------------------------------------------------------

open Controller

variable {p : Protocol} {throws : Nat → Bool} {s : Controller}

/-- **Ready tells the truth.** In a run in which no matching Handshake packet comes behind a reset in
the same chunk, `ready` is true if and only if the port is connected and the state is `RUNNING`; and
the first step in which one does makes it false. -/
theorem ready_iff_connected
    (h : (controllerMachine p throws).ReachableBy (HandshakesConnected p throws) s) :
    s.ReadyTruthful ∧ ∀ event s', (controllerMachine p throws).step s event = some s' →
      (s'.ReadyTruthful ↔ HandshakesConnected p throws s event) := by
  have hinv : ∀ {s}, (controllerMachine p throws).ReachableBy (HandshakesConnected p throws) s →
      s.ReadyTruthful := fun h =>
    (readyInv_invariant.reachable (fun _ _ hevent => hevent.permitted) h).1.truthful
  refine ⟨hinv h, fun event s' hstep => ⟨fun htruth => ?_, fun hevent => ?_⟩⟩
  · by_contra hnot
    have hbroken := readyUnconnected_of_not hnot hstep
    have hconn := (htruth.mp hbroken.readyState).1
    rw [hbroken.isConnected] at hconn
    cases hconn
  · exact hinv (.step h hevent hstep)

/-- The state after a sequence of events in which the `n`-th operation throws and every step passes a
check. -/
def throwingRun (p : Protocol) (n : Nat) (check : Controller → ControllerEvent → Bool)
    (events : List ControllerEvent) : Option Controller :=
  (PacketHandler.new p.bufferSize).bind fun h =>
    (controllerMachine p (· == n)).runChecked check (Controller.new p h) events

theorem reachableBy_of_throwingRun {n : Nat} {check : Controller → ControllerEvent → Bool}
    {P : Controller → ControllerEvent → Prop} (hcheck : ∀ s event, check s event → P s event)
    {events : List ControllerEvent} (h : throwingRun p n check events = some s) :
    (controllerMachine p (· == n)).ReachableBy P s := by
  obtain ⟨handler, hnew, hrun⟩ := Option.bind_eq_some_iff.mp h
  exact Machine.ReachableBy.of_runChecked hcheck (.initial ⟨handler, hnew, rfl⟩) hrun

/-- `demoProtocol` with `buffer_size: 16`: the ring holds 31 bytes. -/
def smallProtocol : Protocol := { demoProtocol with bufferSize := 16 }

/-- An Ack, a full ring of noise, and a Handshake packet behind it. -/
def ackedHandshake (p : Protocol) : List UInt8 :=
  frame p packetIdAck [2, 0] ++ List.replicate 24 0 ++
    frame p packetIdHandshake (leBytes 4 p.protocolHash.toNat)

/-- Two reliable messages are queued, the first awaits its Ack, and the chunk comes. -/
def ackedHandshakeEvents (p : Protocol) : List ControllerEvent :=
  awaitingEvents p ++
  [.reliableSend 2 [2, 0, 0, 0], .run 0 0, .readDone 0 .success (ackedHandshake p)]

/-- The next read fails to start: no handshake is accepted behind that reset. -/
theorem ready_iff_connected_small : ∃ s,
    throwingRun smallProtocol 9 (fun s event => decide (HandshakesConnected smallProtocol (· == 9) s event))
      (ackedHandshakeEvents smallProtocol) = some s ∧ s.ReadyTruthful := by
  have hrun : (throwingRun smallProtocol 9
      (fun s event => decide (HandshakesConnected smallProtocol (· == 9) s event))
      (ackedHandshakeEvents smallProtocol)).isSome := by decide +kernel
  obtain ⟨s, hs⟩ := Option.isSome_iff_exists.mp hrun
  exact ⟨s, hs, (ready_iff_connected
    (reachableBy_of_throwingRun (fun _ _ hcheck => of_decide_eq_true hcheck) hs)).1⟩

/-- The transmission that the Ack sets off fails to start: the connection is reset, and the Handshake
packet behind it makes `ready` true. -/
theorem not_readyTruthful :
    ¬ ∀ s, (controllerMachine smallProtocol (· == 8)).Reachable s → s.ReadyTruthful := by
  intro h
  have hrun : (throwingRun smallProtocol 8 (fun _ _ => true)
      (ackedHandshakeEvents smallProtocol)).map (fun s => (s.readyState, s.isConnected)) =
      some (true, false) := by decide +kernel
  obtain ⟨s, hs, hready⟩ := Option.map_eq_some_iff.mp hrun
  obtain ⟨hready, hconn⟩ := Prod.mk.inj hready
  have htruth := (h s (reachableBy_of_throwingRun (fun _ _ _ => trivial) hs)).mp hready
  rw [hconn] at htruth
  cases htruth.1

end AutoSerialBridge
