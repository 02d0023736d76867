import AutoSerialBridge.Codegen.Target
import AutoSerialBridge.Controller.Frame
import AutoSerialBridge.Reliable.Queue

/-!
# Auto Serial Bridge — packets before the handshake

What `handle_packet` does in `WAITING_HANDSHAKE`. Heartbeats and business packets are dropped, and a
Handshake packet whose hash does not match changes nothing, unless the configuration ignores the
mismatch. The Ack branch is not gated: reliable entries survive a reconnect, and an Ack that matches
one of them removes it before the peer is verified.

## Results

* `handlePacket_waiting` — **what has no effect before the handshake**.
* `not_onlyHandshakes` — a mismatch that is ignored, and an Ack of the previous connection.
-/

namespace AutoSerialBridge

open Lib

namespace Controller

/-- The members a packet must leave alone before the handshake. -/
structure Undisturbed (s s' : Controller) : Prop where
  state : s'.state = s.state
  heartbeatCount : s'.heartbeatCount = s.heartbeatCount
  lastHeartbeatTxCount : s'.lastHeartbeatTxCount = s.lastHeartbeatTxCount
  heartbeatAckWaitStartedAt : s'.heartbeatAckWaitStartedAt = s.heartbeatAckWaitStartedAt
  awaitingHeartbeatAck : s'.awaitingHeartbeatAck = s.awaitingHeartbeatAck
  readyState : s'.readyState = s.readyState
  pending : s'.reliableSender.pending = s.reliableSender.pending

variable (p : Protocol)

/-- The packet is an Ack for the front entry of a queue, and the entry awaits it. -/
def AcksPending (pkt : Packet) (s : Controller) : Prop :=
  pkt.id = packetIdAck ∧ pkt.payload.length = p.sizeofPacket packetIdAck ∧
    ∃ entry ∈ (s.reliableSender.pending (p.member 0 pkt).toUInt8).head?,
      entry.expectedSeq = (p.member 1 pkt).toUInt8 ∧ entry.awaitingAck = true

variable {p} (throws : Nat → Bool) {s : Controller} {pkt : Packet}

/-- An Ack that matches no awaiting entry changes nothing. -/
theorem handleAck_of_not_acksPending (h : ¬ AcksPending p pkt s) :
    handleAck p throws pkt s = s := by
  unfold handleAck
  split_ifs with hack
  · have hmiss : ReliableSender.onAckReceivedImpl p s.reliableSender (p.member 0 pkt).toUInt8
        (p.member 1 pkt).toUInt8 = (s.reliableSender, none) := by
      refine ReliableSender.onAckReceivedImpl_of_mismatch fun entry hentry => ?_
      by_cases hseq : entry.expectedSeq = (p.member 1 pkt).toUInt8
      · refine .inr ?_
        by_contra hawait
        exact h ⟨hack.1, hack.2, entry, hentry, hseq, by simpa using hawait⟩
      · exact .inl hseq
    have hcore : s.toControllerCore.updateAcked p (p.member 0 pkt).toUInt8
        (p.member 1 pkt).toUInt8 = s.toControllerCore := by
      unfold ControllerCore.updateAcked
      simp only [hmiss, if_true]
      rfl
    unfold senderAckReceived onCore
    simp only [hmiss, hcore]
    rfl
  · rfl

/-- A packet other than a Handshake packet is recorded, and that is all. -/
theorem handlePacket_dropped (hrequire : p.requireHandshake = true)
    (hstate : s.state = .waitingHandshake) (hid : pkt.id ≠ packetIdHandshake)
    (hack : ¬ AcksPending p pkt s) :
    handlePacket p throws pkt s = onCore (ControllerCore.receive pkt) s := by
  have hheartbeat : handleHeartbeatAck p pkt (onCore (ControllerCore.receive pkt) s) =
      onCore (ControllerCore.receive pkt) s := by
    unfold handleHeartbeatAck
    rw [if_neg]
    rintro ⟨-, hrunning, -⟩
    have hrunning : s.state = .running := hrunning
    rw [hstate] at hrunning
    cases hrunning
  have hack' : ¬ AcksPending p pkt (onCore (ControllerCore.receive pkt) s) := hack
  have hnotrunning : (onCore (ControllerCore.receive pkt) s).state ≠ .running := by
    show s.state ≠ .running
    rw [hstate]
    decide
  unfold handlePacket
  simp only [hheartbeat, handleAck_of_not_acksPending throws hack']
  unfold handleDispatch
  simp only [hrequire, hid, hnotrunning, if_true, if_false]

/-- A Handshake packet that is malformed or whose hash is rejected is recorded and dispatched. -/
theorem handlePacket_rejected (hrequire : p.requireHandshake = true)
    (hstate : s.state = .waitingHandshake) (hid : pkt.id = packetIdHandshake)
    (hpkt : ¬ AcceptedHandshake p pkt) :
    ∃ payload, handlePacket p throws pkt s =
      dispatchToProtocol pkt.id payload (onCore (ControllerCore.receive pkt) s) := by
  have hprocess : processHandshake p pkt (onCore (ControllerCore.receive pkt) s) =
      onCore (ControllerCore.receive pkt) s := by
    unfold processHandshake
    split_ifs with hlen
    · rfl
    · split
      · rfl
      · next hclass => exact absurd ⟨hid, by simpa using hlen, hclass⟩ hpkt
  have hwaiting : (onCore (ControllerCore.receive pkt) s).state = .waitingHandshake := hstate
  rw [handlePacket_handshake hid]
  unfold handleDispatch
  simp only [hrequire, if_true, if_pos hid, if_pos hwaiting, hprocess]
  exact ⟨_, rfl⟩

/-- A Handshake packet that is accepted is recorded and dispatched, and the state is `RUNNING`. -/
theorem handlePacket_accepted (hstate : s.state ≠ .running) (hpkt : AcceptedHandshake p pkt) :
    ∃ payload, handlePacket p throws pkt s = dispatchToProtocol pkt.id payload
      (acceptHandshake (onCore (ControllerCore.receive pkt) s)) := by
  have hprocess : processHandshake p pkt (onCore (ControllerCore.receive pkt) s) =
      acceptHandshake (onCore (ControllerCore.receive pkt) s) := by
    unfold processHandshake
    rw [if_neg (not_not.mpr hpkt.size)]
    split
    · next hclass => exact absurd hclass hpkt.hash
    · rfl
  have hwaiting : (onCore (ControllerCore.receive pkt) s).state = .waitingHandshake := by
    cases hs : s.state with
    | waitingHandshake => exact hs
    | running => exact absurd hs hstate
  rw [handlePacket_handshake hpkt.id]
  unfold handleDispatch
  simp only [hpkt.id, hwaiting, hprocess, reduceCtorEq, ne_eq, not_false_eq_true, and_self, if_true]
  split_ifs <;> exact ⟨_, rfl⟩

end Controller

open Controller

variable (p : Protocol) (throws : Nat → Bool)

/-- **Before the handshake.** In `WAITING_HANDSHAKE` a packet other than a Handshake packet is not
dispatched and leaves the state, the heartbeat, `ready` and the pending queues alone, if it is no Ack
that a front entry awaits; so does a Handshake packet whose hash does not match, if mismatches are
not ignored. -/
theorem handlePacket_waiting (hrequire : p.requireHandshake = true) (s : Controller)
    (hstate : s.state = .waitingHandshake) (pkt : Packet) :
    (pkt.id ≠ packetIdHandshake → ¬ AcksPending p pkt s →
      Undisturbed s (handlePacket p throws pkt s) ∧
        (handlePacket p throws pkt s).dispatched = s.dispatched) ∧
    (pkt.id = packetIdHandshake → p.member 0 pkt ≠ p.protocolHash →
      p.ignoreVersionMismatch = false → Undisturbed s (handlePacket p throws pkt s)) := by
  constructor
  · intro hid hack
    rw [handlePacket_dropped throws hrequire hstate hid hack]
    exact ⟨⟨rfl, rfl, rfl, rfl, rfl, rfl, rfl⟩, rfl⟩
  · intro hid hhash hignore
    have hpkt : ¬ AcceptedHandshake p pkt := by
      rintro ⟨-, -, hclass⟩
      unfold classifyHandshakeValidation at hclass
      rw [if_neg (Ne.symm hhash), hignore] at hclass
      exact hclass rfl
    obtain ⟨payload, h⟩ := handlePacket_rejected throws hrequire hstate hid hpkt
    rw [h]
    exact ⟨rfl, rfl, rfl, rfl, rfl, rfl, rfl⟩

/-- Nothing but a matching Handshake packet has an effect before the handshake. -/
def OnlyHandshakes : Prop :=
  ∀ s, (controllerMachine p throws).Reachable s → s.state = .waitingHandshake → ∀ pkt,
    (pkt.id ≠ packetIdHandshake → Undisturbed s (handlePacket p throws pkt s) ∧
      (handlePacket p throws pkt s).dispatched = s.dispatched) ∧
    (pkt.id = packetIdHandshake → p.member 0 pkt ≠ p.protocolHash →
      Undisturbed s (handlePacket p throws pkt s))

-- ---------------------------------------------------------------------------
-- Runs of the demo protocol
-- ---------------------------------------------------------------------------

/-- The state after a sequence of events in which nothing throws. -/
def demoRun (p : Protocol) (events : List ControllerEvent) : Option Controller :=
  (PacketHandler.new p.bufferSize).bind fun h =>
    (controllerMachine p fun _ => false).run (Controller.new p h) events

theorem reachable_of_demoRun {p : Protocol} {events : List ControllerEvent} {s : Controller}
    (h : demoRun p events = some s) : (controllerMachine p fun _ => false).Reachable s := by
  obtain ⟨handler, hnew, hrun⟩ := Option.bind_eq_some_iff.mp h
  exact Machine.Reachable.of_run (.initial ⟨handler, hnew, rfl⟩) hrun

/-- What can be read off the end of a run holds of a reachable state. -/
theorem exists_of_demoRun {α : Type} {p : Protocol} {events : List ControllerEvent}
    {f : Controller → α} {a : α} (h : (demoRun p events).map f = some a) :
    ∃ s, (controllerMachine p fun _ => false).Reachable s ∧ f s = a := by
  obtain ⟨s, hs, hf⟩ := Option.map_eq_some_iff.mp h
  exact ⟨s, reachable_of_demoRun hs, hf⟩

/-- The port is opened. -/
def connectEvents : List ControllerEvent := [.connectionTimer, .run 0 0]

/-- A reliable message is sent and awaits its Ack: handshake, `reliable_send`, write. -/
def awaitingEvents (p : Protocol) : List ControllerEvent :=
  connectEvents ++
  [.readDone 0 .success (frame p packetIdHandshake (leBytes 4 p.protocolHash.toNat)),
    .run 0 0, .writeDone 0 .success,
    .reliableSend 2 [1, 0, 0, 0], .run 0 0, .writeDone 0 .success]

/-- … and the connection is lost and taken up again. -/
def reconnectedEvents (p : Protocol) : List ControllerEvent :=
  awaitingEvents p ++ .readDone 0 .failure [] :: connectEvents

/-- `demoProtocol` with `ignore_version_mismatch: true`. -/
def lenientProtocol : Protocol := { demoProtocol with ignoreVersionMismatch := true }

/-- The first reconnected state: `handlePacket_waiting` applies to it. -/
theorem handlePacket_waiting_demo :
    ∃ s, (demoRun demoProtocol (reconnectedEvents demoProtocol)) = some s ∧
      Undisturbed s (handlePacket demoProtocol (fun _ => false) ⟨1, [0, 0, 0, 0]⟩ s) := by
  have hrun : (demoRun demoProtocol (reconnectedEvents demoProtocol)).map (·.state) =
      some .waitingHandshake := by decide +kernel
  obtain ⟨s, hs, hstate⟩ := Option.map_eq_some_iff.mp hrun
  refine ⟨s, hs, ((handlePacket_waiting demoProtocol (fun _ => false) rfl s hstate
    ⟨1, [0, 0, 0, 0]⟩).1 (by decide) ?_).1⟩
  rintro ⟨hid, -⟩
  exact absurd hid (by decide)

/-- A mismatch is accepted when the configuration says so, and after a reconnect an Ack removes the
entry it matches. -/
theorem not_onlyHandshakes :
    ¬ OnlyHandshakes lenientProtocol (fun _ => false) ∧
      ¬ OnlyHandshakes demoProtocol (fun _ => false) := by
  constructor
  · intro h
    have hrun : (demoRun lenientProtocol connectEvents).map (fun s => (s.state,
        (handlePacket lenientProtocol (fun _ => false) ⟨0xFF, [0, 0, 0, 0]⟩ s).state)) =
        some (.waitingHandshake, .running) := by decide +kernel
    obtain ⟨s, hs, hstates⟩ := exists_of_demoRun hrun
    obtain ⟨hwaiting, hrunning⟩ := Prod.mk.inj hstates
    have hstate := ((h s hs hwaiting ⟨0xFF, [0, 0, 0, 0]⟩).2 rfl (by decide)).state
    rw [hwaiting, hrunning] at hstate
    cases hstate
  · intro h
    have hrun : (demoRun demoProtocol (reconnectedEvents demoProtocol)).map (fun s => (s.state,
        (s.reliableSender.pending 2).length,
        ((handlePacket demoProtocol (fun _ => false) ⟨0xFD, [2, 0]⟩ s).reliableSender.pending
          2).length)) = some (.waitingHandshake, 1, 0) := by decide +kernel
    obtain ⟨s, hs, hstates⟩ := exists_of_demoRun hrun
    obtain ⟨hwaiting, hbefore, hafter⟩ : _ ∧ _ ∧ _ := by simpa using hstates
    have hpending := ((h s hs hwaiting ⟨0xFD, [2, 0]⟩).1 (by decide)).1.pending
    rw [hpending] at hafter
    simp [hafter] at hbefore

end AutoSerialBridge
