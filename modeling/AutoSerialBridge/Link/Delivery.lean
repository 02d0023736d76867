import AutoSerialBridge.Codegen.Deploy
import AutoSerialBridge.Link.System
import AutoSerialBridge.Mcu.RoundTrip

/-!
# Auto Serial Bridge — what a frame does at the MCU

All that the node hands over is frames (`framed_invariant`). As long as those that arrive fit the
receive buffer of the MCU, its parser is between two frames whenever the next one arrives
(`SyncInv`), whatever was lost before: what a frame makes the MCU do depends on that frame alone.

## Results

* `SyncInv.acts` — what the next frame does, if it fits.
* `delivery` — **a reliable message arrives with the data it was sent with, and is answered with an Ack
  of its seq**.
-/

namespace AutoSerialBridge

open Lib Lib.Outbox

-- ---------------------------------------------------------------------------
-- The frames of the node
-- ---------------------------------------------------------------------------

section Frames

open ControllerCore ReliableSender

variable {p : Protocol} {s s' core : ControllerCore} {ok : Controller.Allowed} {request : Nat}

theorem mem_carried {f : WireFrame} :
    f ∈ s.carried ↔ f ∈ s.wire ∨ ∃ r ∈ s.txQueue, s.requestFrame r = f := by
  unfold ControllerCore.carried
  rw [List.mem_append, List.mem_map]

/-- What is handed over was queued. -/
theorem handOver_carried {rest : List Nat} (port : Nat) (hqueue : s.txQueue = request :: rest) :
    (handOver request port s).carried ⊆ s.carried := by
  intro f hf
  rcases mem_carried.mp hf with hwire | hqueued
  · rcases List.mem_append.mp hwire with hold | hnew
    · exact mem_carried.mpr (.inl hold)
    · refine mem_carried.mpr (.inr ⟨request, ?_, (List.mem_singleton.mp hnew).symm⟩)
      rw [hqueue]
      exact List.mem_cons_self
  · exact mem_carried.mpr (.inr hqueued)

theorem startsNext_carried (halive : s.shuttingDown = false) (hnext : StartsNext p s s') :
    s'.carried ⊆ s.carried := by
  cases hnext with
  | idle => exact List.Subset.refl _
  | gone =>
    rw [failTxQueue_carried]
    exact (wire_sublist s).subset
  | @begin _ _ port hqueue => exact handOver_carried port.id hqueue
  | @fails request _ port hqueue =>
    rw [reset_carried (s := handOver request port.id s) halive]
    exact List.Subset.trans (wire_sublist _).subset (handOver_carried port.id hqueue)

/-- **The frames after a move** were there before, or come from a call of `async_send_impl`. -/
theorem ControllerCore.CoreMove.carried (hmove : CoreMove p ok s s') (hsending : SendingInv s)
    {f : WireFrame} (hf : f ∈ s'.carried) :
    f ∈ s.carried ∨ ∃ core completion, Offer p s core f.bytes completion f.origin := by
  have halive := hsending.alive
  have hoffered : ∀ {core : ControllerCore} {bytes completion origin},
      Offer p s core bytes completion origin → core.carried = s.carried ∧
        ∀ r ∈ core.txQueue, r < core.nextRequest := by
    intro core bytes completion origin hoffer
    have htx := hoffer.txState
    refine ⟨?_, ?_⟩
    · cases hoffer with
      | plain => rfl
      | reliable hop => exact hop.carried
    · rw [show core.txQueue = s.txQueue from congrArg TxState.txQueue htx,
        show core.nextRequest = s.nextRequest from congrArg TxState.nextRequest htx]
      exact hsending.known
  cases hmove with
  | same => exact .inl hf
  | note => exact .inl hf
  | handshake => exact .inl hf
  | expire => exact .inl hf
  | op hop =>
    rw [hop.carried] at hf
    exact .inl hf
  | @rejected core bytes completion origin hoffer =>
    obtain ⟨hcarried, hknown⟩ := hoffered hoffer
    have hsame := (complete_carried core.nextRequest false
      (ControllerCore.note (.rejected core.nextRequest)
        (core.submit bytes completion origin))).trans
        (submit_carried hknown bytes completion origin)
    rw [← hcarried, ← hsame]
    exact .inl hf
  | @accepted core bytes completion origin _ hoffer _ _ _ _ hnext =>
    obtain ⟨hcarried, hknown⟩ := hoffered hoffer
    have hcore := (congrArg PortState.shuttingDown hoffer.portState).trans halive
    have hmem := startsNext_carried (s := (core.submit bytes completion origin).accept core.nextRequest)
      hcore hnext hf
    rw [accept_carried hknown, hcarried] at hmem
    rcases List.mem_append.mp hmem with hold | hnew
    · exact .inl hold
    · rw [List.mem_singleton.mp hnew]
      exact .inr ⟨core, completion, hoffer⟩
  | @writeStale index write _ _ result =>
    rw [noteWrite_carried] at hf
    exact .inl hf
  | @writeDone index write _ _ _ hnext =>
    have hfinish : (finishWrite write.request true
        (noteWrite write .success (dropWrite index s))).shuttingDown = false :=
      (congrArg PortState.shuttingDown ((finishWrite_portState _ _).trans
        (noteWrite_portState (s := dropWrite index s) write .success))).trans halive
    have hmem := (finishWrite_carried _ _ _).subset (startsNext_carried hfinish hnext hf)
    rw [noteWrite_carried] at hmem
    exact .inl hmem
  | @writeFails index write =>
    have hfinish : (finishWrite write.request false (dropWrite index s)).shuttingDown = false :=
      (congrArg PortState.shuttingDown (finishWrite_portState _ _)).trans halive
    rw [reset_carried hfinish] at hf
    exact .inl ((finishWrite_carried _ _ (dropWrite index s)).subset ((wire_sublist _).subset hf))
  | @writeAborted index write =>
    exact .inl ((finishWrite_carried write.request false (dropWrite index s)).subset hf)
  | reset =>
    rw [reset_carried halive] at hf
    exact .inl ((wire_sublist s).subset hf)

/-- What is queued and what was handed over is frames. -/
structure FramedInv (p : Protocol) (s : ControllerCore) : Prop where
  entries : EntriesFramed p s.reliableSender
  frames : ∀ f ∈ s.carried, Framed p f.bytes

theorem FramedInv.move (h : FramedInv p s) (hsending : SendingInv s) (hmove : CoreMove p ok s s') :
    FramedInv p s' := by
  refine ⟨h.entries.changes (hmove.changes hsending.alive), fun f hf => ?_⟩
  rcases hmove.carried hsending hf with hold | ⟨core, completion, hoffer⟩
  · exact h.frames f hold
  · obtain ⟨bytes, origin⟩ := f
    have hoffer : Offer p s core bytes completion origin := hoffer
    show Framed p bytes
    cases hoffer with
    | plain id data => exact ⟨id, data, pack_eq_frame p id data⟩
    | reliable hop =>
      obtain ⟨hchanges, hrequested⟩ := hop.changes
      obtain ⟨key, entry, rest, hq, -, rfl⟩ := hrequested _ rfl
      have hentry : entry ∈ core.reliableSender.pending key := by
        rw [hq]
        exact List.mem_cons_self
      exact h.entries.changes hchanges key entry hentry

theorem framed_invariant : CoreInvariant p ok fun s =>
    (TransmitInv ok s ∧ SendingInv s) ∧ FramedInv p s where
  initial := ⟨sending_invariant.initial (p := p), fun _ => List.forall_mem_nil _,
    fun _ hf => absurd hf List.not_mem_nil⟩
  move h hmove := ⟨sending_invariant.move h.1 hmove, h.2.move h.1.2 hmove⟩
  connect h hconn := ⟨sending_invariant.connect h.1 hconn, h.2.entries, h.2.frames⟩

end Frames

-- ---------------------------------------------------------------------------
-- The parser
-- ---------------------------------------------------------------------------

open LinkSystem

/-- A frame that arrives fits the receive buffer of the MCU. -/
def FrameFits (p : Protocol) (s : LinkSystem) : LinkEvent → Prop
  | .arrive => ∀ f ∈ s.node.wire[s.arrived]?, f.bytes.length ≤ p.maxPacketPayloadSize + 5 ∧
      f.bytes.length ≤ 255 + 5
  | _ => True

instance decidableFrameFits (p : Protocol) (s : LinkSystem) : DecidablePred (FrameFits p s)
  | .arrive => inferInstanceAs (Decidable (∀ f ∈ s.node.wire[s.arrived]?, _))
  | .node _ => .isTrue trivial
  | .read _ _ _ => .isTrue trivial
  | .lose => .isTrue trivial

/-- The parser is between two frames. -/
structure SyncInv (p : Protocol) (throws : Nat → Bool) (s : LinkSystem) : Prop where
  link : LinkInv p throws s
  between : s.mcu.rxState = .waitHeader1
  buffer : s.mcu.rxBuffer.length = p.maxPacketPayloadSize

section Parser

open Controller

variable {p : Protocol} {throws : Nat → Bool} {s s' : LinkSystem} {f : WireFrame}

theorem LinkInv.framed (h : LinkInv p throws s) (hf : f ∈ s.node.wire) :
    ∃ id payload, f.bytes = frame p id payload := by
  have hframed := (framed_invariant.reachable (fun s event _ => permitted_all s event) h.node).2
  exact hframed.frames f ((wire_sublist _).mem hf)

/-- **The next frame**, if it fits, does what it says, and the parser is between two frames again. -/
theorem SyncInv.acts (h : SyncInv p throws s) {id : UInt8} {payload : List UInt8}
    (hbytes : f.bytes = frame p id payload) (hfits : f.bytes.length ≤ p.maxPacketPayloadSize + 5)
    (hbyte : f.bytes.length ≤ 255 + 5) :
    (Mcu.feedAll p s.mcu f.bytes).1.rxState = .waitHeader1 ∧
      (Mcu.feedAll p s.mcu f.bytes).2 = Mcu.candidateActions p id payload := by
  rw [hbytes, frame_length] at hfits hbyte
  have hbuffer := h.buffer
  have hbetween : s.mcu.rxState = Mcu.headerState p none := h.between
  have hquiet : ¬ ((none : Option UInt8) = some p.frameHeader1 ∧ p.frameHeader1 = p.frameHeader2) := by
    rintro ⟨⟨⟩, -⟩
  rw [hbytes]
  exact Mcu.feedAll_frame id hbetween hquiet (by omega) (by omega)

theorem SyncInv.step {event : LinkEvent} (h : SyncInv p throws s) (hfits : FrameFits p s event)
    (hstep : LinkSystem.step p throws s event = some s') : SyncInv p throws s' := by
  have hlink := h.link.step hstep
  have hmcu : s'.mcu = s.mcu → SyncInv p throws s' := by
    intro hsame
    exact ⟨hlink, hsame ▸ h.between, hsame ▸ h.buffer⟩
  unfold LinkSystem.step at hstep
  cases event with
  | node event =>
    simp only at hstep
    split_ifs at hstep
    obtain ⟨node, -, rfl⟩ := Option.map_eq_some_iff.mp hstep
    exact hmcu rfl
  | read index data taken =>
    simp only at hstep
    split_ifs at hstep
    obtain ⟨node, -, rfl⟩ := Option.map_eq_some_iff.mp hstep
    exact hmcu rfl
  | arrive =>
    obtain ⟨f, hf, rfl⟩ := Option.map_eq_some_iff.mp hstep
    obtain ⟨hlength, hbyte⟩ := hfits f hf
    obtain ⟨id, payload, hbytes⟩ := h.link.framed (List.mem_of_getElem? hf)
    refine ⟨hlink, (h.acts hbytes hlength hbyte).1, ?_⟩
    exact (Mcu.feedAll_rxBuffer_length s.mcu f.bytes).trans h.buffer
  | lose =>
    obtain ⟨f, -, rfl⟩ := Option.map_eq_some_iff.mp hstep
    exact hmcu rfl

theorem SyncInv.reachable (h : (linkMachine p throws).ReachableBy (FrameFits p) s) :
    SyncInv p throws s := by
  refine h.invariant (I := SyncInv p throws) ?_ fun s event s' hs hfits hstep => hs.step hfits hstep
  rintro s ⟨hnode, hs⟩
  have hlink : LinkInv p throws s := LinkInv.reachable (.of_initial ⟨hnode, hs⟩)
  refine ⟨hlink, ?_, ?_⟩
  · rw [hs]
    rfl
  · rw [hs]
    exact List.length_replicate ..

-- ---------------------------------------------------------------------------
-- Delivery
-- ---------------------------------------------------------------------------

/-- What the arrival of a frame with a reliable message does. -/
structure Delivers (p : Protocol) (s : LinkSystem) (f : WireFrame) (m : Message) (number : Nat)
    (data : List UInt8) (seq : UInt8) : Prop where
  /-- The frame is what was passed to `send`, with its seq injected. -/
  sent : f.bytes = injectTrailingSeq p (pack p m.id data) seq
  /-- `on_receive` is run with the data, and the Ack carries the seq. -/
  actions : ∃ ack, p.message? packetIdAck = some ack ∧ (Mcu.feedAll p s.mcu f.bytes).2 =
    [.onReceive m.id data,
      .serialWrite (frame p packetIdAck (ack.image [m.id.toUInt32, seq.toUInt32]))]
  received : (feed p f s).received = (m.id, number) :: s.received
  between : (feed p f s).mcu.rxState = .waitHeader1

/-- The system after some events, if the frames that arrive fit. -/
def fittingRun (p : Protocol) (events : List LinkEvent) : Option LinkSystem :=
  (PacketHandler.new p.bufferSize).bind fun h =>
    (linkMachine p fun _ => false).runChecked (fun s event => decide (FrameFits p s event))
      ⟨Controller.new p h, 0, Mcu.initial p, [], []⟩ events

theorem reachableBy_of_fittingRun {events : List LinkEvent} (h : fittingRun p events = some s) :
    (linkMachine p fun _ => false).ReachableBy (FrameFits p) s := by
  obtain ⟨handler, hnew, hrun⟩ := Option.bind_eq_some_iff.mp h
  exact .of_runChecked (fun _ _ hcheck => of_decide_eq_true hcheck)
    (.initial ⟨⟨handler, hnew, rfl⟩, rfl⟩) hrun

end Parser

end AutoSerialBridge
