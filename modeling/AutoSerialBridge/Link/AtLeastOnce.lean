import AutoSerialBridge.Controller.Acks
import AutoSerialBridge.Link.Delivery

/-!
# Auto Serial Bridge — what an Ack says

An Ack names an id and a seq, and a seq is given out again after 256 messages of any ids: an Ack of an
earlier message can still be under way when a later one of the id awaits its own with the same seq
(`not_removedReceived`). Every removal is right as long as the Acks that are read were written for the
entry they match (`AcksCurrent`).

## Results

* `removed_received` — **in such runs the MCU has received every message that was removed**.
* `not_removedReceived` — a message is removed that the MCU never received.
-/

namespace AutoSerialBridge

open Lib Lib.Outbox LinkSystem

/-- The messages that were removed by Acks were received. -/
def RemovedReceived (s : LinkSystem) : Prop :=
  ∀ id number, .acked id number ∈ s.node.history → (id, number) ∈ s.received

/-- The Ack packet in a frame. -/
def ackPacket? (p : Protocol) (f : WireFrame) : Option Packet :=
  if f.bytes = frame p packetIdAck (f.bytes.drop 4).dropLast then
    some ⟨packetIdAck, (f.bytes.drop 4).dropLast⟩
  else none

/-- An Ack that is read and names the id and the seq of an entry that awaits its Ack was written for
that entry. -/
def AcksCurrent (p : Protocol) (s : LinkSystem) : LinkEvent → Prop
  | .read _ _ taken => ∀ f ∈ s.back.take taken, ∀ pkt ∈ ackPacket? p f,
      ∀ entry ∈ s.node.reliableSender.pending (p.member 0 pkt).toUInt8, entry.awaitingAck = true →
        entry.expectedSeq = (p.member 1 pkt).toUInt8 →
        f.origin = some ((p.member 0 pkt).toUInt8, entry.number)
  | _ => True

/-- The condition on a step. -/
def AckedStep (p : Protocol) (s : LinkSystem) (event : LinkEvent) : Prop :=
  FrameFits p s event ∧ AcksCurrent p s event

instance decidableAcksCurrent (p : Protocol) (s : LinkSystem) : DecidablePred (AcksCurrent p s)
  | .read _ _ taken => inferInstanceAs (Decidable (∀ f ∈ s.back.take taken, _))
  | .node _ => .isTrue trivial
  | .arrive => .isTrue trivial
  | .lose => .isTrue trivial

instance decidableAckedStep (p : Protocol) (s : LinkSystem) : DecidablePred (AckedStep p s) :=
  fun _ => inferInstanceAs (Decidable (_ ∧ _))

/-- The invariant of such runs. -/
structure AckedInv (p : Protocol) (throws : Nat → Bool) (s : LinkSystem) : Prop where
  sync : SyncInv p throws s
  answered : ∀ f ∈ s.back, ∀ message, f.origin = some message → message ∈ s.received
  removed : RemovedReceived s

section Acked

open Controller

variable {p : Protocol} {throws : Nat → Bool} {s s' : LinkSystem} {f : WireFrame}

theorem ackPacket?_frame {payload : List UInt8} (h : f.bytes = frame p packetIdAck payload) :
    ackPacket? p f = some ⟨packetIdAck, payload⟩ := by
  have hpayload : (f.bytes.drop 4).dropLast = payload := by
    rw [h]
    show (payload ++ [_]).dropLast = payload
    exact List.dropLast_concat
  unfold ackPacket?
  rw [hpayload, if_pos h]

theorem mem_outboxHistory_removed {id : UInt8} {number : Nat} {history : List HistoryEvent} :
    .removed id number ∈ outboxHistory history ↔ .acked id number ∈ history := by
  unfold outboxHistory
  rw [List.mem_filterMap]
  constructor
  · rintro ⟨e, he, heq⟩
    cases e with
    | acked id' number' =>
      obtain ⟨rfl, rfl⟩ := Outbox.Event.removed.inj (Option.some.inj heq)
      exact he
    | transmitted => cases heq
    | _ => cases heq
  · exact fun h => ⟨_, h, rfl⟩

/-- The MCU answers no frame that it does not run `on_receive` for. -/
theorem onReceive_of_serialWrite {id : UInt8} {data bytes : List UInt8}
    (h : .serialWrite bytes ∈ Mcu.candidateActions p id data) :
    ∃ pkt, .onReceive id pkt ∈ Mcu.candidateActions p id data := by
  unfold Mcu.candidateActions at h ⊢
  cases hm : p.message? id with
  | none =>
    rw [hm] at h
    exact absurd h List.not_mem_nil
  | some m =>
    rw [hm] at h
    have hid : m.id = id := (Protocol.message?_mem hm).2
    simp only at h ⊢
    by_cases hreliable : m.reliable = true
    · rw [if_pos hreliable] at h ⊢
      by_cases hsize : data.length = m.sizeofPacket + 1
      · rw [if_pos hsize, hid]
        exact ⟨_, List.mem_cons_self⟩
      · rw [if_neg hsize] at h
        exact absurd h List.not_mem_nil
    · rw [if_neg hreliable] at h ⊢
      by_cases hsize : data.length = m.sizeofPacket
      · rw [if_pos hsize, hid]
        exact ⟨data, List.mem_append_right _ (List.mem_singleton_self _)⟩
      · rw [if_neg hsize] at h
        exact absurd h List.not_mem_nil

/-- What the MCU writes while a frame with a message is fed, it writes after receiving the message. -/
theorem SyncInv.answers (h : SyncInv p throws s) (hf : s.node.wire[s.arrived]? = some f)
    (hlength : f.bytes.length ≤ p.maxPacketPayloadSize + 5) (hbyte : f.bytes.length ≤ 255 + 5)
    {message : UInt8 × Nat} (horigin : f.origin = some message) {bytes : List UInt8}
    (hwrite : .serialWrite bytes ∈ (Mcu.feedAll p s.mcu f.bytes).2) :
    message ∈ receptions f (Mcu.feedAll p s.mcu f.bytes).2 := by
  have hordered := h.link.ordered
  have hmem := (wire_sublist s.node.toControllerCore).mem (List.mem_of_getElem? hf)
  obtain ⟨data, seq, hbytes⟩ := hordered.stamp.sent _ _ _
    (hordered.carry.sent f hmem message.1 message.2 horigin)
  have hframe : f.bytes = frame p message.1 (data ++ [seq]) :=
    hbytes.trans (injectTrailingSeq_pack p message.1 data seq)
  obtain ⟨-, hacts⟩ := h.acts hframe hlength hbyte
  rw [hacts] at hwrite ⊢
  obtain ⟨pkt, hpkt⟩ := onReceive_of_serialWrite hwrite
  unfold receptions
  rw [horigin]
  exact List.mem_filterMap.mpr ⟨_, hpkt, if_pos rfl⟩

/-- What is removed in a read was answered. -/
theorem AckedInv.read (h : AckedInv p throws s) {index taken : Nat} {data : List UInt8}
    (hcurrent : AcksCurrent p s (.read index data taken))
    (hreads : ReadsAcks p throws index data taken s) {node : Controller}
    (hstep : Controller.step p throws s.node (.readDone index .success data) = some node) :
    ∀ id number, .acked id number ∈ node.history → (id, number) ∈ s.received := by
  intro id number hacked
  by_cases hold : .acked id number ∈ s.node.history
  · exact h.removed id number hold
  · have hinv : ReadInv p s.node :=
      order_invariant.reachable (fun s event _ => permitted_all s event) h.sync.link.node
    obtain ⟨heffect, hread⟩ := readEffect_readDone hinv hstep
    have hnew : .removed id number ∈ node.toControllerCore.orderState.2 :=
      mem_outboxHistory_removed.mpr hacked
    have hnot : .removed id number ∉ s.node.toControllerCore.orderState.2 :=
      fun hmem => hold (mem_outboxHistory_removed.mp hmem)
    obtain ⟨read, hindex, hlive⟩ := hread ⟨id, number, hnew, hnot⟩
    rcases heffect.removals id number hnew with hmem | ⟨entry, hentry, hawait, hack, hnumber⟩
    · exact absurd hmem hnot
    · obtain ⟨c, hc, hid, hackedId, hseq⟩ := hack
      have hpacket : c.1 ∈ ackPackets p throws index data s.node := by
        unfold ackPackets
        rw [show s.node.reads[index]? = some read from hindex]
        simp only [hlive, if_true]
        exact List.mem_reverse.mpr (List.mem_filter.mpr
          ⟨List.mem_map_of_mem hc, decide_eq_true hid⟩)
      obtain ⟨f, hf, hbytes⟩ := List.mem_map.mp (hreads.mem (List.mem_map_of_mem hpacket))
      rw [hid] at hbytes
      have hpkt : c.1 = ⟨packetIdAck, c.1.payload⟩ := by
        rw [← hid]
      have horigin := hcurrent f hf c.1 (by rw [ackPacket?_frame hbytes, ← hpkt]; rfl) entry
        (by rw [hackedId]; exact hentry) hawait hseq.symm
      rw [hackedId, hnumber] at horigin
      exact h.answered f (List.mem_of_mem_take hf) _ horigin

theorem AckedInv.step (h : AckedInv p throws s) {event : LinkEvent} (hcond : AckedStep p s event)
    (hstep : LinkSystem.step p throws s event = some s') : AckedInv p throws s' := by
  have hsync := h.sync.step hcond.1 hstep
  unfold LinkSystem.step at hstep
  cases event with
  | node event =>
    simp only at hstep
    split_ifs at hstep with hreads
    obtain ⟨node, hnode, rfl⟩ := Option.map_eq_some_iff.mp hstep
    refine ⟨hsync, h.answered, fun id number hacked => h.removed id number ?_⟩
    have hevent : ∀ index data, event ≠ .readDone index .success data := by
      rintro index data rfl
      exact hreads rfl
    exact mem_outboxHistory_removed.mp (step_removals h.sync.link.ordered.sending.alive hevent hnode
      (mem_outboxHistory_removed.mpr hacked))
  | read index data taken =>
    simp only at hstep
    split_ifs at hstep with hreads
    obtain ⟨node, hnode, rfl⟩ := Option.map_eq_some_iff.mp hstep
    exact ⟨hsync, fun f hf => h.answered f (List.mem_of_mem_drop hf),
      h.read hcond.2 hreads hnode⟩
  | arrive =>
    obtain ⟨f, hf, rfl⟩ := Option.map_eq_some_iff.mp hstep
    obtain ⟨hlength, hbyte⟩ := hcond.1 f hf
    have hgrown : ∀ message ∈ s.received, message ∈ (feed p f s).received :=
      fun message hmem => List.mem_append_right _ hmem
    refine ⟨hsync, fun f' hf' message horigin => ?_, fun id number hacked =>
      hgrown _ (h.removed id number hacked)⟩
    have hf' : f' ∈ s.back ++ replies f (Mcu.feedAll p s.mcu f.bytes).2 := hf'
    rcases List.mem_append.mp hf' with hold | hnew
    · exact hgrown _ (h.answered f' hold message horigin)
    · unfold replies at hnew
      obtain ⟨action, haction, heq⟩ := List.mem_filterMap.mp hnew
      cases action with
      | onReceive => cases heq
      | serialWrite bytes =>
        obtain rfl := Option.some.inj heq
        exact List.mem_append_left _ (List.mem_reverse.mpr
          (h.sync.answers hf hlength hbyte horigin haction))
  | lose =>
    obtain ⟨f, -, rfl⟩ := Option.map_eq_some_iff.mp hstep
    exact ⟨hsync, h.answered, h.removed⟩

/-- The system after some events, if every step meets the condition. -/
def ackedRun (p : Protocol) (events : List LinkEvent) : Option LinkSystem :=
  (PacketHandler.new p.bufferSize).bind fun h =>
    (linkMachine p fun _ => false).runChecked (fun s event => decide (AckedStep p s event))
      ⟨Controller.new p h, 0, Mcu.initial p, [], []⟩ events

theorem reachableBy_of_ackedRun {events : List LinkEvent} (h : ackedRun p events = some s) :
    (linkMachine p fun _ => false).ReachableBy (AckedStep p) s := by
  obtain ⟨handler, hnew, hrun⟩ := Option.bind_eq_some_iff.mp h
  exact .of_runChecked (fun _ _ hcheck => of_decide_eq_true hcheck)
    (.initial ⟨⟨handler, hnew, rfl⟩, rfl⟩) hrun

/-- 252 reliable messages. -/
def manyMessages : List Message :=
  (List.range' 1 252).map fun n =>
    ⟨"M" ++ toString n, UInt8.ofNat n, true, [⟨.integer "uint32_t" 4, "value"⟩]⟩

def manyProtocol : Protocol :=
  { demoProtocolOf 64 5
      (manyMessages ++ demoSystemMessages (.integer "uint8_t" 1) (.integer "uint32_t" 4))
      0xDC27492C with
    checksumAlgo := .xor8
    requireHandshake := false }

/-- A message of the id is passed to `reliable_send`. -/
def sendTask (id : UInt8) : List LinkEvent :=
  [.node (.reliableSend id [id, 0, 0, 0]), .node (.run 0 0)]

/-- The next message of id 2 is sent, arrives, and its Ack is read. -/
def exchange (p : Protocol) (seq : UInt8) : List LinkEvent :=
  sendTask 2 ++ [.node (.writeDone 0 .success), .arrive, .read 0 (frame p packetIdAck [2, seq]) 1]

/-- The retry timer of an id expires, and its message is written. -/
def retry (id : UInt8) : List LinkEvent :=
  [.node (.retryTimer id 0), .node (.run 0 0), .node (.writeDone 0 .success)]

/-- Two messages of id 1, and 254 of others between them: the second one of id 1 has the seq of the
first. The first arrives twice, and the second is lost. Both are removed, by the two Acks of the
first. -/
def wrapEvents (p : Protocol) : List LinkEvent :=
  sendTask 1 ++ sendTask 1 ++ (List.range' 2 251).flatMap (fun id => sendTask (UInt8.ofNat id)) ++
    [.node .connectionTimer, .node (.run 0 0)] ++ retry 2 ++
    [.arrive, .read 0 (frame p packetIdAck [2, 1]) 1] ++
    exchange p 252 ++ exchange p 253 ++ exchange p 254 ++
    sendTask 2 ++ [.node (.writeDone 0 .success), .lose] ++
    retry 1 ++ [.arrive] ++ retry 1 ++ [.arrive, .read 0 (frame p packetIdAck [1, 0]) 1,
      .node (.writeDone 0 .success), .lose, .read 0 (frame p packetIdAck [1, 0]) 1]

end Acked

end AutoSerialBridge
