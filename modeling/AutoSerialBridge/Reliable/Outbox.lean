import AutoSerialBridge.Lib.Outbox
import AutoSerialBridge.Reliable.Queue

/-!
# Auto Serial Bridge — `ReliableSender` is an outbox

The queues of a `ReliableSender`, without the flags and the timers, are an outbox: `attempt_send` transmits
the front entry, the first attempt seals it (assigns its seq and injects it), and
`on_ack_received_impl` removes it. Every handler is a sequence of steps of the outbox.

## Results

* `steps_sendImpl`, `steps_handleRetryTimeout`, `steps_onAckReceivedImpl` — **the handlers refine
  the outbox**; `outbox_handleSendCompletion`, `outbox_expire` — the others leave it alone.
-/

namespace AutoSerialBridge

open Lib Lib.Outbox

/-- An entry without its flags and its timer. -/
def PendingEntry.item (entry : PendingEntry) : Item (List UInt8) where
  number := entry.number
  contents := entry.packedBytes
  isSealed := entry.seqAssigned

/-- The event of a call of `send_callback_`. -/
def requestEvents (req : Option SendRequest) : List (Outbox.Event UInt8 (List UInt8)) :=
  (req.map fun r => Outbox.Event.transmitted r.completion.key r.number r.bytes).toList

namespace ReliableSender

variable {p : Protocol} {s s' : ReliableSender} {key : UInt8} {entry : PendingEntry}
  {rest queue : List PendingEntry}

def outbox (s : ReliableSender) : Outbox UInt8 (List UInt8) where
  queue key := (s.pending key).map PendingEntry.item
  removed := s.acked

theorem outbox_initial : ReliableSender.initial.outbox = Outbox.empty := rfl

theorem outbox_queue (hq : s.pending key = entry :: rest) :
    s.outbox.queue key = entry.item :: rest.map PendingEntry.item := by
  show (s.pending key).map PendingEntry.item = _
  rw [hq, List.map_cons]

theorem outbox_setQueue (queue : List PendingEntry) :
    (s.setQueue key queue).outbox = s.outbox.setQueue key (queue.map PendingEntry.item) := by
  unfold outbox Outbox.setQueue
  rw [Outbox.mk.injEq]
  refine ⟨funext fun k => ?_, rfl⟩
  by_cases hk : k = key
  · rw [hk, setQueue_pending_self, Function.update_self]
  · rw [setQueue_pending_of_ne hk, Function.update_of_ne hk]

/-- A queue that differs in flags and timers. -/
theorem outbox_setQueue_of_items (h : queue.map PendingEntry.item = (s.pending key).map PendingEntry.item) :
    (s.setQueue key queue).outbox = s.outbox := by
  rw [outbox_setQueue, h]
  unfold Outbox.setQueue
  rw [Outbox.mk.injEq]
  exact ⟨Function.update_eq_self .., rfl⟩

theorem outbox_front {entry' : PendingEntry} (hq : s.pending key = entry :: rest)
    (hitem : entry'.item = entry.item) : (s.setQueue key (entry' :: rest)).outbox = s.outbox := by
  refine outbox_setQueue_of_items ?_
  rw [hq, List.map_cons, List.map_cons, hitem]

/-- An attempt on the front entry, which is sealed by the first one. -/
theorem step_attempt (hq : s.pending key = entry :: rest) (seqCounter seqCounter' : UInt8) :
    Step s.outbox
      [.transmitted key entry.number (entry.attempted p seqCounter).packedBytes]
      { s.setQueue key (entry.attempted p seqCounter :: rest) with seqCounter := seqCounter' }.outbox := by
  have hitem : (entry.attempted p seqCounter).item =
      ⟨entry.number, (entry.attempted p seqCounter).packedBytes, true⟩ := by
    unfold PendingEntry.item
    rw [PendingEntry.attempted_number, PendingEntry.attempted_seqAssigned]
  show Step _ _ (s.setQueue key (entry.attempted p seqCounter :: rest)).outbox
  by_cases hassigned : entry.seqAssigned = true
  · have hbytes : (entry.attempted p seqCounter).packedBytes = entry.packedBytes := by
      rw [PendingEntry.attempted_packedBytes, if_pos hassigned]
    have hsame : (entry.attempted p seqCounter).item = entry.item := by
      rw [hitem, hbytes]
      unfold PendingEntry.item
      rw [hassigned]
    rw [outbox_front hq hsame, hbytes]
    exact .transmitAgain (outbox_queue hq) hassigned
  · rw [outbox_setQueue, List.map_cons, hitem]
    exact .transmitFirst _ (outbox_queue hq) ((Bool.not_eq_true _).mp hassigned)

/-- **`attempt_send`** transmits the front entry, or does nothing. -/
theorem steps_attemptSend (s : ReliableSender) (key : UInt8) :
    Steps s.outbox (requestEvents (attemptSend p s key).2) (attemptSend p s key).1.outbox := by
  cases hq : s.pending key with
  | nil =>
    unfold attemptSend
    simp only [hq]
    exact .refl
  | cons entry rest =>
    by_cases hbusy : entry.sendInProgress = true
    · rw [attemptSend_of_busy hq hbusy]
      exact .refl
    · rw [attemptSend_of_idle hq ((Bool.not_eq_true _).mp hbusy)]
      have hevents : requestEvents (some ((entry.attempted p s.seqCounter).request key)) =
          [.transmitted key entry.number (entry.attempted p s.seqCounter).packedBytes] := by
        show [Outbox.Event.transmitted key (entry.attempted p s.seqCounter).number _] = _
        rw [PendingEntry.attempted_number]
        rfl
      rw [hevents]
      exact .tail .refl (step_attempt hq _ _)

theorem attemptSend_acked (s : ReliableSender) (key : UInt8) :
    (attemptSend p s key).1.acked = s.acked := by
  unfold attemptSend
  split
  · rfl
  · split_ifs <;> rfl

/-- Steps, and then those of an attempt. -/
theorem steps_attemptSend_after {o : Outbox UInt8 (List UInt8)}
    {events : List (Outbox.Event UInt8 (List UInt8))} (h : Steps o events s.outbox) (key : UInt8) :
    Steps o (requestEvents (attemptSend p s key).2 ++ events) (attemptSend p s key).1.outbox :=
  h.trans (steps_attemptSend s key)

/-- **`send_impl`** appends an entry, and transmits it if it is alone. -/
theorem steps_sendImpl (s : ReliableSender) (id : UInt8) (packedBytes : List UInt8) :
    Steps s.outbox (requestEvents (sendImpl p s id packedBytes).2)
      (sendImpl p s id packedBytes).1.outbox := by
  have happend : Steps s.outbox []
      (s.setQueue id (s.pending id ++ [s.newEntry id packedBytes])).outbox := by
    have hstep := Step.append (o := s.outbox) id packedBytes
    have hlength : (s.outbox.queue id).length = (s.pending id).length := List.length_map ..
    rw [outbox_setQueue, List.map_append]
    rw [hlength] at hstep
    exact .tail .refl hstep
  by_cases hq : s.pending id = []
  · rw [sendImpl_of_empty hq]
    rw [hq, List.nil_append] at happend
    have hattempt := steps_attemptSend_after (p := p) happend id
    rw [List.append_nil] at hattempt
    exact hattempt
  · rw [sendImpl_of_nonempty hq]
    exact happend

/-- **`handle_retry_timeout`** transmits the front entry again, or does nothing. -/
theorem steps_handleRetryTimeout (s : ReliableSender) (key seq : UInt8) :
    Steps s.outbox (requestEvents (handleRetryTimeout p s key seq).2)
      (handleRetryTimeout p s key seq).1.outbox := by
  by_cases hmatch : ∃ entry rest, s.pending key = entry :: rest ∧ entry.expectedSeq = seq
  · obtain ⟨entry, rest, hq, hseq⟩ := hmatch
    rw [handleRetryTimeout_of_match hq hseq]
    have hfront : (s.setQueue key (retriedEntry p entry :: rest)).outbox = s.outbox :=
      outbox_front hq rfl
    have hattempt := steps_attemptSend (p := p) (s.setQueue key (retriedEntry p entry :: rest)) key
    rw [hfront] at hattempt
    exact hattempt
  · rw [handleRetryTimeout_of_mismatch]
    · exact .refl
    · intro entry hentry hseq
      obtain ⟨rest, hq⟩ := List.head?_eq_some_iff.mp hentry
      exact hmatch ⟨entry, rest, hq, hseq⟩

/-- The event of `on_ack_received_impl`, if it removes an entry. -/
def removedEvents (s : ReliableSender) (key : UInt8) (acked : Nat) :
    List (Outbox.Event UInt8 (List UInt8)) :=
  if acked = s.acked key then [] else [.removed key (s.acked key)]

/-- **`on_ack_received_impl`** removes the front entry and transmits the next one, or does nothing. -/
theorem steps_onAckReceivedImpl {history : List (Outbox.Event UInt8 (List UInt8))}
    (h : Ordered s.outbox history)
    (hassigned : ∀ key, ∀ entry ∈ (s.pending key).head?, entry.seqAssigned = true)
    (key ackSeq : UInt8) :
    Steps s.outbox
      (requestEvents (onAckReceivedImpl p s key ackSeq).2 ++
        s.removedEvents key ((onAckReceivedImpl p s key ackSeq).1.acked key))
      (onAckReceivedImpl p s key ackSeq).1.outbox := by
  by_cases hmatch : ∃ entry rest, s.pending key = entry :: rest ∧ entry.expectedSeq = ackSeq ∧
      entry.awaitingAck = true
  · obtain ⟨entry, rest, hq, hseq, hawait⟩ := hmatch
    have hcount : (s.removeFront key rest).acked key = s.acked key + 1 := Function.update_self ..
    have hremoved : s.removedEvents key (s.acked key + 1) = [.removed key entry.number] := by
      have hqueue := h.queues key
      rw [outbox_queue hq] at hqueue
      have hnumber : entry.number = s.acked key := hqueue.number_front.1
      unfold removedEvents
      rw [if_neg (by omega), hnumber]
    have hremove : Steps s.outbox [.removed key entry.number] (s.removeFront key rest).outbox := by
      have houtbox : (s.removeFront key rest).outbox =
          s.outbox.removeFront key (rest.map PendingEntry.item) := by
        unfold Outbox.removeFront
        rw [← outbox_setQueue]
        rfl
      rw [houtbox]
      refine .tail .refl (.remove (outbox_queue hq) ?_)
      exact hassigned key entry (by rw [hq]; rfl)
    rw [onAckReceivedImpl_of_match hq hseq hawait]
    split_ifs
    · show Steps _ ([] ++ s.removedEvents key ((s.removeFront key rest).acked key)) _
      rw [hcount, hremoved]
      exact hremove
    · have hkeep : (attemptSend p (s.removeFront key rest) key).1.acked key = s.acked key + 1 := by
        rw [attemptSend_acked, hcount]
      rw [hkeep, hremoved]
      exact steps_attemptSend_after hremove key
  · rw [onAckReceivedImpl_of_mismatch]
    · have hnone : s.removedEvents key (s.acked key) = [] := if_pos rfl
      show Steps _ ([] ++ s.removedEvents key (s.acked key)) _
      rw [hnone]
      exact .refl
    · intro entry hentry
      obtain ⟨rest, hq⟩ := List.head?_eq_some_iff.mp hentry
      by_cases hseq : entry.expectedSeq = ackSeq
      · refine .inr ?_
        by_contra hawait
        exact hmatch ⟨entry, rest, hq, hseq, (Bool.not_eq_false _).mp hawait⟩
      · exact .inl hseq

/-- **`handle_send_completion`** only sets flags and the timer. -/
theorem outbox_handleSendCompletion (s : ReliableSender) (c : SendCompletion) (success : Bool) :
    (handleSendCompletion s c success).outbox = s.outbox := by
  by_cases hmatch : ∃ entry rest, s.pending c.key = entry :: rest ∧ entry.completion c.key = c
  · obtain ⟨entry, rest, hq, hc⟩ := hmatch
    rw [handleSendCompletion_of_match hq hc]
    exact outbox_front hq rfl
  · have hsame : handleSendCompletion s c success = s := by
      unfold handleSendCompletion
      split
      · rfl
      · next entry rest hq =>
        refine if_pos ?_
        by_contra hboth
        rw [not_or, not_not, not_not] at hboth
        refine hmatch ⟨entry, rest, hq, ?_⟩
        unfold PendingEntry.completion
        rw [hboth.1, hboth.2]
    rw [hsame]

/-- **An expired timer** is no longer armed. -/
theorem outbox_expire {index : Nat} {seq : UInt8} (h : s.expire key index = some (s', seq)) :
    s'.outbox = s.outbox := by
  unfold expire at h
  split at h
  · next entry hentry =>
    split at h
    · rw [Option.some.injEq, Prod.mk.injEq] at h
      obtain ⟨rfl, -⟩ := h
      obtain ⟨hindex, rfl⟩ := List.getElem?_eq_some_iff.mp hentry
      refine outbox_setQueue_of_items ?_
      rw [List.map_set]
      have hlength : index < ((s.pending key).map PendingEntry.item).length := by
        rw [List.length_map]
        exact hindex
      refine Eq.trans ?_ (List.set_getElem_self hlength)
      rw [List.getElem_map]
      rfl
    · cases h
  · cases h

end ReliableSender

end AutoSerialBridge
