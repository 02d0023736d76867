import AutoSerialBridge.Reliable.Sender
import Mathlib

/-!
# Auto Serial Bridge — the queue of one reliable id

What the handlers of `ReliableSender` keep, given the send completions that are outstanding
(`QueueInv`): only the front entry of a queue was ever touched, it has a seq, it does not wait for a
completion and for an Ack at once, and exactly its completion is outstanding while its send is in
progress.

## Results

* `attemptSend_of_idle`, `handleSendCompletion_of_match`, … — what a handler does, case by case.
* `SenderInv.sendImpl`, `SenderInv.handleSendCompletion`, `SenderInv.handleRetryTimeout`,
  `SenderInv.onAckReceivedImpl`, `SenderInv.expire` — every handler keeps the invariant.
-/

namespace AutoSerialBridge

-- ---------------------------------------------------------------------------
-- Attempts
-- ---------------------------------------------------------------------------

namespace PendingEntry

variable (p : Protocol)

/-- The entry after an attempt, with the seq counter before it. -/
def attempted (seqCounter : UInt8) (entry : PendingEntry) : PendingEntry :=
  (if entry.seqAssigned then entry else entry.assignSeq p seqCounter).startSend

/-- The seq counter after an attempt. -/
def nextCounter (seqCounter : UInt8) (entry : PendingEntry) : UInt8 :=
  if entry.seqAssigned then seqCounter else seqCounter + 1

variable {p} {seqCounter : UInt8} {entry : PendingEntry}

@[simp] theorem attempted_sendInProgress :
    (entry.attempted p seqCounter).sendInProgress = true := by
  rw [attempted, startSend]

@[simp] theorem attempted_seqAssigned : (entry.attempted p seqCounter).seqAssigned = true := by
  rw [attempted, startSend]
  split_ifs with h
  · exact h
  · rfl

@[simp] theorem attempted_awaitingAck :
    (entry.attempted p seqCounter).awaitingAck = entry.awaitingAck := by
  rw [attempted, startSend]
  split_ifs <;> rfl

@[simp] theorem attempted_number : (entry.attempted p seqCounter).number = entry.number := by
  rw [attempted, startSend]
  split_ifs <;> rfl

theorem attempted_expectedSeq : (entry.attempted p seqCounter).expectedSeq =
    if entry.seqAssigned then entry.expectedSeq else seqCounter := by
  rw [attempted, startSend]
  split_ifs <;> rfl

theorem attempted_packedBytes : (entry.attempted p seqCounter).packedBytes =
    if entry.seqAssigned then entry.packedBytes
    else injectTrailingSeq p entry.packedBytes seqCounter := by
  rw [attempted, startSend]
  split_ifs <;> rfl

/-- An entry that no attempt has touched. -/
structure Untouched (entry : PendingEntry) : Prop where
  seqAssigned : entry.seqAssigned = false
  sendInProgress : entry.sendInProgress = false
  awaitingAck : entry.awaitingAck = false

end PendingEntry

-- ---------------------------------------------------------------------------
-- What the handlers do
-- ---------------------------------------------------------------------------

namespace ReliableSender

variable {p : Protocol} {s : ReliableSender} {key : UInt8} {entry : PendingEntry}
  {rest queue : List PendingEntry}

@[simp] theorem setQueue_pending_self : (s.setQueue key queue).pending key = queue := by
  simp [setQueue]

theorem setQueue_pending_of_ne {k : UInt8} (h : k ≠ key) :
    (s.setQueue key queue).pending k = s.pending k := by
  simp [setQueue, h]

@[simp] theorem setQueue_setQueue {queue' : List PendingEntry} :
    (s.setQueue key queue).setQueue key queue' = s.setQueue key queue' := by
  simp [setQueue]

@[simp] theorem setQueue_seqCounter : (s.setQueue key queue).seqCounter = s.seqCounter := rfl

@[simp] theorem setQueue_acked : (s.setQueue key queue).acked = s.acked := rfl

theorem attemptSend_of_idle (hq : s.pending key = entry :: rest)
    (hidle : entry.sendInProgress = false) :
    attemptSend p s key =
      ({ s.setQueue key (entry.attempted p s.seqCounter :: rest) with
          seqCounter := entry.nextCounter s.seqCounter },
        some ((entry.attempted p s.seqCounter).request key)) := by
  unfold attemptSend
  simp only [hq, hidle, Bool.false_eq_true, if_false]
  unfold PendingEntry.attempted PendingEntry.nextCounter
  split_ifs <;> rfl

theorem attemptSend_of_busy (hq : s.pending key = entry :: rest)
    (hbusy : entry.sendInProgress = true) : attemptSend p s key = (s, none) := by
  unfold attemptSend
  simp only [hq, hbusy, if_true]

/-- The entry `send_impl` puts into the queue. -/
def newEntry (s : ReliableSender) (id : UInt8) (packedBytes : List UInt8) : PendingEntry :=
  { number := s.acked id + (s.pending id).length, packedBytes := packedBytes }

theorem newEntry_untouched (id : UInt8) (packedBytes : List UInt8) :
    (s.newEntry id packedBytes).Untouched := ⟨rfl, rfl, rfl⟩

theorem sendImpl_of_empty {id : UInt8} (hq : s.pending id = []) (packedBytes : List UInt8) :
    sendImpl p s id packedBytes =
      attemptSend p (s.setQueue id [s.newEntry id packedBytes]) id := by
  unfold sendImpl newEntry
  simp only [hq, List.nil_append, List.length_nil, List.length_singleton, if_true]

theorem sendImpl_of_nonempty {id : UInt8} (hq : s.pending id ≠ []) (packedBytes : List UInt8) :
    sendImpl p s id packedBytes =
      (s.setQueue id (s.pending id ++ [s.newEntry id packedBytes]), none) := by
  have hlen : (s.pending id).length ≠ 0 := by simpa using hq
  unfold sendImpl newEntry
  simp only [List.length_append, List.length_singleton]
  rw [if_neg (by omega)]

/-- The entry after its send completed: the retry timer is armed. -/
def settledEntry (entry : PendingEntry) (success : Bool) : PendingEntry :=
  { entry with
    sendInProgress := false, awaitingAck := success, timer := some entry.expectedSeq }

theorem handleSendCompletion_of_match {c : SendCompletion} (hq : s.pending c.key = entry :: rest)
    (hc : entry.completion c.key = c) (success : Bool) :
    handleSendCompletion s c success =
      s.setQueue c.key (settledEntry entry success :: rest) := by
  have hseq : entry.expectedSeq = c.seq := congrArg SendCompletion.seq hc
  have hgen : entry.sendGeneration = c.generation := congrArg SendCompletion.generation hc
  unfold handleSendCompletion
  simp only [hq, hseq, hgen, ne_eq, not_true_eq_false, or_false, if_false, scheduleRetry,
    setQueue_pending_self, setQueue_setQueue, settledEntry]

theorem handleRetryTimeout_of_match {seq : UInt8} (hq : s.pending key = entry :: rest)
    (hseq : entry.expectedSeq = seq) :
    handleRetryTimeout p s key seq =
      attemptSend p (s.setQueue key (retriedEntry p entry :: rest)) key := by
  unfold handleRetryTimeout
  simp only [hq, hseq, ne_eq, not_true_eq_false, if_false]

theorem handleRetryTimeout_of_mismatch {seq : UInt8}
    (h : ∀ entry ∈ (s.pending key).head?, entry.expectedSeq ≠ seq) :
    handleRetryTimeout p s key seq = (s, none) := by
  unfold handleRetryTimeout
  split
  · rfl
  · next entry rest hq => rw [if_pos (h entry (by simp [hq]))]

/-- The sender after the front entry of a queue is removed. -/
def removeFront (s : ReliableSender) (key : UInt8) (rest : List PendingEntry) : ReliableSender :=
  { s.setQueue key rest with acked := Function.update s.acked key (s.acked key + 1) }

theorem onAckReceivedImpl_of_match {ackSeq : UInt8} (hq : s.pending key = entry :: rest)
    (hseq : entry.expectedSeq = ackSeq) (hawait : entry.awaitingAck = true) :
    onAckReceivedImpl p s key ackSeq =
      if rest = [] then (s.removeFront key rest, none)
      else attemptSend p (s.removeFront key rest) key := by
  unfold onAckReceivedImpl removeFront
  simp only [hq, hseq, hawait, ne_eq, not_true_eq_false, Bool.true_eq_false, or_self, if_false]
  rfl

theorem onAckReceivedImpl_of_mismatch {ackSeq : UInt8}
    (h : ∀ entry ∈ (s.pending key).head?,
      entry.expectedSeq ≠ ackSeq ∨ entry.awaitingAck = false) :
    onAckReceivedImpl p s key ackSeq = (s, none) := by
  unfold onAckReceivedImpl
  split
  · rfl
  · next entry rest hq => rw [if_pos (h entry (by simp [hq]))]

end ReliableSender

-- ---------------------------------------------------------------------------
-- The invariant
-- ---------------------------------------------------------------------------

/-- The outstanding completions of an id. -/
def completionsOf (outstanding : List SendCompletion) (key : UInt8) : List SendCompletion :=
  outstanding.filter fun c => c.key = key

/-- The queue of an id between two handlers. -/
structure QueueInv (key : UInt8) (queue : List PendingEntry) (outstanding : List SendCompletion) :
    Prop where
  untouched : ∀ entry ∈ queue.tail, entry.Untouched
  assigned : ∀ entry ∈ queue.head?, entry.seqAssigned = true
  exclusive : ∀ entry ∈ queue.head?, entry.sendInProgress = true → entry.awaitingAck = false
  completions : completionsOf outstanding key =
    ((queue.head?.filter (·.sendInProgress)).map (·.completion key)).toList

/-- Every queue of the sender between two handlers. -/
def SenderInv (s : ReliableSender) (outstanding : List SendCompletion) : Prop :=
  ∀ key, QueueInv key (s.pending key) outstanding

section Queue

variable {key : UInt8} {entry : PendingEntry} {rest queue : List PendingEntry}
  {outstanding : List SendCompletion}

theorem QueueInv.nil_iff :
    QueueInv key [] outstanding ↔ completionsOf outstanding key = [] := by
  constructor
  · exact fun h => h.completions
  · exact fun h => ⟨by simp, by simp, by simp, h⟩

/-- The front entry, and those behind it. -/
theorem QueueInv.cons_iff : QueueInv key (entry :: rest) outstanding ↔
    (∀ e ∈ rest, e.Untouched) ∧ entry.seqAssigned = true ∧
      (entry.sendInProgress = true → entry.awaitingAck = false) ∧
      completionsOf outstanding key =
        if entry.sendInProgress then [entry.completion key] else [] := by
  have hfilter : (((entry :: rest).head?.filter (·.sendInProgress)).map
      (·.completion key)).toList = if entry.sendInProgress then [entry.completion key] else [] := by
    by_cases h : entry.sendInProgress = true <;> simp [Option.filter, h]
  constructor
  · rintro ⟨htail, hassigned, hexcl, hcomp⟩
    exact ⟨htail, hassigned entry rfl, hexcl entry rfl, hfilter ▸ hcomp⟩
  · rintro ⟨htail, hassigned, hexcl, hcomp⟩
    refine ⟨htail, ?_, ?_, hfilter.symm ▸ hcomp⟩
    · rintro e ⟨⟩
      exact hassigned
    · rintro e ⟨⟩
      exact hexcl

/-- Only the completions of the id matter, and not their order. -/
theorem QueueInv.congr {outstanding' : List SendCompletion}
    (h : QueueInv key queue outstanding)
    (hperm : (completionsOf outstanding' key).Perm (completionsOf outstanding key)) :
    QueueInv key queue outstanding' := by
  refine ⟨h.untouched, h.assigned, h.exclusive, ?_⟩
  rw [h.completions] at hperm
  cases hopt : (queue.head?.filter (·.sendInProgress)).map (·.completion key) with
  | none =>
    rw [hopt] at hperm
    exact List.perm_nil.mp hperm
  | some c =>
    rw [hopt] at hperm
    exact List.perm_singleton.mp hperm

theorem completionsOf_append_of_ne {c : SendCompletion} (h : c.key ≠ key) :
    completionsOf (c :: outstanding) key = completionsOf outstanding key := by
  simp [completionsOf, h]

theorem completionsOf_append_self (c : SendCompletion) (outstanding : List SendCompletion) :
    completionsOf (c :: outstanding) c.key = c :: completionsOf outstanding c.key := by
  simp [completionsOf]

/-- After an attempt the completion is outstanding. -/
theorem QueueInv.attempted {p : Protocol} {seqCounter : UInt8}
    (huntouched : ∀ e ∈ rest, e.Untouched) (hawait : entry.awaitingAck = false)
    (hnone : completionsOf outstanding key = []) :
    QueueInv key (entry.attempted p seqCounter :: rest)
      (((entry.attempted p seqCounter).request key).completion :: outstanding) := by
  refine QueueInv.cons_iff.mpr ⟨huntouched, by simp, by simp [hawait], ?_⟩
  have hkey : ((entry.attempted p seqCounter).request key).completion.key = key := rfl
  have hself := completionsOf_append_self
    ((entry.attempted p seqCounter).request key).completion outstanding
  rw [hkey, hnone] at hself
  rw [hself, if_pos PendingEntry.attempted_sendInProgress]
  rfl

end Queue

namespace SenderInv

variable {p : Protocol} {s s' : ReliableSender} {key : UInt8} {entry : PendingEntry}
  {rest queue : List PendingEntry} {outstanding outstanding' : List SendCompletion}

theorem initial : SenderInv ReliableSender.initial [] := fun _ => QueueInv.nil_iff.mpr rfl

/-- A handler that works on one queue leaves the others alone. -/
theorem of_ne (h : SenderInv s outstanding) (key : UInt8)
    (hkey : QueueInv key (s'.pending key) outstanding')
    (hqueue : ∀ k, k ≠ key → s'.pending k = s.pending k)
    (hcomp : ∀ k, k ≠ key → completionsOf outstanding' k = completionsOf outstanding k) :
    SenderInv s' outstanding' := by
  intro k
  by_cases hk : k = key
  · exact hk ▸ hkey
  · rw [hqueue k hk]
    exact (h k).congr (hcomp k hk ▸ List.Perm.refl _)

theorem perm (h : SenderInv s outstanding) (hperm : outstanding'.Perm outstanding) :
    SenderInv s outstanding' :=
  fun key => (h key).congr (hperm.filter _)

/-- `attempt_send` on a queue whose front entry is idle. -/
theorem attempt (h : SenderInv s outstanding) (hs' : ∀ k, k ≠ key → s'.pending k = s.pending k)
    (hq : s'.pending key = entry :: rest) (hidle : entry.sendInProgress = false)
    (huntouched : ∀ e ∈ rest, e.Untouched) (hawait : entry.awaitingAck = false)
    (hnone : completionsOf outstanding key = []) :
    ∃ req, (ReliableSender.attemptSend p s' key).2 = some req ∧
      SenderInv (ReliableSender.attemptSend p s' key).1 (req.completion :: outstanding) := by
  rw [ReliableSender.attemptSend_of_idle hq hidle]
  refine ⟨_, rfl, h.of_ne key ?_ ?_ ?_⟩
  · show QueueInv key ((s'.setQueue key _).pending key) _
    rw [ReliableSender.setQueue_pending_self]
    exact QueueInv.attempted huntouched hawait hnone
  · intro k hk
    exact (ReliableSender.setQueue_pending_of_ne hk).trans (hs' k hk)
  · intro k hk
    exact completionsOf_append_of_ne (Ne.symm hk)

/-- The completions outstanding after a handler: that of its request is one more. -/
def after (req : Option SendRequest) (outstanding : List SendCompletion) : List SendCompletion :=
  (req.map (·.completion)).toList ++ outstanding

theorem of_attempt {r : ReliableSender × Option SendRequest}
    (h : ∃ req, r.2 = some req ∧ SenderInv r.1 (req.completion :: outstanding)) :
    SenderInv r.1 (after r.2 outstanding) := by
  obtain ⟨req, hreq, hinv⟩ := h
  rw [hreq]
  exact hinv

/-- **`send_impl`** keeps the invariant. -/
theorem sendImpl (h : SenderInv s outstanding) (id : UInt8) (packedBytes : List UInt8) :
    SenderInv (ReliableSender.sendImpl p s id packedBytes).1
      (after (ReliableSender.sendImpl p s id packedBytes).2 outstanding) := by
  have hnew := ReliableSender.newEntry_untouched (s := s) id packedBytes
  have hid := h id
  cases hq : s.pending id with
  | nil =>
    rw [hq, QueueInv.nil_iff] at hid
    rw [ReliableSender.sendImpl_of_empty hq]
    exact of_attempt (h.attempt (fun k hk => ReliableSender.setQueue_pending_of_ne hk)
      ReliableSender.setQueue_pending_self hnew.sendInProgress (by simp) hnew.awaitingAck hid)
  | cons entry rest =>
    rw [hq, QueueInv.cons_iff] at hid
    obtain ⟨huntouched, hfront⟩ := hid
    rw [ReliableSender.sendImpl_of_nonempty (by simp [hq])]
    refine h.of_ne id ?_ (fun k hk => ReliableSender.setQueue_pending_of_ne hk)
      fun k _ => rfl
    rw [ReliableSender.setQueue_pending_self, hq, List.cons_append]
    refine QueueInv.cons_iff.mpr ⟨fun e he => ?_, hfront⟩
    rcases List.mem_append.mp he with he | he
    · exact huntouched e he
    · exact List.mem_singleton.mp he ▸ hnew

/-- An outstanding completion is that of the front entry of its queue. -/
theorem front_of_mem (h : SenderInv s outstanding) {c : SendCompletion} (hc : c ∈ outstanding) :
    ∃ entry rest, s.pending c.key = entry :: rest ∧ entry.sendInProgress = true ∧
      entry.completion c.key = c ∧ completionsOf outstanding c.key = [c] := by
  have hmem : c ∈ completionsOf outstanding c.key := List.mem_filter.mpr ⟨hc, by simp⟩
  have hkey := h c.key
  cases hq : s.pending c.key with
  | nil =>
    rw [hq, QueueInv.nil_iff] at hkey
    simp [hkey] at hmem
  | cons entry rest =>
    rw [hq, QueueInv.cons_iff] at hkey
    obtain ⟨-, -, -, hcomp⟩ := hkey
    by_cases hbusy : entry.sendInProgress = true
    · rw [if_pos hbusy] at hcomp
      rw [hcomp, List.mem_singleton] at hmem
      exact ⟨entry, rest, rfl, hbusy, hmem.symm, hmem ▸ hcomp⟩
    · rw [if_neg hbusy] at hcomp
      simp [hcomp] at hmem

/-- **`handle_send_completion`** keeps the invariant, and its completion is used up. -/
theorem handleSendCompletion {c : SendCompletion} (h : SenderInv s (c :: outstanding))
    (success : Bool) :
    SenderInv (ReliableSender.handleSendCompletion s c success) outstanding := by
  obtain ⟨entry, rest, hq, hbusy, hcompletion, hone⟩ := h.front_of_mem List.mem_cons_self
  have hkey := h c.key
  rw [hq, QueueInv.cons_iff] at hkey
  obtain ⟨huntouched, hassigned, -, -⟩ := hkey
  rw [ReliableSender.handleSendCompletion_of_match hq hcompletion]
  refine h.of_ne c.key ?_ (fun k hk => ReliableSender.setQueue_pending_of_ne hk) ?_
  · rw [ReliableSender.setQueue_pending_self]
    refine QueueInv.cons_iff.mpr ⟨huntouched, hassigned, by simp [ReliableSender.settledEntry], ?_⟩
    rw [completionsOf_append_self] at hone
    simpa [ReliableSender.settledEntry] using hone
  · intro k hk
    exact (completionsOf_append_of_ne (Ne.symm hk)).symm

/-- **`handle_retry_timeout`** keeps the invariant, whatever seq it carries. -/
theorem handleRetryTimeout (h : SenderInv s outstanding) (key seq : UInt8) :
    SenderInv (ReliableSender.handleRetryTimeout p s key seq).1
      (after (ReliableSender.handleRetryTimeout p s key seq).2 outstanding) := by
  by_cases hmatch : ∃ entry rest, s.pending key = entry :: rest ∧ entry.expectedSeq = seq
  · obtain ⟨entry, rest, hq, hseq⟩ := hmatch
    have hkey := h key
    rw [hq, QueueInv.cons_iff] at hkey
    obtain ⟨huntouched, hassigned, -, hcomp⟩ := hkey
    rw [ReliableSender.handleRetryTimeout_of_match hq hseq]
    by_cases hbusy : entry.sendInProgress = true
    · have hbusy' : (ReliableSender.retriedEntry p entry).sendInProgress = true := hbusy
      rw [ReliableSender.attemptSend_of_busy ReliableSender.setQueue_pending_self hbusy']
      refine h.of_ne key ?_ (fun k hk => ReliableSender.setQueue_pending_of_ne hk)
        fun k _ => rfl
      rw [ReliableSender.setQueue_pending_self]
      exact QueueInv.cons_iff.mpr ⟨huntouched, hassigned, fun _ => rfl, hcomp⟩
    · rw [if_neg hbusy] at hcomp
      exact of_attempt (h.attempt (fun k hk => ReliableSender.setQueue_pending_of_ne hk)
        ReliableSender.setQueue_pending_self (by simpa [ReliableSender.retriedEntry] using hbusy)
        huntouched rfl hcomp)
  · rw [ReliableSender.handleRetryTimeout_of_mismatch]
    · exact h
    · intro entry hentry hseq
      obtain ⟨rest, hq⟩ := List.head?_eq_some_iff.mp hentry
      exact hmatch ⟨entry, rest, hq, hseq⟩

/-- **`on_ack_received_impl`** keeps the invariant, whatever id and seq it is called with. -/
theorem onAckReceivedImpl (h : SenderInv s outstanding) (key ackSeq : UInt8) :
    SenderInv (ReliableSender.onAckReceivedImpl p s key ackSeq).1
      (after (ReliableSender.onAckReceivedImpl p s key ackSeq).2 outstanding) := by
  by_cases hmatch : ∃ entry rest, s.pending key = entry :: rest ∧ entry.expectedSeq = ackSeq ∧
      entry.awaitingAck = true
  · obtain ⟨entry, rest, hq, hseq, hawait⟩ := hmatch
    have hkey := h key
    rw [hq, QueueInv.cons_iff] at hkey
    obtain ⟨huntouched, -, hexcl, hcomp⟩ := hkey
    -- an entry that awaits its Ack has no completion outstanding
    have hidle : entry.sendInProgress = false := by
      by_contra hbusy
      rw [hexcl (by simpa using hbusy)] at hawait
      exact absurd hawait (by simp)
    rw [hidle, if_neg (by simp)] at hcomp
    have hother : ∀ k, k ≠ key → (s.removeFront key rest).pending k = s.pending k :=
      fun k hk => ReliableSender.setQueue_pending_of_ne hk
    have hself : (s.removeFront key rest).pending key = rest :=
      ReliableSender.setQueue_pending_self
    rw [ReliableSender.onAckReceivedImpl_of_match hq hseq hawait]
    cases rest with
    | nil =>
      rw [if_pos rfl]
      exact h.of_ne key (hself.symm ▸ QueueInv.nil_iff.mpr hcomp) hother fun k _ => rfl
    | cons next rest =>
      rw [if_neg (by simp)]
      have hnext := huntouched next List.mem_cons_self
      exact of_attempt (h.attempt hother hself hnext.sendInProgress
        (fun e he => huntouched e (List.mem_cons_of_mem _ he)) hnext.awaitingAck hcomp)
  · rw [ReliableSender.onAckReceivedImpl_of_mismatch]
    · exact h
    · intro entry hentry
      obtain ⟨rest, hq⟩ := List.head?_eq_some_iff.mp hentry
      by_cases hseq : entry.expectedSeq = ackSeq
      · refine .inr ?_
        by_contra hawait
        exact hmatch ⟨entry, rest, hq, hseq, by simpa using hawait⟩
      · exact .inl hseq

/-- The expiry of a timer keeps the invariant. -/
theorem expire (h : SenderInv s outstanding) {index : Nat} {seq : UInt8}
    (hexp : s.expire key index = some (s', seq)) : SenderInv s' outstanding := by
  unfold ReliableSender.expire at hexp
  split at hexp
  · next entry hentry =>
    split at hexp
    · rw [Option.some.injEq, Prod.mk.injEq] at hexp
      obtain ⟨rfl, -⟩ := hexp
      refine h.of_ne key ?_ (fun k hk => ReliableSender.setQueue_pending_of_ne hk)
        fun k _ => rfl
      rw [ReliableSender.setQueue_pending_self]
      have hkey := h key
      cases hq : s.pending key with
      | nil => simp [hq] at hentry
      | cons front rest =>
        rw [hq, QueueInv.cons_iff] at hkey
        obtain ⟨huntouched, hfront⟩ := hkey
        cases index with
        | zero =>
          rw [hq, List.getElem?_cons_zero, Option.some.injEq] at hentry
          subst hentry
          exact QueueInv.cons_iff.mpr ⟨huntouched, hfront⟩
        | succ i =>
          rw [hq, List.getElem?_cons_succ] at hentry
          rw [List.set_cons_succ]
          refine QueueInv.cons_iff.mpr ⟨fun e he => ?_, hfront⟩
          rcases List.mem_or_eq_of_mem_set he with he | rfl
          · exact huntouched e he
          · have hold := huntouched entry (List.mem_of_getElem? hentry)
            exact ⟨hold.seqAssigned, hold.sendInProgress, hold.awaitingAck⟩
    · cases hexp
  · cases hexp

end SenderInv

end AutoSerialBridge
