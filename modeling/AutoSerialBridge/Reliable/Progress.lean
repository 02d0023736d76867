import AutoSerialBridge.Codegen.Target
import AutoSerialBridge.Lib.Machine
import AutoSerialBridge.Reliable.Queue

/-!
# Auto Serial Bridge — the reliable sender never gets stuck

`ReliableSender` on its own, with any `send_callback_`: a call of it is answered at once, with
success or failure, or its completion stays outstanding and is invoked once, some time later. Acks
with any id and seq arrive at any time. A timer that has expired has posted `handle_retry_timeout`,
which runs some time later, also when its entry is gone by then.

The early returns of the handlers arm nothing. `Woken` says why none of them strands an entry: the
front entry of a queue has its completion outstanding, or its timer is armed, or a timeout with its
seq is posted.

## Results

* `SenderState.Inv` — the invariant, and one lemma an event that it is kept.
* `sender_progress` — **no reachable state has lost its wake-up**.
-/

namespace AutoSerialBridge

open Lib

-- ---------------------------------------------------------------------------
-- The sender and its surroundings
-- ---------------------------------------------------------------------------

/-- The sender, the completions `send_callback_` has not invoked yet, and the posted timeouts. -/
structure SenderState where
  sender : ReliableSender
  outstanding : List SendCompletion
  posted : List (UInt8 × UInt8)

/-- What can happen to the sender. `reply` is what `send_callback_` does if it is called: invoke the
completion before it returns, or keep it. -/
inductive SenderEvent where
  | send (id : UInt8) (packedBytes : List UInt8) (reply : Option Bool)
  | ack (ackedId ackSeq : UInt8) (reply : Option Bool)
  | complete (c : SendCompletion) (success : Bool)
  | expire (key : UInt8) (index : Nat)
  | timeout (key seq : UInt8) (reply : Option Bool)

namespace SenderState

variable (p : Protocol)

def initial : SenderState := ⟨ReliableSender.initial, [], []⟩

/-- The end of a handler: the call of `send_callback_`, if it makes one. -/
def call (st : SenderState) (r : ReliableSender × Option SendRequest) (reply : Option Bool) :
    SenderState :=
  match r with
  | (sender, none) => { st with sender := sender }
  | (sender, some req) =>
    match reply with
    | some success =>
      { st with sender := sender.handleSendCompletion req.completion success }
    | none => { st with sender := sender, outstanding := req.completion :: st.outstanding }

/-- One event. -/
def step (st : SenderState) (event : SenderEvent) : Option SenderState :=
  match event with
  | .send id packedBytes reply =>
    some (st.call (ReliableSender.sendImpl p st.sender id packedBytes) reply)
  | .ack ackedId ackSeq reply =>
    some (st.call (ReliableSender.onAckReceivedImpl p st.sender ackedId ackSeq) reply)
  | .complete c success =>
    if c ∈ st.outstanding then
      some { st with
        sender := st.sender.handleSendCompletion c success
        outstanding := st.outstanding.erase c }
    else none
  | .expire key index =>
    match st.sender.expire key index with
    | some (sender, seq) => some { st with sender := sender, posted := (key, seq) :: st.posted }
    | none => none
  | .timeout key seq reply =>
    if (key, seq) ∈ st.posted then
      some (call { st with posted := st.posted.erase (key, seq) }
        (ReliableSender.handleRetryTimeout p st.sender key seq) reply)
    else none

end SenderState

/-- `ReliableSender` as a machine. -/
def senderMachine (p : Protocol) : Machine SenderState SenderEvent where
  initial st := st = SenderState.initial
  step := SenderState.step p

-- ---------------------------------------------------------------------------
-- Wake-ups
-- ---------------------------------------------------------------------------

/-- The front entry of a queue is in the hands of `send_callback_`, or a retry timeout with its seq
is armed or posted. -/
def Woken (key : UInt8) (queue : List PendingEntry) (posted : List (UInt8 × UInt8)) : Prop :=
  ∀ entry ∈ queue.head?, entry.sendInProgress = true ∨ entry.timer = some entry.expectedSeq ∨
    (key, entry.expectedSeq) ∈ posted

/-- The invariant. -/
structure SenderState.Inv (st : SenderState) : Prop where
  queues : SenderInv st.sender st.outstanding
  woken : ∀ key, Woken key (st.sender.pending key) st.posted

section Woken

variable {p : Protocol} {key : UInt8} {entry : PendingEntry} {rest queue : List PendingEntry}
  {posted posted' : List (UInt8 × UInt8)} {s s' : ReliableSender}

theorem woken_cons_iff : Woken key (entry :: rest) posted ↔
    entry.sendInProgress = true ∨ entry.timer = some entry.expectedSeq ∨
      (key, entry.expectedSeq) ∈ posted :=
  ⟨fun h => h entry rfl, fun h e he => by
    obtain rfl : entry = e := Option.some.inj he
    exact h⟩

theorem Woken.nil : Woken key [] posted := nofun

theorem Woken.mono (h : Woken key queue posted) (hsub : ∀ x ∈ posted, x.1 = key → x ∈ posted') :
    Woken key queue posted' := by
  intro entry hentry
  rcases h entry hentry with h | h | h
  · exact .inl h
  · exact .inr (.inl h)
  · exact .inr (.inr (hsub _ h rfl))

/-- A handler that works on one queue leaves the others alone. -/
theorem woken_of_ne (h : ∀ k, Woken k (s.pending k) posted) (key : UInt8)
    (hkey : Woken key (s'.pending key) posted')
    (hqueue : ∀ k, k ≠ key → s'.pending k = s.pending k)
    (hsub : ∀ x ∈ posted, x.1 ≠ key → x ∈ posted') : ∀ k, Woken k (s'.pending k) posted' := by
  intro k
  by_cases hk : k = key
  · exact hk ▸ hkey
  · rw [hqueue k hk]
    exact (h k).mono fun x hx heq => hsub x hx (heq ▸ hk)

/-- After `attempt_send` the front entry is in progress. -/
theorem woken_attemptSend (h : ∀ k, k ≠ key → Woken k (s.pending k) posted) :
    ∀ k, Woken k ((ReliableSender.attemptSend p s key).1.pending k) posted := by
  cases hq : s.pending key with
  | nil =>
    unfold ReliableSender.attemptSend
    simp only [hq]
    intro k
    by_cases hk : k = key
    · rw [hk, hq]
      exact Woken.nil
    · exact h k hk
  | cons entry rest =>
    by_cases hbusy : entry.sendInProgress = true
    · rw [ReliableSender.attemptSend_of_busy hq hbusy]
      intro k
      by_cases hk : k = key
      · rw [hk, hq]
        exact woken_cons_iff.mpr (.inl hbusy)
      · exact h k hk
    · rw [ReliableSender.attemptSend_of_idle hq (by simpa using hbusy)]
      intro k
      by_cases hk : k = key
      · subst hk
        show Woken k ((s.setQueue k _).pending k) posted
        rw [ReliableSender.setQueue_pending_self]
        exact woken_cons_iff.mpr (.inl PendingEntry.attempted_sendInProgress)
      · exact (ReliableSender.setQueue_pending_of_ne hk).symm ▸ h k hk

/-- A completion arms the timer. -/
theorem woken_handleSendCompletion {c : SendCompletion} (h : ∀ k, Woken k (s.pending k) posted)
    (success : Bool) :
    ∀ k, Woken k ((s.handleSendCompletion c success).pending k) posted := by
  unfold ReliableSender.handleSendCompletion
  split
  · exact h
  · next entry rest hq =>
    split_ifs with hmatch
    · exact h
    · unfold ReliableSender.scheduleRetry
      simp only [ReliableSender.setQueue_pending_self, ReliableSender.setQueue_setQueue]
      refine woken_of_ne h c.key ?_
        (fun k hk => ReliableSender.setQueue_pending_of_ne hk) fun x hx _ => hx
      rw [ReliableSender.setQueue_pending_self]
      exact woken_cons_iff.mpr (.inr (.inl rfl))

theorem woken_sendImpl (h : ∀ k, Woken k (s.pending k) posted) (id : UInt8)
    (packedBytes : List UInt8) :
    ∀ k, Woken k ((ReliableSender.sendImpl p s id packedBytes).1.pending k) posted := by
  cases hq : s.pending id with
  | nil =>
    rw [ReliableSender.sendImpl_of_empty hq]
    exact woken_attemptSend fun k hk => (ReliableSender.setQueue_pending_of_ne hk).symm ▸ h k
  | cons entry rest =>
    rw [ReliableSender.sendImpl_of_nonempty (by simp [hq])]
    refine woken_of_ne h id ?_ (fun k hk => ReliableSender.setQueue_pending_of_ne hk)
      fun x hx _ => hx
    rw [ReliableSender.setQueue_pending_self, hq, List.cons_append]
    exact woken_cons_iff.mpr (woken_cons_iff.mp (hq ▸ h id))

/-- Running a posted timeout uses it up. If its seq is not that of the front entry, it was not what
the front entry waits for. -/
theorem woken_handleRetryTimeout {seq : UInt8} (h : ∀ k, Woken k (s.pending k) posted) :
    ∀ k, Woken k ((ReliableSender.handleRetryTimeout p s key seq).1.pending k)
      (posted.erase (key, seq)) := by
  have hkeep : ∀ x ∈ posted, x.1 ≠ key → x ∈ posted.erase (key, seq) := by
    rintro x hx hne
    exact (List.mem_erase_of_ne fun heq => hne (congrArg Prod.fst heq)).mpr hx
  by_cases hmatch : ∃ entry rest, s.pending key = entry :: rest ∧ entry.expectedSeq = seq
  · obtain ⟨entry, rest, hq, hseq⟩ := hmatch
    rw [ReliableSender.handleRetryTimeout_of_match hq hseq]
    refine woken_attemptSend fun k hk => ?_
    rw [ReliableSender.setQueue_pending_of_ne hk]
    exact (h k).mono fun x hx heq => hkeep x hx (heq ▸ hk)
  · have hmis : ∀ entry ∈ (s.pending key).head?, entry.expectedSeq ≠ seq := by
      intro entry hentry hseq
      obtain ⟨rest, hq⟩ := List.head?_eq_some_iff.mp hentry
      exact hmatch ⟨entry, rest, hq, hseq⟩
    rw [ReliableSender.handleRetryTimeout_of_mismatch hmis]
    refine woken_of_ne h key ?_ (fun _ _ => rfl) hkeep
    intro entry hentry
    rcases h key entry hentry with h | h | h
    · exact .inl h
    · exact .inr (.inl h)
    · have hne : (key, entry.expectedSeq) ≠ (key, seq) := fun heq =>
        hmis entry hentry (congrArg Prod.snd heq)
      exact .inr (.inr ((List.mem_erase_of_ne hne).mpr h))

theorem woken_onAckReceivedImpl {ackSeq : UInt8} (h : ∀ k, Woken k (s.pending k) posted) :
    ∀ k, Woken k ((ReliableSender.onAckReceivedImpl p s key ackSeq).1.pending k) posted := by
  unfold ReliableSender.onAckReceivedImpl
  split
  · exact h
  · next entry rest hq =>
    split_ifs with hmis hrest
    · exact h
    · refine woken_of_ne h key ?_ (fun k hk => ReliableSender.setQueue_pending_of_ne hk)
        fun x hx _ => hx
      show Woken key ((s.setQueue key rest).pending key) posted
      rw [ReliableSender.setQueue_pending_self, hrest]
      exact Woken.nil
    · refine woken_attemptSend fun k hk => ?_
      show Woken k ((s.setQueue key rest).pending k) posted
      rw [ReliableSender.setQueue_pending_of_ne hk]
      exact h k

/-- An expired timer has posted its timeout. -/
theorem woken_expire {index : Nat} {seq : UInt8} (h : ∀ k, Woken k (s.pending k) posted)
    (hexp : s.expire key index = some (s', seq)) :
    ∀ k, Woken k (s'.pending k) ((key, seq) :: posted) := by
  unfold ReliableSender.expire at hexp
  split at hexp
  · next entry hentry =>
    split at hexp
    · next htimer =>
      rw [Option.some.injEq, Prod.mk.injEq] at hexp
      obtain ⟨rfl, rfl⟩ := hexp
      refine woken_of_ne h key ?_ (fun k hk => ReliableSender.setQueue_pending_of_ne hk)
        fun x hx _ => List.mem_cons_of_mem _ hx
      rw [ReliableSender.setQueue_pending_self]
      have hkey := h key
      cases hq : s.pending key with
      | nil => simp [hq] at hentry
      | cons front rest =>
        rw [hq, woken_cons_iff] at hkey
        cases index with
        | zero =>
          rw [hq, List.getElem?_cons_zero, Option.some.injEq] at hentry
          subst hentry
          rw [List.set_cons_zero, woken_cons_iff]
          rcases hkey with hkey | hkey | hkey
          · exact .inl hkey
          · -- the armed wait carried the entry's own seq
            rw [htimer, Option.some.injEq] at hkey
            exact .inr (.inr (hkey ▸ List.mem_cons_self))
          · exact .inr (.inr (List.mem_cons_of_mem _ hkey))
        | succ i =>
          rw [List.set_cons_succ, woken_cons_iff]
          rcases hkey with hkey | hkey | hkey
          · exact .inl hkey
          · exact .inr (.inl hkey)
          · exact .inr (.inr (List.mem_cons_of_mem _ hkey))
    · cases hexp
  · cases hexp

end Woken

-- ---------------------------------------------------------------------------
-- Runs
-- ---------------------------------------------------------------------------

namespace SenderState

variable {p : Protocol}

/-- The call of `send_callback_` at the end of a handler keeps the invariant, whether it answers at
once or later. -/
theorem Inv.call (st : SenderState) {r : ReliableSender × Option SendRequest}
    (hqueues : SenderInv r.1 (SenderInv.after r.2 st.outstanding))
    (hwoken : ∀ key, Woken key (r.1.pending key) st.posted) (reply : Option Bool) :
    (st.call r reply).Inv := by
  obtain ⟨sender, req⟩ := r
  cases req with
  | none => exact ⟨hqueues, hwoken⟩
  | some req =>
    cases reply with
    | none => exact ⟨hqueues, hwoken⟩
    | some success =>
      exact ⟨hqueues.handleSendCompletion success, woken_handleSendCompletion hwoken success⟩

/-- **Every event keeps the invariant.** -/
theorem Inv.step {st st' : SenderState} {event : SenderEvent} (h : st.Inv)
    (hstep : st.step p event = some st') : st'.Inv := by
  cases event with
  | send id packedBytes reply =>
    obtain rfl := Option.some.inj hstep
    exact Inv.call st (h.queues.sendImpl id packedBytes) (woken_sendImpl h.woken id packedBytes)
      reply
  | ack ackedId ackSeq reply =>
    obtain rfl := Option.some.inj hstep
    exact Inv.call st (h.queues.onAckReceivedImpl ackedId ackSeq)
      (woken_onAckReceivedImpl h.woken) reply
  | complete c success =>
    unfold SenderState.step at hstep
    simp only [Option.ite_none_right_eq_some, Option.some.injEq] at hstep
    obtain ⟨hc, rfl⟩ := hstep
    exact ⟨(h.queues.perm (List.perm_cons_erase hc).symm).handleSendCompletion success,
      woken_handleSendCompletion h.woken success⟩
  | expire key index =>
    unfold SenderState.step at hstep
    simp only at hstep
    split at hstep
    · next sender seq hexp =>
      obtain rfl := Option.some.inj hstep
      exact ⟨h.queues.expire hexp, woken_expire h.woken hexp⟩
    · cases hstep
  | timeout key seq reply =>
    unfold SenderState.step at hstep
    simp only [Option.ite_none_right_eq_some, Option.some.injEq] at hstep
    obtain ⟨-, rfl⟩ := hstep
    exact Inv.call { st with posted := st.posted.erase (key, seq) }
      (h.queues.handleRetryTimeout key seq) (woken_handleRetryTimeout h.woken) reply

end SenderState

/-- **The reliable sender never gets stuck.** In every reachable state, for every id: the front entry
of a nonempty queue has a seq, and its completion is outstanding while its send is in progress, or a
retry timeout with its seq is armed or posted; no entry has its send in progress and awaits an Ack at
once; and at most one completion of the id is outstanding. -/
theorem sender_progress {p : Protocol} {st : SenderState} (h : (senderMachine p).Reachable st)
    (id : UInt8) :
    (∀ entry rest, st.sender.pending id = entry :: rest → entry.seqAssigned = true ∧
      ((entry.sendInProgress = true ∧
          ⟨id, entry.expectedSeq, entry.sendGeneration⟩ ∈ st.outstanding) ∨
        entry.timer = some entry.expectedSeq ∨ (id, entry.expectedSeq) ∈ st.posted)) ∧
    (∀ entry ∈ st.sender.pending id, ¬ (entry.sendInProgress = true ∧ entry.awaitingAck = true)) ∧
    (st.outstanding.filter fun c => c.key = id).length ≤ 1 := by
  have hinv : st.Inv := by
    refine h.invariant ?_ fun s e s' hs hstep => hs.step hstep
    rintro _ rfl
    exact ⟨SenderInv.initial, fun key => Woken.nil⟩
  have hqueue := hinv.queues id
  have hwoken := hinv.woken id
  cases hq : st.sender.pending id with
  | nil =>
    rw [hq, QueueInv.nil_iff, completionsOf] at hqueue
    refine ⟨?_, List.forall_mem_nil _, ?_⟩
    · rintro entry rest ⟨⟩
    · rw [hqueue]
      exact Nat.zero_le 1
  | cons entry rest =>
    rw [hq, QueueInv.cons_iff] at hqueue
    rw [hq, woken_cons_iff] at hwoken
    obtain ⟨huntouched, hassigned, hexcl, hcomp⟩ := hqueue
    refine ⟨?_, ?_, ?_⟩
    · rintro _ _ ⟨⟩
      refine ⟨hassigned, ?_⟩
      rcases hwoken with hbusy | hwoken
      · rw [if_pos hbusy] at hcomp
        have hmem : entry.completion id ∈ completionsOf st.outstanding id := by
          rw [hcomp]
          exact List.mem_singleton_self _
        exact .inl ⟨hbusy, (List.mem_filter.mp hmem).1⟩
      · exact .inr hwoken
    · intro e he
      rcases List.mem_cons.mp he with rfl | he
      · rintro ⟨hbusy, hawait⟩
        rw [hexcl hbusy] at hawait
        exact absurd hawait (by simp)
      · rintro ⟨hbusy, -⟩
        rw [(huntouched e he).sendInProgress] at hbusy
        exact absurd hbusy (by simp)
    · rw [completionsOf] at hcomp
      rw [hcomp]
      split_ifs <;> simp

/-- Two messages of one id, the first written and its retry timer expired: the timeout with seq 0 is
posted. -/
theorem sender_progress_demo : ∃ st entry rest,
    (senderMachine demoProtocol).Reachable st ∧ st.sender.pending 2 = entry :: rest ∧ rest ≠ [] ∧
    (entry.seqAssigned = true ∧
      ((entry.sendInProgress = true ∧
          ⟨2, entry.expectedSeq, entry.sendGeneration⟩ ∈ st.outstanding) ∨
        entry.timer = some entry.expectedSeq ∨ (2, entry.expectedSeq) ∈ st.posted)) := by
  obtain ⟨st, hrun⟩ : ∃ st, (senderMachine demoProtocol).run SenderState.initial
      [.send 2 (pack demoProtocol 2 [1, 0, 0, 0]) none,
        .send 2 (pack demoProtocol 2 [2, 0, 0, 0]) none, .complete ⟨2, 0, 1⟩ true,
        .expire 2 0] = some st := ⟨_, rfl⟩
  have hreach : (senderMachine demoProtocol).Reachable st :=
    (Machine.Reachable.of_initial rfl).of_run hrun
  obtain ⟨entry, rest, hq, hrest⟩ : ∃ entry rest, st.sender.pending 2 = entry :: rest ∧
      rest ≠ [] := by
    obtain rfl := Option.some.inj hrun
    exact ⟨_, _, rfl, by simp⟩
  exact ⟨st, entry, rest, hreach, hq, hrest, (sender_progress hreach 2).1 entry rest hq⟩

end AutoSerialBridge
