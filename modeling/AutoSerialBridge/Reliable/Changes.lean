import AutoSerialBridge.Reliable.Queue

/-!
# Auto Serial Bridge — what the handlers of `ReliableSender` can do

Every handler changes the queues in a few ways (`Change`): an entry is appended, the flags and the
timer of an entry are set, the front entry is sent, or removed by an Ack. What every change keeps,
every handler keeps. A handler that calls `send_callback_` passes it the front entry of a queue
(`Requested`).

## Results

* `changes_sendImpl`, `changes_handleRetryTimeout`, `changes_onAckReceivedImpl`,
  `changes_handleSendCompletion`, `change_expire` — **what a handler does**.
-/

namespace AutoSerialBridge

open Relation

/-- The entries differ in their flags and their timer. -/
structure PendingEntry.Alike (entry entry' : PendingEntry) : Prop where
  number : entry'.number = entry.number
  packedBytes : entry'.packedBytes = entry.packedBytes
  expectedSeq : entry'.expectedSeq = entry.expectedSeq
  seqAssigned : entry'.seqAssigned = entry.seqAssigned

namespace ReliableSender

variable (p : Protocol)

/-- A change of one queue. -/
inductive Change (s : ReliableSender) : ReliableSender → Prop where
  | append (id : UInt8) (data : List UInt8) :
    Change s (s.setQueue id (s.pending id ++ [s.newEntry id (pack p id data)]))
  | touch {key : UInt8} {index : Nat} {entry entry' : PendingEntry}
      (hentry : (s.pending key)[index]? = some entry) (halike : entry.Alike entry') :
    Change s (s.setQueue key ((s.pending key).set index entry'))
  | attempt {key : UInt8} {entry : PendingEntry} {rest : List PendingEntry}
      (hq : s.pending key = entry :: rest) (hidle : entry.sendInProgress = false) :
    Change s { s.setQueue key (entry.attempted p s.seqCounter :: rest) with
      seqCounter := entry.nextCounter s.seqCounter }
  | remove {key : UInt8} {entry : PendingEntry} {rest : List PendingEntry}
      (hq : s.pending key = entry :: rest) (hawait : entry.awaitingAck = true) :
    Change s (s.removeFront key rest)

def Changes : ReliableSender → ReliableSender → Prop := ReflTransGen (Change p)

/-- What is passed to `send_callback_` is the front entry of a queue. -/
def Requested (s : ReliableSender) (req : Option SendRequest) : Prop :=
  ∀ r ∈ req, ∃ key entry rest, s.pending key = entry :: rest ∧ entry.seqAssigned = true ∧
    r = entry.request key

variable {p} {s : ReliableSender} {key : UInt8} {entry : PendingEntry} {rest : List PendingEntry}

theorem requested_none : Requested s none := by
  rintro r ⟨⟩

theorem changes_attemptSend (s : ReliableSender) (key : UInt8) :
    Changes p s (attemptSend p s key).1 ∧
      Requested (attemptSend p s key).1 (attemptSend p s key).2 := by
  cases hq : s.pending key with
  | nil =>
    unfold attemptSend
    simp only [hq]
    exact ⟨.refl, requested_none⟩
  | cons entry rest =>
    by_cases hbusy : entry.sendInProgress = true
    · rw [attemptSend_of_busy hq hbusy]
      exact ⟨.refl, requested_none⟩
    · have hidle : entry.sendInProgress = false := (Bool.not_eq_true _).mp hbusy
      rw [attemptSend_of_idle hq hidle]
      refine ⟨.single (.attempt hq hidle), ?_⟩
      intro r hr
      refine ⟨key, _, rest, setQueue_pending_self, PendingEntry.attempted_seqAssigned, ?_⟩
      exact (Option.some.inj hr).symm

/-- The front entry is touched. -/
theorem changes_front {entry' : PendingEntry} (hq : s.pending key = entry :: rest)
    (halike : entry.Alike entry') : Changes p s (s.setQueue key (entry' :: rest)) := by
  have htouch : Change p s (s.setQueue key ((s.pending key).set 0 entry')) :=
    .touch (by rw [hq]; rfl) halike
  rw [hq] at htouch
  exact .single htouch

/-- **`send_impl`** appends an entry, and sends it if it is alone. -/
theorem changes_sendImpl (s : ReliableSender) (id : UInt8) (data : List UInt8) :
    Changes p s (sendImpl p s id (pack p id data)).1 ∧
      Requested (sendImpl p s id (pack p id data)).1 (sendImpl p s id (pack p id data)).2 := by
  have happend : Changes p s (s.setQueue id (s.pending id ++ [s.newEntry id (pack p id data)])) :=
    .single (.append id data)
  by_cases hq : s.pending id = []
  · rw [sendImpl_of_empty hq]
    rw [hq, List.nil_append] at happend
    obtain ⟨hchanges, hreq⟩ := changes_attemptSend (p := p)
      (s.setQueue id [s.newEntry id (pack p id data)]) id
    exact ⟨happend.trans hchanges, hreq⟩
  · rw [sendImpl_of_nonempty hq]
    exact ⟨happend, requested_none⟩

/-- **`handle_retry_timeout`** touches the front entry and sends it again. -/
theorem changes_handleRetryTimeout (s : ReliableSender) (key seq : UInt8) :
    Changes p s (handleRetryTimeout p s key seq).1 ∧
      Requested (handleRetryTimeout p s key seq).1 (handleRetryTimeout p s key seq).2 := by
  by_cases hmatch : ∃ entry rest, s.pending key = entry :: rest ∧ entry.expectedSeq = seq
  · obtain ⟨entry, rest, hq, hseq⟩ := hmatch
    rw [handleRetryTimeout_of_match hq hseq]
    have hfront : Changes p s (s.setQueue key (retriedEntry p entry :: rest)) :=
      changes_front hq ⟨rfl, rfl, rfl, rfl⟩
    obtain ⟨hchanges, hreq⟩ := changes_attemptSend (p := p)
      (s.setQueue key (retriedEntry p entry :: rest)) key
    exact ⟨hfront.trans hchanges, hreq⟩
  · rw [handleRetryTimeout_of_mismatch]
    · exact ⟨.refl, requested_none⟩
    · intro entry hentry hseq
      obtain ⟨rest, hq⟩ := List.head?_eq_some_iff.mp hentry
      exact hmatch ⟨entry, rest, hq, hseq⟩

/-- **`on_ack_received_impl`** removes the front entry and sends the next one. -/
theorem changes_onAckReceivedImpl (s : ReliableSender) (key ackSeq : UInt8) :
    Changes p s (onAckReceivedImpl p s key ackSeq).1 ∧
      Requested (onAckReceivedImpl p s key ackSeq).1 (onAckReceivedImpl p s key ackSeq).2 := by
  by_cases hmatch : ∃ entry rest, s.pending key = entry :: rest ∧ entry.expectedSeq = ackSeq ∧
      entry.awaitingAck = true
  · obtain ⟨entry, rest, hq, hseq, hawait⟩ := hmatch
    rw [onAckReceivedImpl_of_match hq hseq hawait]
    have hremove : Changes p s (s.removeFront key rest) := .single (.remove hq hawait)
    split_ifs
    · exact ⟨hremove, requested_none⟩
    · obtain ⟨hchanges, hreq⟩ := changes_attemptSend (p := p) (s.removeFront key rest) key
      exact ⟨hremove.trans hchanges, hreq⟩
  · rw [onAckReceivedImpl_of_mismatch]
    · exact ⟨.refl, requested_none⟩
    · intro entry hentry
      obtain ⟨rest, hq⟩ := List.head?_eq_some_iff.mp hentry
      by_cases hseq : entry.expectedSeq = ackSeq
      · refine .inr ?_
        by_contra hawait
        exact hmatch ⟨entry, rest, hq, hseq, (Bool.not_eq_false _).mp hawait⟩
      · exact .inl hseq

/-- **`handle_send_completion`** touches the front entry. -/
theorem changes_handleSendCompletion (s : ReliableSender) (c : SendCompletion) (success : Bool) :
    Changes p s (handleSendCompletion s c success) := by
  cases hq : s.pending c.key with
  | nil =>
    unfold handleSendCompletion
    simp only [hq]
    exact .refl
  | cons entry rest =>
    by_cases hc : entry.completion c.key = c
    · rw [handleSendCompletion_of_match hq hc]
      exact changes_front hq ⟨rfl, rfl, rfl, rfl⟩
    · have hmiss : entry.expectedSeq ≠ c.seq ∨ entry.sendGeneration ≠ c.generation := by
        by_contra hboth
        rw [not_or, not_not, not_not] at hboth
        refine hc ?_
        unfold PendingEntry.completion
        rw [hboth.1, hboth.2]
      unfold handleSendCompletion
      simp only [hq, if_pos hmiss]
      exact .refl

/-- The expiry of a timer touches an entry. -/
theorem change_expire {s' : ReliableSender} {index : Nat} {seq : UInt8}
    (h : s.expire key index = some (s', seq)) : Change p s s' := by
  unfold expire at h
  split at h
  · next entry hentry =>
    split at h
    · rw [Option.some.injEq, Prod.mk.injEq] at h
      obtain ⟨rfl, -⟩ := h
      exact .touch hentry ⟨rfl, rfl, rfl, rfl⟩
    · cases h
  · cases h

-- ---------------------------------------------------------------------------
-- The entries
-- ---------------------------------------------------------------------------

section Entries

variable {P : UInt8 → PendingEntry → Prop} {s' : ReliableSender}

/-- A queue is replaced. -/
theorem entries_setQueue (h : ∀ key, ∀ entry ∈ s.pending key, P key entry) {queue : List PendingEntry}
    (hqueue : ∀ entry ∈ queue, P key entry) : ∀ k, ∀ entry ∈ (s.setQueue key queue).pending k, P k entry := by
  intro k entry hentry
  by_cases hk : k = key
  · subst hk
    rw [setQueue_pending_self] at hentry
    exact hqueue entry hentry
  · rw [setQueue_pending_of_ne hk] at hentry
    exact h k entry hentry

/-- What new entries have and attempts keep, all entries have. -/
theorem entries_changes (hnew : ∀ s id data, P id (newEntry s id (pack p id data)))
    (halike : ∀ key entry entry', P key entry → entry.Alike entry' → P key entry')
    (hattempt : ∀ key entry seqCounter, P key entry → P key (entry.attempted p seqCounter))
    (h : ∀ key, ∀ entry ∈ s.pending key, P key entry) (hchanges : Changes p s s') :
    ∀ key, ∀ entry ∈ s'.pending key, P key entry := by
  induction hchanges with
  | refl => exact h
  | @tail s₁ s₂ _ hchange ih =>
    cases hchange with
    | append id data =>
      refine entries_setQueue ih fun entry hentry => ?_
      rcases List.mem_append.mp hentry with hentry | hentry
      · exact ih id entry hentry
      · rw [List.mem_singleton.mp hentry]
        exact hnew s₁ id data
    | @touch key index entry entry' hentry hsame =>
      refine entries_setQueue ih fun e he => ?_
      rcases List.mem_or_eq_of_mem_set he with he | rfl
      · exact ih key e he
      · exact halike key entry e (ih key entry (List.mem_of_getElem? hentry)) hsame
    | @attempt key entry rest hq =>
      have hall := ih key
      rw [hq, List.forall_mem_cons] at hall
      exact entries_setQueue ih (List.forall_mem_cons.mpr ⟨hattempt key entry _ hall.1, hall.2⟩)
    | @remove key entry rest hq =>
      have hall := ih key
      rw [hq, List.forall_mem_cons] at hall
      exact entries_setQueue ih hall.2

end Entries

/-- The bytes are those of a frame. -/
def Framed (p : Protocol) (bytes : List UInt8) : Prop := ∃ id payload, bytes = frame p id payload

/-- Every entry holds a frame. -/
def EntriesFramed (p : Protocol) (s : ReliableSender) : Prop :=
  ∀ key, ∀ entry ∈ s.pending key, Framed p entry.packedBytes

theorem Framed.attempted {seqCounter : UInt8} (h : Framed p entry.packedBytes) :
    Framed p (entry.attempted p seqCounter).packedBytes := by
  rw [PendingEntry.attempted_packedBytes]
  split_ifs
  · exact h
  · obtain ⟨id, payload, hbytes⟩ := h
    rw [hbytes, ← pack_eq_frame, injectTrailingSeq_pack]
    exact ⟨id, _, rfl⟩

theorem EntriesFramed.changes (h : EntriesFramed p s) {s' : ReliableSender}
    (hchanges : Changes p s s') : EntriesFramed p s' :=
  entries_changes (P := fun _ entry => Framed p entry.packedBytes)
    (fun _ id data => ⟨id, data, pack_eq_frame p id data⟩)
    (fun _ _ _ hframed halike => by rw [halike.packedBytes]; exact hframed)
    (fun _ _ _ hframed => hframed.attempted) h hchanges

/-- The seq stands behind the data once it is assigned. -/
def Stamped (p : Protocol) (key : UInt8) (entry : PendingEntry) : Prop :=
  ∃ data, entry.packedBytes =
    if entry.seqAssigned then injectTrailingSeq p (pack p key data) entry.expectedSeq
    else pack p key data

def EntriesStamped (p : Protocol) (s : ReliableSender) : Prop :=
  ∀ key, ∀ entry ∈ s.pending key, Stamped p key entry

theorem Stamped.attempted {seqCounter : UInt8} (h : Stamped p key entry) :
    Stamped p key (entry.attempted p seqCounter) := by
  obtain ⟨data, hbytes⟩ := h
  refine ⟨data, ?_⟩
  rw [PendingEntry.attempted_seqAssigned, if_pos rfl, PendingEntry.attempted_packedBytes,
    PendingEntry.attempted_expectedSeq]
  by_cases hassigned : entry.seqAssigned = true
  · rw [if_pos hassigned] at hbytes
    rw [if_pos hassigned, if_pos hassigned, hbytes]
  · rw [if_neg hassigned] at hbytes
    rw [if_neg hassigned, if_neg hassigned, hbytes]

theorem EntriesStamped.changes (h : EntriesStamped p s) {s' : ReliableSender}
    (hchanges : Changes p s s') : EntriesStamped p s' :=
  entries_changes (P := Stamped p) (fun _ _ data => ⟨data, rfl⟩)
    (fun _ _ _ hstamped halike => by
      unfold Stamped
      rw [halike.packedBytes, halike.seqAssigned, halike.expectedSeq]
      exact hstamped)
    (fun _ _ _ hstamped => hstamped.attempted) h hchanges

end ReliableSender

end AutoSerialBridge
