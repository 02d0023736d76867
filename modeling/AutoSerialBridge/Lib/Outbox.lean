import AutoSerialBridge.Lib.History

/-!
# Outboxes

A sender that works on one item of a queue at a time, for any number of queues: the front item is
transmitted any number of times, until it is removed, and what is transmitted is fixed the first
time. The events of a run stand in a history, newest first.

## Results

* `Outbox.Ordered.step` — the invariant of the outbox and its history.
* `Outbox.InOrder` — what it says about every event: the items of a queue are transmitted in their
  order, each one with the same contents every time, and removed once.
-/

namespace AutoSerialBridge.Lib

/-- An item of a queue. Its contents are fixed once it is sealed. -/
structure Item (β : Type) where
  number : Nat
  contents : β
  isSealed : Bool

/-- The queues, and how many items of each were removed. -/
structure Outbox (κ β : Type) where
  queue : κ → List (Item β)
  removed : κ → Nat

namespace Outbox

inductive Event (κ β : Type) where
  | transmitted (key : κ) (number : Nat) (contents : β)
  | removed (key : κ) (number : Nat)
deriving DecidableEq

variable {κ β : Type}

def Event.key : Event κ β → κ
  | .transmitted key _ _ => key
  | .removed key _ => key

def empty : Outbox κ β := ⟨fun _ => [], fun _ => 0⟩

section Steps

variable [DecidableEq κ]

def setQueue (o : Outbox κ β) (key : κ) (items : List (Item β)) : Outbox κ β :=
  { o with queue := Function.update o.queue key items }

def removeFront (o : Outbox κ β) (key : κ) (rest : List (Item β)) : Outbox κ β :=
  { o.setQueue key rest with removed := Function.update o.removed key (o.removed key + 1) }

/-- A step, with the events it adds to the history. -/
inductive Step (o : Outbox κ β) : List (Event κ β) → Outbox κ β → Prop where
  | append (key : κ) (contents : β) :
    Step o [] (o.setQueue key
      (o.queue key ++ [⟨o.removed key + (o.queue key).length, contents, false⟩]))
  | transmitFirst {key : κ} {item : Item β} {rest : List (Item β)} (contents : β)
      (hq : o.queue key = item :: rest) (hopen : item.isSealed = false) :
    Step o [.transmitted key item.number contents]
      (o.setQueue key (⟨item.number, contents, true⟩ :: rest))
  | transmitAgain {key : κ} {item : Item β} {rest : List (Item β)}
      (hq : o.queue key = item :: rest) (hsealed : item.isSealed = true) :
    Step o [.transmitted key item.number item.contents] o
  | remove {key : κ} {item : Item β} {rest : List (Item β)}
      (hq : o.queue key = item :: rest) (hsealed : item.isSealed = true) :
    Step o [.removed key item.number] (o.removeFront key rest)

/-- A sequence of steps, with the events it adds to the history. -/
inductive Steps (o : Outbox κ β) : List (Event κ β) → Outbox κ β → Prop where
  | refl : Steps o [] o
  | tail {o' o'' : Outbox κ β} {events events' : List (Event κ β)} (h : Steps o events o')
      (hstep : Step o' events' o'') : Steps o (events' ++ events) o''

theorem Steps.trans {o o' o'' : Outbox κ β} {events events' : List (Event κ β)}
    (h : Steps o events o') (h' : Steps o' events' o'') : Steps o (events' ++ events) o'' := by
  induction h' with
  | refl => exact h
  | tail _ hstep ih =>
    rw [List.append_assoc]
    exact .tail ih hstep

end Steps

-- ---------------------------------------------------------------------------
-- The order
-- ---------------------------------------------------------------------------

/-- What is true of the past when an item is transmitted: all before it were transmitted and removed,
none after it was transmitted, and it was not transmitted with other contents. -/
structure TransmittedNext (key : κ) (number : Nat) (contents : β) (older : List (Event κ β)) :
    Prop where
  removed : ∀ n < number, .removed key n ∈ older
  previous : ∀ n < number, ∃ contents, .transmitted key n contents ∈ older
  earlier : ∀ n contents', .transmitted key n contents' ∈ older →
    n < number ∨ n = number ∧ contents' = contents

/-- The condition on an event and the events before it. -/
structure InOrder (e : Event κ β) (older : List (Event κ β)) : Prop where
  transmitted : ∀ key number contents, e = .transmitted key number contents →
    TransmittedNext key number contents older
  removed : ∀ key number, e = .removed key number →
    .removed key number ∉ older ∧ ∃ contents, .transmitted key number contents ∈ older

/-- The invariant of a queue. -/
structure QueueOrdered (key : κ) (queue : List (Item β)) (count : Nat)
    (history : List (Event κ β)) : Prop where
  numbers : queue.map (·.number) = List.range' count queue.length
  fresh : ∀ item ∈ queue.tail, item.isSealed = false
  front : ∀ item ∈ queue, item.isSealed = true →
    .transmitted key item.number item.contents ∈ history
  transmitted : ∀ number contents, .transmitted key number contents ∈ history →
    number < count ∨ ∃ item ∈ queue, item.isSealed = true ∧ item.number = number ∧
      item.contents = contents
  removed_iff : ∀ number, .removed key number ∈ history ↔ number < count
  past : ∀ number < count, ∃ contents, .transmitted key number contents ∈ history

/-- The invariant of an outbox and its history. -/
structure Ordered (o : Outbox κ β) (history : List (Event κ β)) : Prop where
  queues : ∀ key, QueueOrdered key (o.queue key) (o.removed key) history
  recorded : Recorded InOrder history

namespace QueueOrdered

variable {key : κ} {item : Item β} {rest queue : List (Item β)} {count : Nat}
  {history : List (Event κ β)}

theorem empty (key : κ) : QueueOrdered key ([] : List (Item β)) 0 [] where
  numbers := rfl
  fresh := List.forall_mem_nil _
  front := List.forall_mem_nil _
  transmitted _ _ hmem := absurd hmem List.not_mem_nil
  removed_iff number := iff_of_false List.not_mem_nil (Nat.not_lt_zero number)
  past number hlt := absurd hlt (Nat.not_lt_zero number)

/-- An event about another queue. -/
theorem other (h : QueueOrdered key queue count history) {e : Event κ β} (hkey : e.key ≠ key) :
    QueueOrdered key queue count (e :: history) := by
  have hne : ∀ e' : Event κ β, e'.key = key → (e' ∈ e :: history ↔ e' ∈ history) := by
    intro e' he'
    rw [List.mem_cons]
    refine ⟨fun hmem => hmem.resolve_left ?_, .inr⟩
    rintro rfl
    exact hkey he'
  refine ⟨h.numbers, h.fresh, fun item hitem hsealed => ?_, fun number contents hmem => ?_,
    fun number => ?_, fun number hlt => ?_⟩
  · exact List.mem_cons_of_mem _ (h.front item hitem hsealed)
  · exact h.transmitted number contents ((hne _ rfl).mp hmem)
  · rw [hne _ rfl]
    exact h.removed_iff number
  · obtain ⟨contents, hmem⟩ := h.past number hlt
    exact ⟨contents, List.mem_cons_of_mem _ hmem⟩

/-- The front item is the next one to be removed. -/
theorem number_front (h : QueueOrdered key (item :: rest) count history) :
    item.number = count ∧ rest.map (·.number) = List.range' (count + 1) rest.length := by
  have hnumbers := h.numbers
  rw [List.map_cons, List.length_cons, List.range'_succ] at hnumbers
  exact List.cons.inj hnumbers

/-- Only the front item can be sealed. -/
theorem eq_front_of_sealed (h : QueueOrdered key (item :: rest) count history) {item' : Item β}
    (hmem : item' ∈ item :: rest) (hsealed : item'.isSealed = true) : item' = item := by
  rcases List.mem_cons.mp hmem with rfl | hmem
  · rfl
  · rw [h.fresh item' hmem] at hsealed
    cases hsealed

/-- The past, when the front item is about to be transmitted. -/
theorem transmittedNext (h : QueueOrdered key (item :: rest) count history) {contents : β}
    (hcontents : item.isSealed = true → item.contents = contents) :
    TransmittedNext key item.number contents history := by
  obtain ⟨hnumber, -⟩ := h.number_front
  refine ⟨fun n hn => ?_, fun n hn => ?_, fun n contents' hmem => ?_⟩
  · rw [h.removed_iff]
    omega
  · exact h.past n (by omega)
  · rcases h.transmitted n contents' hmem with hlt | ⟨item', hmem', hsealed, rfl, rfl⟩
    · left
      omega
    · obtain rfl := h.eq_front_of_sealed hmem' hsealed
      exact .inr ⟨rfl, hcontents hsealed⟩

theorem append (h : QueueOrdered key queue count history) (contents : β) :
    QueueOrdered key (queue ++ [⟨count + queue.length, contents, false⟩]) count history := by
  refine ⟨?_, fun item hitem => ?_, fun item hitem hsealed => ?_, fun number contents' hmem => ?_,
    h.removed_iff, h.past⟩
  · rw [List.map_append, h.numbers, List.length_append, List.length_singleton, List.range'_concat,
      Nat.one_mul]
    rfl
  · cases queue with
    | nil => exact absurd hitem List.not_mem_nil
    | cons front rest =>
      rcases List.mem_append.mp hitem with hitem | hitem
      · exact h.fresh item hitem
      · rw [List.mem_singleton.mp hitem]
  · rcases List.mem_append.mp hitem with hitem | hitem
    · exact h.front item hitem hsealed
    · rw [List.mem_singleton.mp hitem] at hsealed
      cases hsealed
  · refine (h.transmitted number contents' hmem).imp_right ?_
    rintro ⟨item, hitem, hitem'⟩
    exact ⟨item, List.mem_append_left _ hitem, hitem'⟩

/-- The front item is transmitted: from now on it is sealed. -/
theorem transmit (h : QueueOrdered key (item :: rest) count history) {contents : β}
    (hcontents : item.isSealed = true → item.contents = contents) :
    QueueOrdered key (⟨item.number, contents, true⟩ :: rest) count
      (.transmitted key item.number contents :: history) := by
  refine ⟨h.numbers, h.fresh, fun item' hitem' hsealed => ?_, fun number contents' hmem => ?_,
    fun number => ?_, fun number hlt => ?_⟩
  · rcases List.mem_cons.mp hitem' with rfl | hitem'
    · exact List.mem_cons_self
    · rw [h.fresh item' hitem'] at hsealed
      cases hsealed
  · rcases List.mem_cons.mp hmem with heq | hmem
    · obtain ⟨-, rfl, rfl⟩ := Event.transmitted.inj heq
      exact .inr ⟨_, List.mem_cons_self, rfl, rfl, rfl⟩
    · refine (h.transmitted number contents' hmem).imp_right ?_
      rintro ⟨item', hitem', hsealed, hnumber, hitem⟩
      obtain rfl := h.eq_front_of_sealed hitem' hsealed
      exact ⟨_, List.mem_cons_self, rfl, hnumber, (hcontents hsealed).symm.trans hitem⟩
  · rw [List.mem_cons]
    exact ⟨fun hmem => (h.removed_iff number).mp (hmem.resolve_left (by rintro ⟨⟩)),
      fun hlt => .inr ((h.removed_iff number).mpr hlt)⟩
  · obtain ⟨contents', hmem⟩ := h.past number hlt
    exact ⟨contents', List.mem_cons_of_mem _ hmem⟩

/-- The front item is removed. -/
theorem remove (h : QueueOrdered key (item :: rest) count history)
    (hsealed : item.isSealed = true) :
    QueueOrdered key rest (count + 1) (.removed key item.number :: history) := by
  obtain ⟨hnumber, hnumbers⟩ := h.number_front
  have hfresh : ∀ item' ∈ rest, item'.isSealed = false := h.fresh
  refine ⟨hnumbers, fun item' hitem' => hfresh item' (List.mem_of_mem_tail hitem'),
    fun item' hitem' hsealed' => ?_, fun number contents hmem => ?_, fun number => ?_,
    fun number hlt => ?_⟩
  · rw [hfresh item' hitem'] at hsealed'
    cases hsealed'
  · left
    rcases h.transmitted number contents ((List.mem_cons.mp hmem).resolve_left (by rintro ⟨⟩)) with
      hlt | ⟨item', hitem', hsealed', rfl, -⟩
    · omega
    · rw [h.eq_front_of_sealed hitem' hsealed']
      omega
  · rw [List.mem_cons, h.removed_iff]
    constructor
    · rintro (heq | hlt)
      · obtain ⟨-, rfl⟩ := Event.removed.inj heq
        omega
      · omega
    · intro hlt
      by_cases hfront : number = item.number
      · exact .inl (by rw [hfront])
      · right
        omega
  · by_cases hfront : number = item.number
    · have hmem := h.front item List.mem_cons_self hsealed
      exact ⟨item.contents, List.mem_cons_of_mem _ (by rw [hfront]; exact hmem)⟩
    · obtain ⟨contents, hmem⟩ := h.past number (by omega)
      exact ⟨contents, List.mem_cons_of_mem _ hmem⟩

end QueueOrdered

namespace Ordered

variable {o o' : Outbox κ β} {history : List (Event κ β)} {key : κ} {item : Item β}
  {rest : List (Item β)}

theorem empty : Ordered (Outbox.empty : Outbox κ β) [] := ⟨.empty, trivial⟩

/-- The front item of a queue may be transmitted. -/
theorem recorded_transmitted (h : Ordered o history) (hq : o.queue key = item :: rest) {contents : β}
    (hcontents : item.isSealed = true → item.contents = contents) :
    Recorded InOrder (.transmitted key item.number contents :: history) := by
  have hkey := h.queues key
  rw [hq] at hkey
  refine ⟨⟨?_, ?_⟩, h.recorded⟩
  · rintro key' number' contents' heq
    obtain ⟨rfl, rfl, rfl⟩ := Event.transmitted.inj heq
    exact hkey.transmittedNext hcontents
  · rintro key' number' ⟨⟩

/-- The front item of a queue may be removed. -/
theorem recorded_removed (h : Ordered o history) (hq : o.queue key = item :: rest)
    (hsealed : item.isSealed = true) : Recorded InOrder (.removed key item.number :: history) := by
  have hkey := h.queues key
  rw [hq] at hkey
  refine ⟨⟨?_, ?_⟩, h.recorded⟩
  · rintro key' number contents ⟨⟩
  · rintro key' number heq
    obtain ⟨rfl, rfl⟩ := Event.removed.inj heq
    refine ⟨fun hmem => ?_, item.contents, hkey.front item List.mem_cons_self hsealed⟩
    rw [hkey.removed_iff] at hmem
    have hnumber := hkey.number_front.1
    omega

variable [DecidableEq κ]

/-- One queue changes, and the events are about it. -/
theorem update (h : Ordered o history) (key : κ) {events : List (Event κ β)}
    (hkey : QueueOrdered key (o'.queue key) (o'.removed key) (events ++ history))
    (hqueue : ∀ key', key' ≠ key → o'.queue key' = o.queue key')
    (hremoved : ∀ key', key' ≠ key → o'.removed key' = o.removed key')
    (hevents : ∀ e ∈ events, e.key = key) (hrecorded : Recorded InOrder (events ++ history)) :
    Ordered o' (events ++ history) := by
  refine ⟨fun key' => ?_, hrecorded⟩
  by_cases hne : key' = key
  · exact hne ▸ hkey
  · rw [hqueue key' hne, hremoved key' hne]
    clear hkey hrecorded
    induction events with
    | nil => exact h.queues key'
    | cons e events ih =>
      rw [List.forall_mem_cons] at hevents
      exact (ih hevents.2).other fun he => hne (he.symm.trans hevents.1)

theorem setQueue_queue_self {items : List (Item β)} :
    (o.setQueue key items).queue key = items := Function.update_self ..

theorem setQueue_queue_of_ne {items : List (Item β)} {key' : κ} (h : key' ≠ key) :
    (o.setQueue key items).queue key' = o.queue key' := Function.update_of_ne h ..

/-- **Every step keeps the invariant.** -/
theorem step {events : List (Event κ β)} (h : Ordered o history) (hstep : Step o events o') :
    Ordered o' (events ++ history) := by
  cases hstep with
  | append key contents =>
    refine h.update key ?_ (fun key' hne => setQueue_queue_of_ne hne) (fun _ _ => rfl)
      (List.forall_mem_nil _) h.recorded
    rw [setQueue_queue_self]
    exact (h.queues key).append contents
  | @transmitFirst key item rest contents hq hopen =>
    have hkey := h.queues key
    rw [hq] at hkey
    have hcontents : item.isSealed = true → item.contents = contents := by
      intro hsealed
      rw [hopen] at hsealed
      cases hsealed
    refine h.update key ?_ (fun key' hne => setQueue_queue_of_ne hne) (fun _ _ => rfl) ?_
      (h.recorded_transmitted hq hcontents)
    · rw [setQueue_queue_self]
      exact hkey.transmit hcontents
    · exact List.forall_mem_singleton.mpr rfl
  | @transmitAgain key item rest hq hsealed =>
    have hkey := h.queues key
    rw [hq] at hkey
    refine h.update key ?_ (fun _ _ => rfl) (fun _ _ => rfl) ?_
      (h.recorded_transmitted hq fun _ => rfl)
    · have hsame : (⟨item.number, item.contents, true⟩ : Item β) = item := by rw [← hsealed]
      have htransmit : QueueOrdered key (⟨item.number, item.contents, true⟩ :: rest)
          (o.removed key) (.transmitted key item.number item.contents :: history) :=
        hkey.transmit fun _ => rfl
      rw [hsame, ← hq] at htransmit
      exact htransmit
    · exact List.forall_mem_singleton.mpr rfl
  | @remove key item rest hq hsealed =>
    have hkey := h.queues key
    rw [hq] at hkey
    refine h.update key ?_ (fun key' hne => setQueue_queue_of_ne hne)
      (fun key' hne => Function.update_of_ne hne ..) ?_ (h.recorded_removed hq hsealed)
    · have hqueue : (o.removeFront key rest).queue key = rest := setQueue_queue_self
      have hremoved : (o.removeFront key rest).removed key = o.removed key + 1 :=
        Function.update_self ..
      rw [hqueue, hremoved]
      exact hkey.remove hsealed
    · exact List.forall_mem_singleton.mpr rfl

theorem steps {events : List (Event κ β)} (h : Ordered o history) (hsteps : Steps o events o') :
    Ordered o' (events ++ history) := by
  induction hsteps with
  | refl => exact h
  | tail _ hstep ih =>
    rw [List.append_assoc]
    exact ih.step hstep

end Ordered

end Outbox

end AutoSerialBridge.Lib
