import TaskRuntime.Executor

/-!
# Signals as views

What the scheduling loop sees of the signals is little: the ids on its own ready queue and the token
of its own parker. The lemmas below say what each operation does to these two views.

## The two halves of a wake

A wake pushes and then notifies, and another thread may act between the two. `Signals.pushFor` and
`Signals.unparkFor` are the halves; `Signals.wake_eq` puts them together.
-/

namespace TaskRuntime

/-! ### Ready queues -/

namespace ReadyQueue

theorem Synced.mem_push {q : ReadyQueue} (h : q.Synced) (i id : TaskId) :
    id ∈ (q.push i).2.ids ↔ id = i ∨ id ∈ q.ids := by
  unfold ReadyQueue.push
  split
  · next hi =>
    have hmem : i ∈ q.ids := (h.mem_iff i).1 hi
    exact ⟨Or.inr, fun hid ↦ hid.elim (fun e ↦ e ▸ hmem) (fun hid ↦ hid)⟩
  · simp

theorem ids_of_pop? {q r : ReadyQueue} {i : TaskId} (h : q.pop? = some (i, r)) :
    q.ids = i :: r.ids := by
  obtain ⟨ids, queued⟩ := q
  cases ids with
  | nil => simp [pop?] at h
  | cons top rest =>
    obtain ⟨rfl, rfl⟩ : top = i ∧ ⟨rest, queued.erase top⟩ = r := by simpa [pop?] using h
    rfl

/-- A popped id is gone: it was not queued twice. -/
theorem Synced.mem_pop {q r : ReadyQueue} {i : TaskId} (h : q.Synced)
    (hp : q.pop? = some (i, r)) (id : TaskId) : id ∈ r.ids ↔ id ∈ q.ids ∧ id ≠ i := by
  have hids := ids_of_pop? hp
  have hnd := h.nodup
  rw [hids] at hnd ⊢
  obtain ⟨hi, -⟩ := List.nodup_cons.1 hnd
  constructor
  · exact fun hid ↦ ⟨List.mem_cons_of_mem _ hid, fun e ↦ hi (e ▸ hid)⟩
  · rintro ⟨hid, hne⟩
    exact (List.mem_cons.1 hid).resolve_left hne

end ReadyQueue

namespace Signals

variable {s : Signals} {q : QueueRef} {p : ParkerRef}

/-! ### The halves of a wake -/

/-- The first half of a wake: pushes the id. -/
def pushFor (s : Signals) (w : Waker) : Signals :=
  match w.queue, w.parker with
  | some q, some _ => (s.push q w.id).2
  | _, _ => s

/-- The second half of a wake: notifies the thread. -/
def unparkFor (s : Signals) (w : Waker) : Signals :=
  match w.queue, w.parker with
  | some _, some p => s.unpark p
  | _, _ => s

theorem wake_eq (s : Signals) (w : Waker) : s.wake w = (s.pushFor w).unparkFor w := by
  cases hq : w.queue <;> cases hp : w.parker <;> simp [wake, pushFor, unparkFor, hq, hp]

/-! ### The ids on a queue -/

/-- A queue is in order: there is one behind the reference, and its two containers agree. -/
structure Queue (s : Signals) (q : QueueRef) : Prop where
  /-- The reference leads to a queue. -/
  lt : q.index < s.queues.length
  /-- The two containers of the queue agree. -/
  synced : (s.queue q).Synced

theorem queue_push (h : q.index < s.queues.length) (r : QueueRef) (id : TaskId) :
    (s.push r id).2.queue q = if r = q then ((s.queue q).push id).2 else s.queue q := by
  by_cases hr : r = q
  · subst hr
    simp only [push, queue_setQueue s r r _ h, if_true]
  · obtain ⟨i⟩ := r
    obtain ⟨j⟩ := q
    have hij : i ≠ j := fun e ↦ hr (congrArg QueueRef.mk e)
    simp only [push, if_neg hr, queue, setQueue, List.getD_eq_getElem?_getD,
      List.getElem?_set_ne hij]

theorem length_queues_push (s : Signals) (r : QueueRef) (id : TaskId) :
    (s.push r id).2.queues.length = s.queues.length := by
  simp [push, setQueue]

theorem Queue.push (h : s.Queue q) (r : QueueRef) (id : TaskId) : (s.push r id).2.Queue q := by
  refine ⟨by rw [length_queues_push]; exact h.lt, ?_⟩
  rw [queue_push h.lt]
  split
  · exact h.synced.push id
  · exact h.synced

theorem Queue.mem_push (h : s.Queue q) (r : QueueRef) (i id : TaskId) :
    id ∈ ((s.push r i).2.queue q).ids ↔ r = q ∧ id = i ∨ id ∈ (s.queue q).ids := by
  rw [queue_push h.lt]
  split
  · next hr => simp [h.synced.mem_push, hr]
  · next hr => simp [hr]

theorem pop?_eq_some {s' : Signals} {i : TaskId} (h : s.pop? q = some (i, s')) :
    ∃ r, (s.queue q).pop? = some (i, r) ∧ s' = s.setQueue q r := by
  obtain ⟨⟨j, r⟩, hr, he⟩ := Option.map_eq_some_iff.1 h
  obtain ⟨rfl, rfl⟩ := Prod.mk.inj he
  exact ⟨r, hr, rfl⟩

theorem Queue.pop {s' : Signals} {i : TaskId} (h : s.Queue q) (hp : s.pop? q = some (i, s')) :
    s'.Queue q := by
  obtain ⟨r, hr, rfl⟩ := pop?_eq_some hp
  refine ⟨by simpa [setQueue] using h.lt, ?_⟩
  rw [queue_setQueue s q q r h.lt, if_pos rfl]
  exact h.synced.pop hr

theorem Queue.mem_pop {s' : Signals} {i : TaskId} (h : s.Queue q)
    (hp : s.pop? q = some (i, s')) (id : TaskId) :
    id ∈ (s'.queue q).ids ↔ id ∈ (s.queue q).ids ∧ id ≠ i := by
  obtain ⟨r, hr, rfl⟩ := pop?_eq_some hp
  rw [queue_setQueue s q q r h.lt, if_pos rfl]
  exact h.synced.mem_pop hr id

theorem mem_of_pop? {s' : Signals} {i : TaskId} (hp : s.pop? q = some (i, s')) :
    i ∈ (s.queue q).ids := by
  obtain ⟨r, hr, -⟩ := pop?_eq_some hp
  rw [ReadyQueue.ids_of_pop? hr]
  exact List.mem_cons_self

theorem Queue.pushFor (h : s.Queue q) (w : Waker) : (s.pushFor w).Queue q := by
  unfold Signals.pushFor
  split
  · exact h.push _ _
  · exact h

theorem Queue.mem_pushFor (h : s.Queue q) (w : Waker) (id : TaskId) :
    id ∈ ((s.pushFor w).queue q).ids ↔
      (w.queue = some q ∧ w.parker ≠ none ∧ w.id = id) ∨ id ∈ (s.queue q).ids := by
  unfold Signals.pushFor
  split
  · next r p hr hp =>
    rw [h.mem_push]
    simp [hr, hp, eq_comm (a := id)]
  · next hnone =>
    refine ⟨Or.inr, fun hid ↦ hid.resolve_left ?_⟩
    rintro ⟨hq, hp, -⟩
    obtain ⟨p, hp⟩ := Option.ne_none_iff_exists'.1 hp
    exact hnone q p hq hp

@[simp] theorem queue_unparkFor (s : Signals) (w : Waker) (q : QueueRef) :
    (s.unparkFor w).queue q = s.queue q := by
  unfold unparkFor
  split <;> rfl

@[simp] theorem length_queues_unparkFor (s : Signals) (w : Waker) :
    (s.unparkFor w).queues.length = s.queues.length := by
  unfold unparkFor
  split <;> rfl

/-! ### The token of a parker -/

/-- Whether a parker has a token. -/
def token (s : Signals) (p : ParkerRef) : Bool := (s.parker p).token

theorem parker_setParker (s : Signals) {p : ParkerRef} (h : p.index < s.parkers.length)
    (r : ParkerRef) (x : Parker) :
    (s.setParker r x).parker p = if r = p then x else s.parker p := by
  by_cases hr : r = p
  · subst hr
    simp only [parker, setParker, if_true, List.getD_eq_getElem?_getD]
    rw [List.getElem?_set_self h]
    rfl
  · obtain ⟨i⟩ := r
    obtain ⟨j⟩ := p
    have hij : i ≠ j := fun e ↦ hr (congrArg ParkerRef.mk e)
    simp only [parker, setParker, if_neg hr, List.getD_eq_getElem?_getD,
      List.getElem?_set_ne hij]

theorem token_unpark (h : p.index < s.parkers.length) (r : ParkerRef) :
    (s.unpark r).token p = (decide (r = p) || s.token p) := by
  rw [token, unpark, parker_setParker s h]
  by_cases hr : r = p <;> simp [hr, token]

theorem token_unparkFor (h : p.index < s.parkers.length) (w : Waker) :
    (s.unparkFor w).token p = true ↔
      (w.queue ≠ none ∧ w.parker = some p) ∨ s.token p = true := by
  unfold unparkFor
  split
  · next hq hp => simp [token_unpark h, hq, hp]
  · next hnone =>
    refine ⟨Or.inr, fun ht ↦ ht.resolve_left ?_⟩
    rintro ⟨hq, hp⟩
    obtain ⟨q, hq⟩ := Option.ne_none_iff_exists'.1 hq
    exact hnone q p hq hp

@[simp] theorem token_pushFor (s : Signals) (w : Waker) (p : ParkerRef) :
    (s.pushFor w).token p = s.token p := by
  unfold pushFor
  split <;> rfl

@[simp] theorem length_parkers_unpark (s : Signals) (r : ParkerRef) :
    (s.unpark r).parkers.length = s.parkers.length := by
  simp [unpark, setParker]

@[simp] theorem length_parkers_pushFor (s : Signals) (w : Waker) :
    (s.pushFor w).parkers.length = s.parkers.length := by
  unfold pushFor
  split <;> rfl

@[simp] theorem length_parkers_unparkFor (s : Signals) (w : Waker) :
    (s.unparkFor w).parkers.length = s.parkers.length := by
  unfold unparkFor
  split <;> simp

end Signals

end TaskRuntime
