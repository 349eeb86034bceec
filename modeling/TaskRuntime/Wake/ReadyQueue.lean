/-!
# Ready queues

The ids of tasks that wait to be polled: a stack without duplicates. Pushing an id that is queued
already changes nothing, so any number of wakes before the next poll make one entry.

## Two containers

A queue keeps the stack of ids and, beside it, the set of queued ids that tells in one look whether
an id is there. `ReadyQueue.Synced` says that the two agree; every operation keeps it.
-/

namespace TaskRuntime

/-- The number of a task of an executor. -/
abbrev TaskId := UInt64

/-- Ids waiting to be polled. -/
structure ReadyQueue where
  /-- The ids, most recently pushed first. -/
  ids : List TaskId := []
  /-- The set of queued ids. -/
  queued : List TaskId := []
  deriving DecidableEq, Repr, Inhabited

namespace ReadyQueue

/-- Adds an id on top, and says whether it was accepted: an id that is queued already is not. -/
def push (q : ReadyQueue) (id : TaskId) : Bool × ReadyQueue :=
  if id ∈ q.queued then (false, q) else (true, ⟨id :: q.ids, id :: q.queued⟩)

/-- Takes the most recently pushed id off. -/
def pop? (q : ReadyQueue) : Option (TaskId × ReadyQueue) :=
  match q.ids with
  | [] => none
  | id :: rest => some (id, ⟨rest, q.queued.erase id⟩)

/-- How many ids are queued. -/
def size (q : ReadyQueue) : Nat := q.ids.length

/-- Whether no id is queued. -/
def isEmpty (q : ReadyQueue) : Bool := q.ids.isEmpty

/-- Adds ids one after the other, and counts the accepted ones. -/
def pushAll (q : ReadyQueue) : List TaskId → Nat × ReadyQueue
  | [] => (0, q)
  | id :: rest =>
    let (accepted, q) := q.push id
    let (count, q) := q.pushAll rest
    ((if accepted then 1 else 0) + count, q)

/-- Takes everything off: the ids in the order in which they come, and the queue that is left. -/
def drain (q : ReadyQueue) : List TaskId × ReadyQueue :=
  (q.ids, ⟨[], q.ids.foldl List.erase q.queued⟩)

/-! ### The two containers agree -/

/-- The stack holds no id twice, and the set holds exactly its ids. -/
structure Synced (q : ReadyQueue) : Prop where
  /-- No id is stacked twice. -/
  nodup : q.ids.Nodup
  /-- No id is twice in the set. -/
  nodup_queued : q.queued.Nodup
  /-- The set holds the ids of the stack. -/
  mem_iff : ∀ id, id ∈ q.queued ↔ id ∈ q.ids

theorem synced_empty : Synced {} := ⟨by simp, by simp, by simp⟩

theorem Synced.push {q : ReadyQueue} (h : q.Synced) (id : TaskId) : (q.push id).2.Synced := by
  unfold ReadyQueue.push
  split
  · exact h
  · next hid =>
    exact ⟨List.nodup_cons.2 ⟨fun hm ↦ hid ((h.mem_iff id).2 hm), h.nodup⟩,
      List.nodup_cons.2 ⟨hid, h.nodup_queued⟩, fun x ↦ by simp [h.mem_iff x]⟩

theorem Synced.pop {q r : ReadyQueue} {id : TaskId} (h : q.Synced) (hp : q.pop? = some (id, r)) :
    r.Synced := by
  obtain ⟨ids, queued⟩ := q
  cases ids with
  | nil => simp [pop?] at hp
  | cons top rest =>
    obtain ⟨rfl, rfl⟩ : top = id ∧ ⟨rest, queued.erase top⟩ = r := by simpa [pop?] using hp
    obtain ⟨htop, hrest⟩ := List.nodup_cons.1 h.nodup
    refine ⟨hrest, h.nodup_queued.erase top, fun x ↦ ?_⟩
    rw [h.nodup_queued.mem_erase_iff, h.mem_iff x]
    simp only [List.mem_cons]
    constructor
    · rintro ⟨hne, rfl | hx⟩
      · exact absurd rfl hne
      · exact hx
    · exact fun hx ↦ ⟨fun hxt ↦ htop (hxt ▸ hx), Or.inr hx⟩

end ReadyQueue

end TaskRuntime
