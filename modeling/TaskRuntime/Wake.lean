import TaskRuntime.Table
import TaskRuntime.Wake.Parker
import TaskRuntime.Wake.ReadyQueue

/-!
# Wakers

A waker stands for one task of one executor. Waking pushes the id of the task onto the ready queue
of the executor and then notifies the thread that runs it; anyone who holds a copy may do so, at any
time and from any thread, also long after the task or the executor is gone.

## Shared parts

Ready queues and parkers are shared between an executor and all wakers that it ever handed out.
`Signals` holds them all, and a `Waker` refers to them by number, so two wakers wake the same task
exactly when they are equal. The push comes before the notification, as two steps.
-/

namespace TaskRuntime

/-- A reference to a ready queue. -/
structure QueueRef where
  /-- Its number. -/
  index : Nat
  deriving DecidableEq, Repr, Inhabited

/-- A reference to a parker. -/
structure ParkerRef where
  /-- Its number. -/
  index : Nat
  deriving DecidableEq, Repr, Inhabited

/-- Wakes one task of one executor. A waker without queue or parker does nothing. -/
structure Waker where
  /-- What the thread of the executor sleeps on. -/
  parker : Option ParkerRef := none
  /-- The task. -/
  id : TaskId := 0
  /-- The ready queue of the executor. -/
  queue : Option QueueRef := none
  deriving DecidableEq, Repr, Inhabited

/-- The waker that wakes nothing. -/
def Waker.idle : Waker := {}

/-- Whether two wakers wake the same task of the same executor on the same thread. -/
def Waker.willWake (w other : Waker) : Bool := w = other

/-- All ready queues and parkers. -/
structure Signals where
  /-- The ready queues, by number. -/
  queues : List ReadyQueue := []
  /-- The parkers, by number. -/
  parkers : List Parker := []
  /-- The parker of each thread that has needed one. -/
  ofThread : Table ThreadId ParkerRef := .empty
  deriving Inhabited

namespace Signals

/-! ### Ready queues -/

/-- A new, empty ready queue. -/
def newQueue (s : Signals) : QueueRef × Signals :=
  (⟨s.queues.length⟩, { s with queues := s.queues ++ [{}] })

/-- The ready queue that a reference leads to. -/
def queue (s : Signals) (r : QueueRef) : ReadyQueue := s.queues.getD r.index {}

/-- Replaces a ready queue. -/
def setQueue (s : Signals) (r : QueueRef) (q : ReadyQueue) : Signals :=
  { s with queues := s.queues.set r.index q }

/-- Pushes an id onto a ready queue. -/
def push (s : Signals) (r : QueueRef) (id : TaskId) : Bool × Signals :=
  let (accepted, q) := (s.queue r).push id
  (accepted, s.setQueue r q)

/-- Pops an id off a ready queue. -/
def pop? (s : Signals) (r : QueueRef) : Option (TaskId × Signals) :=
  (s.queue r).pop?.map fun (id, q) ↦ (id, s.setQueue r q)

/-! ### Parkers -/

/-- A new parker, made by a thread. -/
def newParker (s : Signals) (owner : ThreadId) : ParkerRef × Signals :=
  (⟨s.parkers.length⟩, { s with parkers := s.parkers ++ [{ owner }] })

/-- The parker that a reference leads to. -/
def parker (s : Signals) (r : ParkerRef) : Parker := s.parkers.getD r.index default

/-- Replaces a parker. -/
def setParker (s : Signals) (r : ParkerRef) (p : Parker) : Signals :=
  { s with parkers := s.parkers.set r.index p }

/-- The parker of a thread, made when it is first needed. -/
def current (s : Signals) (thread : ThreadId) : ParkerRef × Signals :=
  match s.ofThread.get? thread with
  | some r => (r, s)
  | none =>
    let (r, s) := s.newParker thread
    (r, { s with ofThread := s.ofThread.insert thread r })

/-- Notifies the thread of a parker. -/
def unpark (s : Signals) (r : ParkerRef) : Signals := s.setParker r (s.parker r).unpark

/-- Takes the token of a parker; nothing if there is none. -/
def park? (s : Signals) (r : ParkerRef) : Option Signals :=
  (s.parker r).park?.map fun p ↦ s.setParker r p

/-- Waits on a parker for a limited time in which nobody notifies. -/
def parkFor (s : Signals) (r : ParkerRef) : Bool × Signals :=
  let (token, p) := (s.parker r).parkFor
  (token, s.setParker r p)

/-! ### Waking -/

/-- **Wakes**: pushes the id, then notifies the thread. -/
def wake (s : Signals) (w : Waker) : Signals :=
  match w.queue, w.parker with
  | some q, some p => (s.push q w.id).2.unpark p
  | _, _ => s

/-- Wakes one after the other. -/
def wakeAll (s : Signals) (ws : List Waker) : Signals := ws.foldl wake s

/-! ### What the operations do to the views -/

theorem queue_setQueue (s : Signals) (r r' : QueueRef) (q : ReadyQueue)
    (h : r.index < s.queues.length) :
    (s.setQueue r q).queue r' = if r = r' then q else s.queue r' := by
  obtain ⟨i⟩ := r
  obtain ⟨j⟩ := r'
  by_cases hij : i = j
  · subst hij
    simp only [queue, setQueue, if_true, List.getD_eq_getElem?_getD]
    rw [List.getElem?_set_self h]
    rfl
  · have : QueueRef.mk i ≠ QueueRef.mk j := fun e ↦ hij (QueueRef.mk.inj e)
    simp only [queue, setQueue, if_neg this, List.getD_eq_getElem?_getD,
      List.getElem?_set_ne hij]

@[simp] theorem queues_unpark (s : Signals) (r : ParkerRef) : (s.unpark r).queues = s.queues := rfl

@[simp] theorem parkers_push (s : Signals) (r : QueueRef) (id : TaskId) :
    (s.push r id).2.parkers = s.parkers := rfl

end Signals

end TaskRuntime
