import TaskRuntime.Failure
import TaskRuntime.Wake

/-!
# What tasks do

While it is being polled, a task may look at and change the world around it, wake others, notify or
delay its own thread, spawn tasks and run tasks to completion. `Act` is a finite program of such
requests with an answer at its end; whoever runs the program answers the requests.

## Parameters

* `W` is the world: all that tasks share apart from the executor.
* `B` is the type of task bodies, `V` the type of the values in which they result.
* `R` is the type of the answer.

A poll is a program whose answer tells how the poll went and what is left of the body. `Behaviour`
collects what an executor has to know about bodies: how to poll one and how to destroy one.
-/

namespace TaskRuntime

/-- How far a future has come. -/
inductive Progress (A : Type)
  /-- Not finished: a waker has been left where it will be used. -/
  | pending
  /-- Finished, with a value. -/
  | ready (a : A)
  deriving DecidableEq, Repr, Inhabited

/-- How a poll went. -/
abbrev Polled (A : Type) := Except Failure (Progress A)

/-- What an executor tells about itself. -/
structure Figures where
  /-- How many tasks are in the table. -/
  tasks : Nat
  /-- How many ids are queued. -/
  ready : Nat
  /-- How many tasks have been put into the table. -/
  spawned : Nat
  /-- How many polls the scheduling loop has made. -/
  polls : Nat
  /-- How often the thread has parked. -/
  parks : Nat
  /-- How many queued ids had no task in the table. -/
  stale : Nat
  deriving DecidableEq, Repr, Inhabited

/-- A finite program of requests. -/
inductive Act (W B V R : Type)
  /-- The end, with an answer. -/
  | done (r : R)
  /-- Looks at the world. -/
  | look (k : W → Act W B V R)
  /-- Replaces the world. -/
  | put (w : W) (k : Act W B V R)
  /-- Wakes through a waker. -/
  | wake (w : Waker) (k : Act W B V R)
  /-- Notifies the thread that runs the program. -/
  | unpark (k : Act W B V R)
  /-- Lets the thread sleep for a limited time, and tells whether it was notified. -/
  | parkFor (k : Bool → Act W B V R)
  /-- Spawns a task on the executor of the thread. -/
  | spawn (b : B) (k : Except Failure TaskId → Act W B V R)
  /-- Runs a task to completion on the executor of the thread. -/
  | blockOn (b : B) (k : Except Failure (Option V) → Act W B V R)
  /-- Asks the executor of the thread about itself. -/
  | figures (k : Figures → Act W B V R)

namespace Act

variable {W B V R S T : Type}

/-- One program after the other. -/
def bind : Act W B V R → (R → Act W B V S) → Act W B V S
  | done r, f => f r
  | look k, f => look fun w ↦ (k w).bind f
  | put w k, f => put w (k.bind f)
  | wake w k, f => wake w (k.bind f)
  | unpark k, f => unpark (k.bind f)
  | parkFor k, f => parkFor fun b ↦ (k b).bind f
  | spawn b k, f => spawn b fun r ↦ (k r).bind f
  | blockOn b k, f => blockOn b fun r ↦ (k r).bind f
  | figures k, f => figures fun x ↦ (k x).bind f

instance : Monad (Act W B V) where
  pure := done
  bind := bind

/-- A function of the world as a program. -/
def lift (f : W → R × W) : Act W B V R := look fun w ↦ put (f w).2 (done (f w).1)

/-- A change of the world as a program. -/
def change (f : W → W) : Act W B V Unit := look fun w ↦ put (f w) (done ())

/-- Wakes through wakers, one after the other. -/
def wakeAll : List Waker → Act W B V Unit
  | [] => done ()
  | w :: rest => wake w (wakeAll rest)

/-! ### Laws of sequencing -/

@[simp] theorem done_bind (r : R) (f : R → Act W B V S) : (done r : Act W B V R).bind f = f r := rfl

@[simp] theorem bind_done (p : Act W B V R) : p.bind done = p := by
  induction p with
  | done r => rfl
  | look k ih => simp [bind, ih]
  | put w k ih => simp [bind, ih]
  | wake w k ih => simp [bind, ih]
  | unpark k ih => simp [bind, ih]
  | parkFor k ih => exact congrArg parkFor (funext ih)
  | spawn b k ih => simp [bind, ih]
  | blockOn b k ih => simp [bind, ih]
  | figures k ih => simp [bind, ih]

theorem bind_assoc (p : Act W B V R) (f : R → Act W B V S) (g : S → Act W B V T) :
    (p.bind f).bind g = p.bind fun r ↦ (f r).bind g := by
  induction p with
  | done r => rfl
  | look k ih => simp [bind, ih]
  | put w k ih => simp [bind, ih]
  | wake w k ih => simp [bind, ih]
  | unpark k ih => simp [bind, ih]
  | parkFor k ih => exact congrArg parkFor (funext ih)
  | spawn b k ih => simp [bind, ih]
  | blockOn b k ih => simp [bind, ih]
  | figures k ih => simp [bind, ih]

end Act

/-- What an executor has to know about task bodies. -/
structure Behaviour (W B V : Type) where
  /-- Polls a body with a waker; the answer holds what is left of the body. -/
  poll : B → Waker → Act W B V (Polled V × B)
  /-- What destroying a body does to the world. -/
  drop : B → W → W

end TaskRuntime
