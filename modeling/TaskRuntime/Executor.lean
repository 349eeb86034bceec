import TaskRuntime.Executor.Act

/-!
# Executors

An executor keeps the tasks of one thread: a table of bodies by id, the ready queue of the ids that
wait to be polled, and the parker of the thread, on which it sleeps when nothing is ready.

## Ids

`Executor.allocate` is the only source of ids; they count up from `Executor.firstId`, and wrap
around after `2 ^ 64` of them. Inserting under an id that is in the table destroys the new body and
keeps the old one, which the freshness of ids rules out in practice.

## Figures

An executor counts the tasks that it has put into its table, the polls that its loop has made, the
parkings and the ids that were stale. They are numbers without a bound here: no executor is taken to
live so long that a 64-bit counter would wrap around.

## Sites

Executor, signals and world together are a `Site`. `Act.run` runs a program on a site as far as it
gets without a nested run to completion.
-/

namespace TaskRuntime

/-- The executor of a thread. -/
structure Executor (B : Type) where
  /-- The tasks that are not being polled. -/
  tasks : Table TaskId B := .empty
  /-- The next id. -/
  nextId : TaskId := 1
  /-- What the thread sleeps on. -/
  parker : ParkerRef
  /-- The ids that wait to be polled. -/
  queue : QueueRef
  /-- How many tasks have been put into the table. -/
  spawned : Nat := 0
  /-- How many polls the scheduling loop has made. -/
  polls : Nat := 0
  /-- How often the thread has parked. -/
  parks : Nat := 0
  /-- How many queued ids had no task in the table. -/
  stale : Nat := 0
  /-- Whether parking is announced. -/
  logParking : Bool := true

namespace Executor

variable {B : Type}

/-- The first id of an executor. -/
def firstId : TaskId := 1

/-- Takes the next id. -/
def allocate (x : Executor B) : TaskId × Executor B := (x.nextId, { x with nextId := x.nextId + 1 })

/-- The waker of a task. -/
def waker (x : Executor B) (id : TaskId) : Waker := ⟨some x.parker, id, some x.queue⟩

end Executor

/-- An executor with all that its tasks can reach. -/
structure Site (W B : Type) where
  /-- The executor. -/
  executor : Executor B
  /-- Ready queues and parkers. -/
  signals : Signals
  /-- The world. -/
  world : W

/-- Something that happens on a site. -/
inductive Note (V : Type)
  /-- An id has been given out. -/
  | issued (id : TaskId)
  /-- A task has been put into the table for the first time. -/
  | entered (id : TaskId)
  /-- Somebody has woken through a waker. -/
  | woke (w : Waker)
  /-- A poll begins, in place or by the scheduling loop. -/
  | began (id : TaskId) (inPlace : Bool)
  /-- A poll ends. -/
  | ended (id : TaskId) (inPlace : Bool) (result : Polled V)
  /-- A queued id had no task in the table. -/
  | stale (id : TaskId)
  /-- The thread parks. -/
  | parked
  /-- A body has been destroyed. -/
  | destroyed (id : TaskId)
  /-- A run to completion has come to its end. -/
  | returned (id : TaskId) (result : Except Failure (Option V))
  deriving Repr

namespace Site

variable {W B V : Type}

/-- Destroys a body. -/
def destroy (s : Site W B) (β : Behaviour W B V) (id : TaskId) (b : B) : List (Note V) × Site W B :=
  ([.destroyed id], { s with world := β.drop b s.world })

/-- Puts a body into the table; under an id that is taken, the body is destroyed instead. -/
def insert (s : Site W B) (β : Behaviour W B V) (id : TaskId) (b : B) : List (Note V) × Site W B :=
  if s.executor.tasks.contains id then s.destroy β id b
  else ([], { s with executor := { s.executor with tasks := s.executor.tasks.insert id b } })

/-- Puts a new task into the table and queues its id. -/
def enqueue (s : Site W B) (β : Behaviour W B V) (id : TaskId) (b : B) : List (Note V) × Site W B :=
  let (notes, s) := s.insert β id b
  (.entered id :: notes,
    { s with
      executor := { s.executor with spawned := s.executor.spawned + 1 }
      signals := (s.signals.push s.executor.queue id).2 })

/-- **Spawns a task**: gives it an id, and queues it for its first poll. -/
def spawn (s : Site W B) (β : Behaviour W B V) (b : B) : TaskId × List (Note V) × Site W B :=
  let (id, executor) := s.executor.allocate
  let (notes, s) := { s with executor }.enqueue β id b
  (id, .issued id :: notes, s)

/-- What the executor tells about itself. -/
def figures (s : Site W B) : Figures where
  tasks := s.executor.tasks.size
  ready := (s.signals.queue s.executor.queue).size
  spawned := s.executor.spawned
  polls := s.executor.polls
  parks := s.executor.parks
  stale := s.executor.stale

end Site

/-- How far a program gets by itself. -/
inductive Stop (W B V R : Type)
  /-- To its end. -/
  | finished (r : R)
  /-- To a body that has to be run to completion first. -/
  | calls (b : B) (k : Except Failure (Option V) → Act W B V R)

/-- Runs a program on a site until it ends or needs a body to be run to completion. -/
def Act.run {W B V R : Type} (β : Behaviour W B V) :
    Act W B V R → Site W B → Stop W B V R × List (Note V) × Site W B
  | .done r, s => (.finished r, [], s)
  | .look k, s => (k s.world).run β s
  | .put w k, s => k.run β { s with world := w }
  | .wake w k, s =>
    let (stop, notes, s) := k.run β { s with signals := s.signals.wake w }
    (stop, .woke w :: notes, s)
  | .unpark k, s => k.run β { s with signals := s.signals.unpark s.executor.parker }
  | .parkFor k, s =>
    let (token, signals) := s.signals.parkFor s.executor.parker
    (k token).run β { s with signals }
  | .spawn b k, s =>
    let (id, entered, s) := s.spawn β b
    let (stop, notes, s) := (k (.ok id)).run β s
    (stop, entered ++ notes, s)
  | .blockOn b k, s => (.calls b k, [], s)
  | .figures k, s => (k s.figures).run β s

end TaskRuntime
