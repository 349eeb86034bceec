import TaskRuntime.Bytes
import TaskRuntime.Wake

/-!
# Waking sessions

Ready queues, parkers and wakers by name, and the operations on them. A name that is new stands for
a new empty queue, for a new parker, or for the waker that wakes nothing. The parker of the running
thread has no name.
-/

namespace TaskRuntime

namespace Wake

/-- Ready queues, parkers and wakers by name. -/
structure Session where
  /-- All queues and parkers. -/
  signals : Signals := {}
  /-- The ready queues by name. -/
  queues : Table Bytes QueueRef := .empty
  /-- The parkers by name. -/
  parkers : Table Bytes ParkerRef := .empty
  /-- The wakers by name. -/
  wakers : Table Bytes Waker := .empty
  /-- The running thread. -/
  thread : ThreadId := 0
  deriving Inhabited

namespace Session

/-- The queue of a name. -/
def queue (s : Session) (name : Bytes) : QueueRef × Session :=
  match s.queues.get? name with
  | some r => (r, s)
  | none =>
    let (r, signals) := s.signals.newQueue
    (r, { s with signals, queues := s.queues.insert name r })

/-- The parker of a name, or of the running thread. -/
def parker (s : Session) : Option Bytes → ParkerRef × Session
  | none =>
    let (r, signals) := s.signals.current s.thread
    (r, { s with signals })
  | some name =>
    match s.parkers.get? name with
    | some r => (r, s)
    | none =>
      let (r, signals) := s.signals.newParker s.thread
      (r, { s with signals, parkers := s.parkers.insert name r })

/-- The waker of a name. -/
def waker (s : Session) (name : Bytes) : Waker := s.wakers.getD name .idle

/-- A waker for a task, with the queue of a name and the parker of the running thread. -/
def taskWaker (s : Session) (id : TaskId) (queue : Bytes) : Waker × Session :=
  let (q, s) := s.queue queue
  let (p, s) := s.parker none
  (⟨some p, id, some q⟩, s)

/-- Wakes through wakers, one after the other. -/
def wakeAll (s : Session) (ws : List Waker) : Session := { s with signals := s.signals.wakeAll ws }

/-- Sleeps on a parker until a notification, which comes from another thread in any case: during the
sleep if there is no token, and after it otherwise. -/
def park (s : Session) (r : ParkerRef) : Session :=
  match s.signals.park? r with
  | some signals => { s with signals := signals.unpark r }
  | none => { s with signals := ((s.signals.unpark r).park? r).getD s.signals }

end Session

/-- An operation on queues, parkers and wakers. -/
inductive Op
  /-- Pushes an id. -/
  | push (queue : Bytes) (id : TaskId)
  /-- Pops an id. -/
  | pop (queue : Bytes)
  /-- Asks for the size of a queue. -/
  | size (queue : Bytes)
  /-- Pops all ids. -/
  | drain (queue : Bytes)
  /-- Lets some threads push the same ids. -/
  | pushThreads (queue : Bytes) (threads : Nat) (ids : List TaskId)
  /-- Notifies a parker. -/
  | unpark (parker : Option Bytes)
  /-- Sleeps for a limited time. -/
  | parkFor (parker : Option Bytes)
  /-- Sleeps until a notification. -/
  | park (parker : Option Bytes)
  /-- Asks about the parkers of two threads. -/
  | identity
  /-- Makes a waker. A queue or parker may be missing; a missing parker is written as the outer
  `none`. -/
  | make (waker : Bytes) (id : TaskId) (queue : Option Bytes) (parker : Option (Option Bytes))
  /-- Copies a waker. -/
  | copy (source target : Bytes)
  /-- Wakes. -/
  | wake (waker : Bytes)
  /-- Asks for the task of a waker. -/
  | taskId (waker : Bytes)
  /-- Asks whether two wakers wake the same task. -/
  | willWake (waker other : Bytes)

/-- What an operation answers. -/
inductive Answer
  /-- Nothing. -/
  | done
  /-- Whether the id was accepted. -/
  | pushed (accepted : Bool)
  /-- An id, or nothing. -/
  | id (id : Option TaskId)
  /-- A size. -/
  | size (n : Nat)
  /-- Ids in the order in which they come. -/
  | ids (ids : List TaskId)
  /-- How many ids were accepted. -/
  | accepted (n : Nat)
  /-- Whether there was a token. -/
  | token (b : Bool)
  /-- The sleep has ended. -/
  | returned
  /-- Whether a thread keeps its parker, whether another thread has the same one, and whether each
  parker belongs to its thread. -/
  | identity (again other mine others : Bool)
  /-- Whether two wakers wake the same task. -/
  | willWake (b : Bool)

/-- Carries an operation out. -/
def Op.run (s : Session) : Op → Answer × Session
  | push queue id =>
    let (q, s) := s.queue queue
    let (accepted, signals) := s.signals.push q id
    (.pushed accepted, { s with signals })
  | pop queue =>
    let (q, s) := s.queue queue
    match s.signals.pop? q with
    | none => (.id none, s)
    | some (id, signals) => (.id (some id), { s with signals })
  | size queue =>
    let (q, s) := s.queue queue
    (.size (s.signals.queue q).size, s)
  | drain queue =>
    let (q, s) := s.queue queue
    let (ids, rest) := (s.signals.queue q).drain
    (.ids ids, { s with signals := s.signals.setQueue q rest })
  | pushThreads queue threads ids =>
    let (q, s) := s.queue queue
    let (count, after) := (s.signals.queue q).pushAll (List.replicate threads ids).flatten
    (.accepted count, { s with signals := s.signals.setQueue q after })
  | unpark parker =>
    let (p, s) := s.parker parker
    (.done, { s with signals := s.signals.unpark p })
  | parkFor parker =>
    let (p, s) := s.parker parker
    let (token, signals) := s.signals.parkFor p
    (.token token, { s with signals })
  | park parker =>
    let (p, s) := s.parker parker
    (.returned, s.park p)
  | identity =>
    let other := s.thread + 1
    let (mine, x) := s.signals.current s.thread
    let (again, x) := x.current s.thread
    let (others, x) := x.current other
    (.identity (again = mine) (others = mine) ((x.parker mine).owner = s.thread)
      ((x.parker others).owner = other), { s with signals := x })
  | make waker id queue parker =>
    let (q, s) := match queue with
      | none => (none, s)
      | some name => (s.queue name).map some (·)
    let (p, s) := match parker with
      | none => (none, s)
      | some name => (s.parker name).map some (·)
    (.done, { s with wakers := s.wakers.insert waker ⟨p, id, q⟩ })
  | copy source target => (.done, { s with wakers := s.wakers.insert target (s.waker source) })
  | wake waker => (.done, s.wakeAll [s.waker waker])
  | taskId waker => (.id (some (s.waker waker).id), s)
  | willWake waker other => (.willWake ((s.waker waker).willWake (s.waker other)), s)

end Wake

end TaskRuntime
