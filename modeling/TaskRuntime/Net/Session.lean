import TaskRuntime.Net.ReadToEnd
import TaskRuntime.Reactor.Session

/-!
# Reading sessions

Futures that read to the end, by name, polled by hand on one reactor, and the operations on them.
After each operation the loop of the reactor, if it runs, dispatches all that is queued.
-/

namespace TaskRuntime

namespace ReadToEnd

/-- Futures with their surroundings. -/
structure Session where
  /-- What the futures reach. -/
  environment : Environment Host
  /-- The pipes by name. -/
  pipes : Host.Pipes := .empty
  /-- The futures by name. -/
  futures : Table Bytes ReadToEnd := .empty
  /-- Queues, parkers and wakers. -/
  wakes : Wake.Session := {}

/-- What a future is to read. -/
inductive Origin
  /-- The end of a pipe to read from, which is taken out of the pipe. -/
  | reader (pipe : Bytes)
  /-- The end of a pipe to write to, which is taken out of the pipe. -/
  | writer (pipe : Bytes)
  /-- A regular file. -/
  | file (content : Bytes)
  /-- A device without content. -/
  | device
  /-- A descriptor by its number. -/
  | number (d : Descriptor)

/-- An operation on futures. -/
inductive Op
  /-- Makes a future. -/
  | create (name : Bytes) (origin : Origin) (chunk : Nat)
  /-- Polls a future, with the waker of a task or with one that wakes nothing. -/
  | poll (name : Bytes) (task : Option (TaskId × Bytes))
  /-- Asks about a future. -/
  | facts (name : Bytes)
  /-- Makes a future from another one. -/
  | move (source target : Bytes)
  /-- Destroys a future. -/
  | drop (name : Bytes)
  /-- Closes the descriptor of a future behind its back, and destroys the future. -/
  | steal (name : Bytes)
  /-- An operation on pipes. -/
  | pipes (op : Host.PipeOp)
  /-- An operation on queues and wakers. -/
  | wakes (op : Wake.Op)
  /-- Asks how many wakers are stored. -/
  | wakers
  /-- Issues a token. -/
  | issue
  /-- Lets the loop of the reactor die. -/
  | sabotage (pipe : Bytes)

/-- What is known about a future: its token, whether it is registered, and whether a waker is
stored. -/
structure Facts where
  /-- The token. -/
  token : Token
  /-- Whether the future is registered. -/
  registered : Bool
  /-- Whether a waker is stored for its token. -/
  hasWaker : Bool

/-- What an operation answers. -/
inductive Answer
  /-- Nothing. -/
  | done
  /-- A token. -/
  | token (t : Token)
  /-- How a poll went. -/
  | polled (r : Polled Bytes) (facts : Facts)
  /-- What is known about a future. -/
  | facts (facts : Facts)
  /-- How many wakers are stored. -/
  | wakers (n : Nat)
  /-- What an operation on queues answers. -/
  | wakes (a : Wake.Answer)
  /-- Bytes that were read. -/
  | data (b : Bytes)

namespace Session

/-- A future, or an inert one. -/
def future (s : Session) (name : Bytes) : ReadToEnd := s.futures.getD name default

/-- What is known about a future. -/
def facts (s : Session) (f : ReadToEnd) : Facts :=
  ⟨f.token, f.registered, s.environment.reactor.wakers.contains f.token⟩

/-- Changes host and pipes. -/
def onPipes {A : Type} (s : Session) (f : Host → Host.Pipes → A × Host.Pipes × Host) :
    A × Session :=
  let (a, pipes, kernel) := f s.environment.kernel s.pipes
  (a, { s with pipes, environment := { s.environment with kernel } })

/-- Opens a descriptor. -/
def openWith (s : Session) (f : Host → Except Errno Descriptor × Host) : Owned × Session :=
  let (r, kernel) := f s.environment.kernel
  (⟨r.toOption.getD (-1)⟩, { s with environment := { s.environment with kernel } })

/-- Takes what a future is to read. -/
def take (s : Session) : Origin → Owned × Session
  | .reader pipe => s.onPipes fun h pipes ↦
    let (ends, pipes, h) := h.pipe pipes pipe
    (ends.reader, pipes.insert pipe { ends with reader := .nothing }, h)
  | .writer pipe => s.onPipes fun h pipes ↦
    let (ends, pipes, h) := h.pipe pipes pipe
    (ends.writer, pipes.insert pipe { ends with writer := .nothing }, h)
  | .file content => s.openWith (·.openFile content)
  | .device => s.openWith (·.openSource .other false)
  | .number d => (⟨d⟩, s)

/-- Destroys a future. -/
def destroy (s : Session) (name : Bytes) : Session :=
  match s.futures.get? name with
  | none => s
  | some f => { s with environment := f.drop s.environment, futures := s.futures.erase name }

/-- Puts a future in place of the one of its name. -/
def replace (s : Session) (name : Bytes) (f : ReadToEnd) : Session :=
  let s := s.destroy name
  { s with futures := s.futures.insert name f }

/-- The loop dispatches all that is queued. -/
def settle (s : Session) : Session :=
  let (ws, reactor, system) := s.environment.reactor.settle s.environment.toSystem
  { s with
    environment := { s.environment with toSystem := system, reactor }
    wakes := s.wakes.wakeAll ws }

/-- Destroys all futures, in order of their names. -/
def destroyAll (s : Session) : Session :=
  (s.futures.keys.mergeSort Config.Value.nameLe).foldl destroy s

/-- Whether a line was logged by another thread than the reactor's. -/
def isOwnLine (line : Bytes) : Bool := !(Bytes.utf8 "[reactor] ").isPrefixOf line

/-- Forgets what has been logged, and returns what the polling thread has logged. -/
def takeLog (s : Session) : List Bytes × Session :=
  let (lines, log) := s.environment.log.takeHeard
  (lines.filter isOwnLine, { s with environment := { s.environment with log } })

end Session

/-- An environment with a reactor, in a certain configuration; what is logged meanwhile is
forgotten. -/
def prepared (log : Log) (config : Config) (capacity : Nat) (start : Bool) : Environment Host :=
  let (made, s) := Reactor.create capacity { kernel := ({} : Host), log }
  let r := made.toOption.getD {}
  let (r, s) := if start then (r.start s).2 else (r, s)
  { s with config, reactor := r, log := s.log.takeHeard.2 }

/-- Carries an operation out. -/
def Op.perform (s : Session) : Op → Answer × Session
  | create name origin chunk =>
    let (owned, s) := s.take origin
    let (f, environment) := ReadToEnd.create owned chunk s.environment
    (.token f.token, { s with environment }.replace name f)
  | poll name task =>
    let (w, waking) := match task with
      | none => (Waker.idle, s.wakes)
      | some (id, queue) => s.wakes.taskWaker id queue
    let (r, f, environment) := (s.future name).poll Opening.none w s.environment
    let s := { s with wakes := waking, environment, futures := s.futures.insert name f }
    (.polled r (s.facts f), s)
  | facts name => (.facts (s.facts (s.future name)), s)
  | move source target =>
    let (f, left) := (s.future source).move
    (.done, { s with futures := s.futures.insert source left }.replace target f)
  | drop name => (.done, s.destroy name)
  | steal name =>
    let kernel := (s.environment.kernel.close (s.future name).owned.number).2
    (.done, { s with environment := { s.environment with kernel } }.destroy name)
  | pipes op =>
    let (data, s) := s.onPipes op.run
    (data.elim .done .data, s)
  | wakes op =>
    let (a, waking) := op.run s.wakes
    (.wakes a, { s with wakes := waking })
  | wakers => (.wakers s.environment.reactor.wakers.size, s)
  | issue =>
    let (t, environment) := s.environment.issueToken
    (.token t, { s with environment })
  | sabotage pipe =>
    let e := s.environment
    let (ws, ends, reactor, system) := e.reactor.sabotage e.toSystem s.pipes pipe
    (.done, { s with
      pipes := ends, wakes := s.wakes.wakeAll ws
      environment := { e with toSystem := system, reactor } })

/-- Carries an operation out, and lets the loop dispatch. -/
def Op.run (s : Session) (op : Op) : Answer × Session :=
  let (a, s) := op.perform s
  (a, s.settle)

end ReadToEnd

end TaskRuntime
