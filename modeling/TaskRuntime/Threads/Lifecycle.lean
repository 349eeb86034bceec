import TaskRuntime.Task.Serving
import TaskRuntime.Threads.Session

/-!
# The life of the runtime

Operations on the runtime and on the executors of threads, as a program on a host may carry them
out. Each thread may have two executor objects, one from initializing the runtime and one made by
itself; since a thread has one executor at most, at most one of the two owns a core at a time.
-/

namespace TaskRuntime

namespace Threads

/-- An operation on the runtime. -/
inductive LifeOp
  /-- Asks whether the runtime has been initialized. -/
  | isInitialized
  /-- Asks about the reactor. -/
  | reactor
  /-- Issues a token. -/
  | issue
  /-- Sets paths of the configuration. -/
  | configure (settings : List (List Bytes × Config.Value))
  /-- Sets the tag of the thread. -/
  | setTag (tag : Bytes)
  /-- Initializes the runtime, and keeps the executor. -/
  | init
  /-- Destroys the executor that came with the runtime. -/
  | destroyInit
  /-- Makes an executor. -/
  | construct
  /-- Destroys the executor that was made. -/
  | destroy
  /-- Spawns a task on the executor of the thread, whatever it is. -/
  | spawnFree (t : Task)
  /-- Runs a task to completion. -/
  | run (t : Task)
  /-- Reads a pipe that holds some bytes, and no more will come. -/
  | read (content : Bytes)
  /-- Carries an operation out on a new thread, whose executors are destroyed at its end. -/
  | thread (op : LifeOp)
  deriving Inhabited

/-- What an operation on the runtime answers. -/
inductive LifeAnswer
  /-- Nothing. -/
  | done
  /-- A failure. -/
  | failed (e : Failure)
  /-- Yes or no. -/
  | truth (b : Bool)
  /-- Whether the loop of the reactor is to go on, and how many wakers are stored. -/
  | reactor (running : Bool) (wakers : Nat)
  /-- A token. -/
  | token (t : Token)
  /-- The id of a task. -/
  | id (id : TaskId)
  /-- The value of a task, and how many tasks are left. -/
  | value (v : Option Value) (tasks : Nat)
  /-- What has been read, and how many wakers are stored. -/
  | content (v : Option Value) (wakers : Nat)

/-- The answer to something that may fail. -/
def LifeAnswer.ofResult {A : Type} (f : A → LifeAnswer) : Except Failure A → LifeAnswer
  | .ok a => f a
  | .error e => failed e

variable {K : Type} [Kernel K]

/-- The object of the executor on which the running thread runs tasks to completion: the one that
came with the runtime, or else the one that the thread has made. -/
def runningName (p : Threads K) : Bytes :=
  if (p.coreOf p.ownName).isSome then p.ownName else p.spareName

/-- Runs a task to completion on the running thread. -/
def serve (p : Threads K) (t : Task) : Except Failure (Option Value) × Threads K :=
  p.blockOnIn World.serving p.runningName t

/-- A future that reads a new pipe, which holds some bytes and has no writer. -/
def readerOf (p : Threads Host) (content : Bytes) : ReadToEnd × Threads Host :=
  let e := p.world.toEnvironment
  let (made, kernel) := e.kernel.openPipe
  let (owned, kernel) : Owned × Host := match made with
    | .error _ => (.nothing, kernel)
    | .ok (r, w) => (⟨r⟩, ((kernel.write w content).2.close w).2)
  let (f, e) := ReadToEnd.create owned 0 { e with kernel }
  (f, { p with world := { p.world with toEnvironment := e } })

/-- Goes on with the reactor of the runtime, or fails. -/
def withRuntime (p : Threads K) (f : Reactor → LifeAnswer × Threads K) : LifeAnswer × Threads K :=
  match p.runtimeReactor with
  | .error e => (.failed e, p)
  | .ok r => f r

/-- Carries an operation out. -/
def LifeOp.perform (p : Threads Host) : LifeOp → LifeAnswer × Threads Host
  | isInitialized => (.truth p.initialized, p)
  | reactor => p.withRuntime fun r ↦ (.reactor r.running r.wakers.size, p)
  | issue => p.withRuntime fun _ ↦
    let (t, world) := p.world.onEnvironment (·.issueToken)
    (.token t, { p with world })
  | configure settings =>
    (.done, { p with world := { p.world with config := p.world.config.setAll settings } })
  | setTag tag => (.done, { p with world := { p.world with tag := tag } })
  | init =>
    let (r, p) := p.init p.ownName
    (.ofResult (fun () ↦ .done) r, p)
  | destroyInit => (.done, Threads.destroy p p.ownName)
  | construct =>
    let (r, p) := Threads.construct p p.spareName
    (.ofResult (fun () ↦ .done) r, p)
  | destroy => (.done, Threads.destroy p p.spareName)
  | spawnFree t =>
    let (r, p) := Threads.spawnFree p t
    (.ofResult .id r, p)
  | run t =>
    let (r, p) := p.serve t
    let left := (p.figures p.runningName).elim 0 (·.tasks)
    (.ofResult (.value · left) r, p)
  | read content => p.withRuntime fun _ ↦
    let (f, p) := p.readerOf content
    let (r, p) := p.serve (.read f)
    (.ofResult (.content · p.world.reactor.wakers.size) r, p)
  | thread op =>
    let thread := p.thread
    let former := p.world.tag
    let p := p.enterThread Log.defaultTag
    let (own, spare) := (p.ownName, p.spareName)
    let (a, p) := op.perform p
    (a, ((Threads.destroy p own).destroy spare).returnTo thread former)

/-- Carries an operation out, and takes what has been logged meanwhile. -/
def LifeOp.report (p : Threads Host) (op : LifeOp) : (LifeAnswer × List Bytes) × Threads Host :=
  let (a, p) := op.perform p
  let (lines, log) := p.world.log.takeHeard
  ((a, lines), { p with world := { p.world with log } })

end Threads

end TaskRuntime
