import TaskRuntime.Threads

/-!
# Executor sessions

Each thread has one executor object of its own, and the operations of a session are those on the
object of the running thread: making, moving and destroying it, spawning on it and running tasks to
completion, and the same operations on a new thread that is waited for. Each answer comes with what
was shown and logged meanwhile, and with what the executor then tells about itself.
-/

namespace TaskRuntime

namespace Threads

/-- An operation of a session. -/
inductive Op
  /-- Makes an executor. -/
  | construct
  /-- Destroys the executor. -/
  | destroy
  /-- Moves the executor into a new object. -/
  | move
  /-- Spawns a task on the executor. -/
  | spawn (t : Task)
  /-- Spawns a task on the executor of the thread, whatever it is. -/
  | spawnFree (t : Task)
  /-- Runs a task to completion; things happen each time the thread parks. -/
  | blockOn (t : Task) (parks : List (List Action)) (quiet : Bool)
  /-- Wakes through the waker of a slot. -/
  | fire (slot : Bytes)
  /-- Notifies the thread. -/
  | unpark
  /-- Lets the thread sleep for a limited time. -/
  | parkFor
  /-- Does nothing. -/
  | idle
  /-- Carries operations out on a new thread. -/
  | thread (tag : Bytes) (ops : List Op)
  deriving Inhabited

/-- What an operation answers. -/
inductive Answer
  /-- Nothing. -/
  | done
  /-- A failure. -/
  | failed (e : Failure)
  /-- The id of a task. -/
  | id (id : TaskId)
  /-- The value of a task. -/
  | value (v : Option Value)
  /-- Whether there was a token. -/
  | token (b : Bool)
  /-- The answers of a thread, each with what was shown and logged, and with the figures of the
  executor. -/
  | thread (reports : List (Answer × List Shown × List Bytes × Option Figures))

/-- An answer with what was shown and logged, and with the figures of the executor. -/
abbrev Report := Answer × List Shown × List Bytes × Option Figures

/-- The answer to something that may fail. -/
def Answer.ofResult {A : Type} (f : A → Answer) : Except Failure A → Answer
  | .ok a => f a
  | .error e => failed e

variable {K : Type} [Kernel K]

/-- The name of the executor object of the running thread. -/
def ownName (p : Threads K) : Bytes := Numeral.ofNat p.thread

/-- A name beside that of the executor object of the running thread. -/
def spareName (p : Threads K) : Bytes := p.ownName ++ [33]

/-- Moves the executor of the running thread into a new object, which then gets the name of the old
one. -/
def remake (p : Threads K) : Threads K :=
  let p := (p.move p.ownName p.spareName).destroy p.ownName
  (p.move p.spareName p.ownName).destroy p.spareName

/-- Runs a task to completion on the executor of the running thread; things happen each time the
thread parks. -/
def blockOnStaged (p : Threads K) (t : Task) (parks : List (List Action)) (quiet : Bool) :
    Except Failure (Option Value) × Threads K :=
  let staged := { p.world with stage := { p.world.stage with parks, quiet } }
  let (r, p) := { p with world := staged }.blockOn p.ownName t
  let cleared := { p.world with stage := { p.world.stage with parks := [], quiet := false } }
  (r, { p with world := cleared })

/-- Wakes through the waker of a slot. -/
def fire (p : Threads K) (slot : Bytes) : Threads K :=
  match p.world.stage.slots.get? slot with
  | none => p
  | some w => { p with signals := p.signals.wake w }

/-- Takes what has been shown and logged. -/
def takeReport (p : Threads K) (a : Answer) : Report × Threads K :=
  let (shown, world) := p.world.takeTrace
  let (lines, log) := world.log.takeHeard
  ((a, shown, lines, p.figures p.ownName), { p with world := { world with log } })

mutual

/-- Carries an operation out. -/
def Op.perform (p : Threads K) : Op → Answer × Threads K
  | .construct =>
    let name := if (p.coreOf p.ownName).isSome then p.spareName else p.ownName
    let (r, p) := Threads.construct p name
    (.ofResult (fun () ↦ .done) r, p)
  | .destroy => (.done, Threads.destroy p p.ownName)
  | .move => (.done, p.remake)
  | .spawn t =>
    let (r, p) := Threads.spawn p p.ownName t
    (.ofResult .id r, p)
  | .spawnFree t =>
    let (r, p) := Threads.spawnFree p t
    (.ofResult .id r, p)
  | .blockOn t parks quiet =>
    let (r, p) := p.blockOnStaged t parks quiet
    (.ofResult .value r, p)
  | .fire slot => (.done, Threads.fire p slot)
  | .unpark => (.done, Threads.unpark p)
  | .parkFor =>
    let (b, p) := Threads.parkFor p
    (.token b, p)
  | .idle => (.done, p)
  | .thread tag ops =>
    let thread := p.thread
    let former := p.world.tag
    let p := p.enterThread tag
    let name := p.ownName
    let (reports, p) := Op.runAll p ops
    (.thread reports, (Threads.destroy p name).returnTo thread former)

/-- Carries operations out in order. -/
def Op.runAll (p : Threads K) : List Op → List Report × Threads K
  | [] => ([], p)
  | op :: rest =>
    let (a, p) := Op.perform p op
    let (report, p) := p.takeReport a
    let (reports, p) := Op.runAll p rest
    (report :: reports, p)

end

end Threads

end TaskRuntime
