import TaskRuntime.Task.Behaviour

/-!
# Threads

The threads of a program, the executors on them, and at most one runtime: a started reactor that all
threads share.

## Executors and threads

An executor object owns an executor core, or nothing once another object has been made from it. A
thread has a current core as long as the object that owns it lives, and refuses to make a second
one; spawning without an object goes to the current core. Objects go by name. `Threads.construct`,
`Threads.move` and `Threads.destroy` are the ways in which objects come, change and go.

## By hand

A task may also be polled without a scheduling loop: `Act.runAlone` runs a program on a thread that
may or may not have an executor.
-/

namespace TaskRuntime

/-- The number of an executor core. -/
abbrev CoreId := Nat

/-- The threads of a program. -/
structure Threads (K : Type) where
  /-- The world of tasks, as the running thread sees it. -/
  world : World K
  /-- Ready queues and parkers. -/
  signals : Signals := {}
  /-- The executor cores. -/
  cores : Table CoreId (Executor Task) := .empty
  /-- What the executor objects own, by name. -/
  objects : Table Bytes (Option CoreId) := .empty
  /-- The current cores, by thread. -/
  current : Table ThreadId CoreId := .empty
  /-- The number of the next core. -/
  nextCore : CoreId := 0
  /-- The running thread. -/
  thread : ThreadId := 0
  /-- The number of the next thread. -/
  nextThread : ThreadId := 1
  /-- Whether the runtime has been initialized. -/
  initialized : Bool := false

namespace Threads

variable {K : Type}

/-! ### Cores -/

/-- What a failure to spawn without an executor says. -/
def noExecutor : Failure :=
  .misuse .notInitialized (some (Bytes.utf8 "spawn called on a thread without an executor"))

/-- What a failure to make a second executor says. -/
def secondExecutor : Failure :=
  .misuse .alreadyRunning (some (Bytes.utf8 "an executor already exists on this thread"))

/-- The core that an object owns. -/
def coreOf (p : Threads K) (name : Bytes) : Option CoreId := (p.objects.get? name).bind id

/-- The current core of the running thread. -/
def currentCore (p : Threads K) : Option CoreId := p.current.get? p.thread

/-- The site of a core. -/
def site? (p : Threads K) (core : CoreId) : Option (Site (World K) Task) :=
  (p.cores.get? core).map fun executor ↦ ⟨executor, p.signals, p.world⟩

/-- Puts a site back. -/
def putSite (p : Threads K) (core : CoreId) (s : Site (World K) Task) : Threads K :=
  { p with world := s.world, signals := s.signals, cores := p.cores.insert core s.executor }

/-- What the executor of an object tells about itself. -/
def figures (p : Threads K) (name : Bytes) : Option Figures := do
  let core ← p.coreOf name
  let site ← p.site? core
  return site.figures

variable [Kernel K]

/-- Destroys the tasks of a core, and the core. -/
def discard (p : Threads K) (core : CoreId) : Threads K :=
  match p.cores.get? core with
  | none => p
  | some executor =>
    { p with
      world := executor.tasks.values.foldl (fun w t ↦ t.drop w) p.world
      cores := p.cores.erase core }

/-- **Makes an executor** on the running thread, unless it has one. -/
def construct (p : Threads K) (name : Bytes) : Except Failure Unit × Threads K :=
  match p.currentCore with
  | some _ => (.error secondExecutor, p)
  | none =>
    let (parker, signals) := p.signals.current p.thread
    let (queue, signals) := signals.newQueue
    let (logParking, world) := p.world.onEnvironment (·.setting Config.logParking)
    (.ok (),
      { p with
        world, signals
        cores := p.cores.insert p.nextCore { parker, queue, logParking }
        objects := p.objects.insert name (some p.nextCore)
        current := p.current.insert p.thread p.nextCore
        nextCore := p.nextCore + 1 })

/-- Makes an executor object from another one, which is left without a core. -/
def move (p : Threads K) (source target : Bytes) : Threads K :=
  let core := p.coreOf source
  { p with objects := (p.objects.insert source none).insert target core }

/-- Destroys an executor object: its core, its tasks, and the thread's reference to the core. -/
def destroy (p : Threads K) (name : Bytes) : Threads K :=
  let q := { p with objects := p.objects.erase name }
  match p.coreOf name with
  | none => q
  | some core =>
    let left := if q.currentCore = some core then q.current.erase q.thread else q.current
    { q with current := left }.discard core

/-! ### Spawning and running -/

/-- Spawns a task on a core. -/
def spawnOn (p : Threads K) (core : CoreId) (t : Task) : Except Failure TaskId × Threads K :=
  match p.site? core with
  | none => (.error noExecutor, { p with world := t.drop p.world })
  | some s =>
    let (id, _, s) := s.spawn Task.behaviour t
    (.ok id, p.putSite core s)

/-- Spawns a task on the executor of an object. -/
def spawn (p : Threads K) (name : Bytes) (t : Task) : Except Failure TaskId × Threads K :=
  match p.coreOf name with
  | none => (.error noExecutor, { p with world := t.drop p.world })
  | some core => p.spawnOn core t

/-- **Spawns a task on the current core** of the running thread. Without one, the task is destroyed.
-/
def spawnFree (p : Threads K) (t : Task) : Except Failure TaskId × Threads K :=
  match p.currentCore with
  | none => (.error noExecutor, { p with world := t.drop p.world })
  | some core => p.spawnOn core t

/-- How many steps a run may take. -/
def stepLimit : Nat := 1000000000

/-- Runs a task to completion on the executor of an object, in given surroundings. -/
def blockOnIn (p : Threads K) (σ : Surroundings (World K) Task Value) (name : Bytes) (t : Task) :
    Except Failure (Option Value) × Threads K :=
  match (p.coreOf name).bind fun core ↦ (p.site? core).map fun s ↦ (core, s) with
  | none => (.error noExecutor, { p with world := t.drop p.world })
  | some (core, s) =>
    let (result, s) := s.blockOn Task.behaviour σ stepLimit t
    (result, p.putSite core s)

/-- Runs a task to completion on the executor of an object. -/
def blockOn (p : Threads K) (name : Bytes) (t : Task) :
    Except Failure (Option Value) × Threads K :=
  p.blockOnIn World.surroundings name t

/-! ### Threads -/

/-- Goes over to a new thread. -/
def enterThread (p : Threads K) (tag : Bytes) : Threads K :=
  { p with
    thread := p.nextThread, nextThread := p.nextThread + 1
    world := { p.world with tag := tag } }

/-- Goes back to an older thread. -/
def returnTo (p : Threads K) (thread : ThreadId) (tag : Bytes) : Threads K :=
  { p with thread, world := { p.world with tag := tag } }

/-- Changes signals. -/
def onSignals {A : Type} (p : Threads K) (f : Signals → A × Signals) : A × Threads K :=
  let (a, signals) := f p.signals
  (a, { p with signals })

/-- Notifies the running thread. -/
def unpark (p : Threads K) : Threads K :=
  let (r, signals) := p.signals.current p.thread
  { p with signals := signals.unpark r }

/-- Lets the running thread sleep for a limited time. -/
def parkFor (p : Threads K) : Bool × Threads K :=
  p.onSignals fun s ↦
    let (r, s) := s.current p.thread
    s.parkFor r

/-! ### The runtime -/

/-- What a failure to initialize the runtime twice says. -/
def secondRuntime : Failure :=
  .misuse .alreadyRunning (some (Bytes.utf8 "runtime already initialized"))

/-- Starts the reactor of the runtime, unless there is one. -/
def startRuntime (p : Threads K) : Except Failure Unit × Threads K :=
  if p.initialized then (.error secondRuntime, p)
  else
    let (capacity, e) := p.world.toEnvironment.setting Config.eventCapacity
    match Reactor.create capacity e.toSystem with
    | (.error x, s) => (.error x, { p with world := { p.world with toSystem := s } })
    | (.ok reactor, s) =>
      match reactor.start s with
      | (.error x, reactor, s) =>
        (.error x, { p with world := { p.world with toSystem := (reactor.destroy s).2 } })
      | (.ok (), reactor, s) =>
        (.ok (), { p with world := { p.world with toSystem := s, reactor }, initialized := true })

/-- **Initializes the runtime**: makes an executor and starts the reactor. Without a reactor, the
executor goes again. -/
def init (p : Threads K) (name : Bytes) : Except Failure Unit × Threads K :=
  match p.construct name with
  | (.error x, p) => (.error x, p)
  | (.ok (), p) =>
    match p.startRuntime with
    | (.error x, p) => (.error x, p.destroy name)
    | (.ok (), p) => (.ok (), p)

/-- The reactor of the runtime. -/
def runtimeReactor (p : Threads K) : Except Failure Reactor :=
  if p.initialized then .ok p.world.reactor else .error (.misuse .notInitialized none)

end Threads

/-! ### Polls by hand -/

/-- Runs a program on the running thread, outside of any scheduling loop. Running a task to
completion is refused there. -/
def Act.runAlone {K R : Type} [Kernel K] : TaskAct K R → Threads K → R × Threads K
  | .done r, p => (r, p)
  | .look k, p => (k p.world).runAlone p
  | .put w k, p => k.runAlone { p with world := w }
  | .wake w k, p => k.runAlone { p with signals := p.signals.wake w }
  | .unpark k, p => k.runAlone p.unpark
  | .parkFor k, p =>
    let (token, p) := p.parkFor
    (k token).runAlone p
  | .spawn t k, p =>
    let (result, p) := p.spawnFree t
    (k result).runAlone p
  | .blockOn t k, p =>
    (k (.error (.misuse .notInitialized none))).runAlone { p with world := t.drop p.world }
  | .figures k, p =>
    (k ((p.currentCore.bind p.site?).elim ⟨0, 0, 0, 0, 0, 0⟩ Site.figures)).runAlone p

end TaskRuntime
