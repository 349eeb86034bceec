import TaskRuntime.Executor.Loop
import TaskRuntime.Future
import TaskRuntime.Task.Stage

/-!
# How tasks behave

Polling and destroying tasks, and what happens on the stage around a scheduling loop.

* `Task.poll` and `Task.drop` are the behaviour of task bodies, `Task.behaviour`.
* `World.surroundings` logs what the loop is about to do. When a parking has been logged, the next
  actions of the stage are carried out and the thread is notified; when there are none left, the run
  ends, since nothing could ever wake the thread again.
-/

namespace TaskRuntime

variable {K : Type}

/-- A program of a task. -/
abbrev TaskAct (K R : Type) := Act (World K) Task Value R

/-! ### Actions -/

namespace Action

/-- Shows something on the stage. -/
def «show» (x : Shown) : TaskAct K Unit := Act.change (·.record x)

/-- Carries an action out, for the task that a waker wakes. -/
def run (w : Waker) : Action → TaskAct K (Except Failure Unit)
  | log text => do
    «show» (.log text)
    return .ok ()
  | wake => .wake w (.done (.ok ()))
  | save slot => do
    Act.change (·.save slot w)
    return .ok ()
  | fire slot =>
    .look fun world ↦
      match world.stage.slots.get? slot with
      | none => .done (.ok ())
      | some x => .wake x (.done (.ok ()))
  | clear slot => do
    Act.change (·.clear slot)
    return .ok ()
  | unpark => .unpark (.done (.ok ()))
  | willWake slot =>
    .look fun world ↦ do
      «show» (.willWake (w.willWake (world.stage.slots.getD slot .idle)))
      return .ok ()
  | spawn t =>
    .spawn t fun
      | .error e => .done (.error e)
      | .ok id => do
        «show» (.spawned id)
        return .ok ()
  | blockOn t =>
    .blockOn t fun
      | .error e => .done (.error e)
      | .ok v => do
        «show» (.inner v)
        return .ok ()
  | figures =>
    .figures fun x ↦ do
      «show» (.figures x)
      return .ok ()

/-- Carries actions out in order, until one fails. -/
def runAll (w : Waker) : List Action → TaskAct K (Except Failure Unit)
  | [] => .done (.ok ())
  | a :: rest =>
    (a.run w).bind fun
      | .error e => .done (.error e)
      | .ok () => runAll w rest

end Action

/-! ### Scripts and continuations -/

/-- Polls a script. -/
def Script.poll (s : Script) (w : Waker) : TaskAct K (Polled Value × Script) := do
  Action.show (.poll s.name (s.polls + 1) w.id)
  match ← Action.runAll w s.entry.actions with
  | .error e => return (.error e, s.polled)
  | .ok () =>
    match s.entry.ending with
    | .pending => return (.ok .pending, s.polled)
    | .ready => return (.ok (.ready s.value), s.polled)
    | .throws e => return (.error e, s.polled)

/-- Carries a continuation out. -/
def Continuation.run (k : Continuation) (v : Value) : TaskAct K (Except Failure Value) :=
  match k with
  | .throw e => .done (.error e)
  | .sink => do
    Action.show (.sink v)
    return .ok .unit
  | .mark => do
    Action.show .mark
    return .ok .unit
  | .record name => do
    Action.show (.record name v)
    return .ok .unit
  | k => .done (.ok (k.result v))

/-! ### Tasks -/

namespace Demo

/-- Spawns requests in order, until that fails. -/
def spawnAll : List Fetch → TaskAct K (Except Failure Unit)
  | [] => .done (.ok ())
  | f :: rest =>
    .spawn (.fetch f) fun
      | .error e => .done (.error e)
      | .ok _ => spawnAll rest

end Demo

namespace Task

variable [Kernel K]

/-- Destroys a task. -/
def drop : Task → World K → World K
  | script s, w => w.record (.drop s.name)
  | guarded s _, w => w.record (.drop s.name)
  | chain first _, w => first.drop w
  | read f, w => { w with toEnvironment := f.drop w.toEnvironment }
  | get g, w => { w with toEnvironment := g.drop w.toEnvironment }
  | fetch f, w => { w with toEnvironment := f.drop w.toEnvironment }
  | ready _, w => w
  | consumed, w => w
  | fanOut _, w => w

/-- A poll of a leaf future as a program. -/
def leafPoll {S : Type} (poll : Environment K → Polled Value × S × Environment K)
    (wrap : S → Task) : TaskAct K (Polled Value × Task) :=
  Act.lift fun w ↦
    let (result, s, e) := poll w.toEnvironment
    ((result, wrap s), { w with toEnvironment := e })

/-- The value of a poll that results in bytes. -/
def textValue (r : Polled Bytes) : Polled Value :=
  r.map fun
    | .pending => .pending
    | .ready b => .ready (.text b)

/-- The value of a poll that results in nothing. -/
def unitValue (r : Polled Unit) : Polled Value :=
  r.map fun
    | .pending => .pending
    | .ready () => .ready .unit

/-- Polls the main task of the demo. -/
def pollFanOut (m : Demo.FanOut) : TaskAct K (Polled Value × Task) :=
  if m.resolved then .done (.error (.reused "AsyncMain"), fanOut m)
  else do
    Act.change fun (w : World K) ↦
      { w with toEnvironment := w.toEnvironment.note .info (Bytes.utf8 "Program starting") }
    match ← Demo.spawnAll m.fetches with
    | .error e => return (.error e, fanOut m)
    | .ok () => return (.ok (.ready .unit), fanOut { m with resolved := true })

/-- **Polls a task.** -/
def poll : Task → Waker → TaskAct K (Polled Value × Task)
  | ready (some v), _ => .done (.ok (.ready v), ready none)
  | ready none, _ => .done (.error (.reused "ReadyFuture"), ready none)
  | script s, w => (s.poll w).bind fun (r, s) ↦ .done (r, script s)
  | guarded s true, _ => .done (.error (.reused "FnFuture"), guarded s true)
  | guarded s false, w =>
    (Future.guardPoll (s.poll w)).bind fun (r, s, resolved) ↦ .done (r, guarded s resolved)
  | chain first k, w =>
    (Future.chainPoll (first.poll w) drop k.run).bind fun
      | (r, some first) => .done (r, chain first k)
      | (r, none) => .done (r, consumed)
  | consumed, _ => .done (.error (.reused "Then"), consumed)
  | read f, w =>
    leafPoll (fun e ↦
      let (r, f, e) := f.poll ReadToEnd.Opening.none w e
      (textValue r, f, e)) read
  | get g, w =>
    leafPoll (fun e ↦
      let (r, g, e) := g.poll w e
      (textValue r, g, e)) get
  | fetch f, w =>
    leafPoll (fun e ↦
      let (r, f, e) := f.poll w e
      (unitValue r, f, e)) fetch
  | fanOut m, _ => pollFanOut m

/-- **The behaviour of tasks.** -/
def behaviour : Behaviour (World K) Task Value where
  poll := poll
  drop := drop

end Task

/-! ### Around a scheduling loop -/

namespace World

/-- What is logged when a thread is about to park. -/
def parkMessage (pending : Nat) : Bytes :=
  Numeral.ofNat pending ++ Bytes.utf8 " pending tasks. Sleep until notified."

/-- What is logged when no task is left. -/
def finishedMessage : Bytes := Bytes.utf8 "All tasks are finished"

/-- Logs a message of the loop. -/
def noteDebug (w : World K) (message : Bytes) : World K :=
  { w with log := w.log.note w.tag .debug message }

/-- A parking is logged, and what the stage has in store for it happens. -/
def announce (pending : Nat) : TaskAct K (Except Failure Unit) :=
  .look fun w ↦
    .put (w.noteDebug (parkMessage pending)) <|
      if w.stage.quiet ∨ w.log.allows .debug = false then .done (.ok ())
      else
        .look fun w ↦
          match w.nextPark with
          | (none, _) => .done (.error .stalled)
          | (some actions, w) =>
            .put w <| (Action.runAll .idle actions).bind fun
              | .error e => .done (.error e)
              | .ok () => .unpark (.done (.ok ()))

/-- What another thread does while this one sleeps. -/
def asleep : TaskAct K Unit :=
  .look fun w ↦
    if w.stage.quiet then
      match w.nextPark with
      | (none, _) => .done ()
      | (some actions, w) => .put w <| (Action.runAll .idle actions).bind fun _ ↦ .done ()
    else .done ()

/-- What happens around a scheduling loop on the stage. -/
def surroundings : Surroundings (World K) Task Value where
  finished w := w.noteDebug finishedMessage
  announce := announce
  asleep := asleep

end World

end TaskRuntime
