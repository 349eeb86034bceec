import TaskRuntime.Kernel.Pipes
import TaskRuntime.Task

/-!
# The stage

Scripted tasks play on a stage: it keeps the slots in which they leave wakers, the trace of what
they show, and what is going to happen when the thread parks. Environment and stage together are the
world of tasks.
-/

namespace TaskRuntime

/-- Something shown on the stage. -/
inductive Shown
  /-- A script is polled for the given time, with the waker of the given task. -/
  | poll (name : Bytes) (count : Nat) (id : TaskId)
  /-- A script is destroyed. -/
  | drop (name : Bytes)
  /-- A text. -/
  | log (text : Bytes)
  /-- Whether two wakers wake the same task. -/
  | willWake (same : Bool)
  /-- A task has been spawned. -/
  | spawned (id : TaskId)
  /-- A nested run to completion has resulted in a value. -/
  | inner (v : Option Value)
  /-- What the executor tells about itself. -/
  | figures (x : Figures)
  /-- The value of a continuation. -/
  | sink (v : Value)
  /-- The mark of a continuation. -/
  | mark
  /-- The value of a continuation, under a name. -/
  | record (name : Bytes) (v : Value)

/-- Something that happens to the pipes from which tasks read. -/
inductive Feed
  /-- Bytes are written. -/
  | write (pipe bytes : Bytes)
  /-- The end to write to is closed. -/
  | close (pipe : Bytes)
  /-- The thread is notified for no reason. -/
  | unpark
  /-- The loop of the reactor dies, once a byte in a pipe has made it look. -/
  | sabotage (pipe : Bytes)
  deriving Repr

/-- The stage. -/
structure Stage where
  /-- What has been shown, first things first. -/
  trace : List Shown := []
  /-- Wakers by slot. -/
  slots : Table Bytes Waker := .empty
  /-- What is going to happen each time the thread parks. -/
  parks : List (List Action) := []
  /-- Whether that happens in silence, by another thread while this one sleeps. -/
  quiet : Bool := false
  /-- The pipes from which tasks read. -/
  pipes : Host.Pipes := .empty
  /-- What is going to happen to them, each time the thread parks. -/
  feeds : List Feed := []
  /-- Whether the loop of the reactor has been made to die. -/
  sabotaged : Bool := false
  deriving Inhabited

/-- The world of tasks. -/
structure World (K : Type) extends Environment K where
  /-- The stage. -/
  stage : Stage := {}

namespace World

variable {K : Type}

/-- Shows something. -/
def record (w : World K) (x : Shown) : World K :=
  { w with stage := { w.stage with trace := w.stage.trace ++ [x] } }

/-- Forgets what has been shown, and returns it. -/
def takeTrace (w : World K) : List Shown × World K :=
  (w.stage.trace, { w with stage := { w.stage with trace := [] } })

/-- Puts a waker into a slot. -/
def save (w : World K) (slot : Bytes) (x : Waker) : World K :=
  { w with stage := { w.stage with slots := w.stage.slots.insert slot x } }

/-- Empties a slot. -/
def clear (w : World K) (slot : Bytes) : World K :=
  { w with stage := { w.stage with slots := w.stage.slots.erase slot } }

/-- Changes the environment. -/
def onEnvironment {A : Type} (w : World K) (f : Environment K → A × Environment K) : A × World K :=
  let (a, e) := f w.toEnvironment
  (a, { w with toEnvironment := e })

/-- Takes what happens at the next parking. -/
def nextPark (w : World K) : Option (List Action) × World K :=
  match w.stage.parks with
  | [] => (none, w)
  | actions :: rest => (some actions, { w with stage := { w.stage with parks := rest } })

end World

end TaskRuntime
