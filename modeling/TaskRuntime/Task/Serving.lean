import TaskRuntime.Task.Behaviour

/-!
# Tasks served by a reactor

What happens around the scheduling loop of a program that is not on a stage: the loop tells the log
what it is about to do, and while the thread sleeps the loop of the reactor makes a round and wakes
whom it has to wake.
-/

namespace TaskRuntime

namespace World

variable {K : Type} [Kernel K]

/-- The loop of the reactor makes a round. -/
def served : TaskAct K Unit :=
  .look fun w ↦
    let (ws, e) := w.toEnvironment.turns 1
    .put { w with toEnvironment := e } (Act.wakeAll ws)

/-- What happens around a scheduling loop that a reactor serves. -/
def serving : Surroundings (World K) Task Value where
  finished w := w.noteDebug finishedMessage
  announce pending := (Act.change (·.noteDebug (parkMessage pending))).bind fun () ↦ .done (.ok ())
  asleep := served

end World

end TaskRuntime
