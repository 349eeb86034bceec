import TaskRuntime.Threads

/-!
# Batches

Spawning some tasks in order, and then running one to completion, which ends when all of them have.
-/

namespace TaskRuntime

namespace Threads

variable {K : Type} [Kernel K]

/-- Spawns tasks in order: their ids. -/
def spawnAll (p : Threads K) (name : Bytes) : List Task → List (Except Failure TaskId) × Threads K
  | [] => ([], p)
  | t :: rest =>
    let (id, p) := p.spawn name t
    let (ids, p) := p.spawnAll name rest
    (id :: ids, p)

/-- How a batch went. -/
structure Batch (K : Type) where
  /-- The ids of the spawned tasks. -/
  ids : List (Except Failure TaskId)
  /-- How the last run ended. -/
  result : Except Failure (Option Value)
  /-- The threads afterwards. -/
  threads : Threads K

/-- **Runs a batch**: spawns tasks, and then runs a last one to completion. -/
def runBatch (p : Threads K) (σ : Surroundings (World K) Task Value) (name : Bytes)
    (tasks : List Task) (last : Task) : Batch K :=
  let (ids, p) := p.spawnAll name tasks
  let (result, threads) := p.blockOnIn σ name last
  { ids, result, threads }

end Threads

end TaskRuntime
