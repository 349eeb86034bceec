import TaskRuntime.Executor

/-!
# The scheduling loop

A task is run to completion by polling it once in place and then, unless it has finished and no
other task is left, by the scheduling loop: pop an id, poll its task, and put it back if it has not
finished; when no id is queued, stop if the table is empty, and park otherwise.

## Calls

A task that is being polled may itself run a task to completion on the same executor. So there is a
stack of calls: the head is active, and each of the others waits, in the middle of a program, for
the one above it. All share table, queue and figures. `Machine.step?` is one step of the active
call.

## The place where the thread parks

Before it parks, the loop announces the parking, if the executor is so configured: `Surroundings`
holds what happens then, and what happens while the thread is asleep. An announcement may fail; the
call then fails with it, and the parking is not counted.
-/

namespace TaskRuntime

/-- What happens around a scheduling loop. -/
structure Surroundings (W B V : Type) where
  /-- The loop has found the table empty. -/
  finished : W → W
  /-- The loop is about to park with a number of tasks in the table. -/
  announce : Nat → Act W B V (Except Failure Unit)
  /-- What others do once the parking has been counted, as far as it is known beforehand. -/
  asleep : Act W B V Unit

/-- Where a call is. A call that waits for the one above it is at a program that begins with a run
to completion. -/
inductive Doing (W B V : Type)
  /-- Polling its own task in place. -/
  | first (p : Act W B V (Polled V × B))
  /-- About to pop an id. -/
  | pop
  /-- Polling a task that was popped. -/
  | poll (id : TaskId) (p : Act W B V (Polled V × B))
  /-- No id was queued: about to decide whether to stop, to park or to go on. -/
  | check
  /-- Announcing that the thread will park. -/
  | announce (p : Act W B V (Except Failure Unit))
  /-- Letting others act, the parking being counted. -/
  | asleep (p : Act W B V Unit)
  /-- Parking. -/
  | park

namespace Doing

variable {W B V : Type}

/-- A program that waits for a run to completion gets its result. -/
def answered {R : Type} (result : Except Failure (Option V)) : Act W B V R → Act W B V R
  | .blockOn _ k => k result
  | p => p

/-- A call that waits for the one above it gets the result of that one. -/
def resume (result : Except Failure (Option V)) : Doing W B V → Doing W B V
  | first p => first (answered result p)
  | poll id p => poll id (answered result p)
  | announce p => announce (answered result p)
  | asleep p => asleep (answered result p)
  | d => d

end Doing

/-- A task being run to completion. -/
structure Call (W B V : Type) where
  /-- The id of the task. -/
  id : TaskId
  /-- What is left of the task if it finished in place; it is destroyed when the call ends. -/
  held : Option B := none
  /-- The value of the task, once it has finished. -/
  slot : Option V := none
  /-- Where the call is. -/
  doing : Doing W B V

/-- A site with the calls that are running on it. -/
structure Machine (W B V : Type) where
  /-- The executor and all that its tasks can reach. -/
  site : Site W B
  /-- The calls, the active one first. -/
  calls : List (Call W B V) := []
  /-- How the outermost call ended, if it has ended. -/
  outcome : Option (Except Failure (Option V)) := none

namespace Machine

variable {W B V : Type}

/-! ### Calls begin and end -/

/-- Begins to run a body to completion, above the calls that are running already. The id is taken
first, so that the waker of the poll in place stays valid if the task enters the table. -/
def enter (β : Behaviour W B V) (site : Site W B) (calls : List (Call W B V)) (b : B) :
    List (Note V) × Machine W B V :=
  let (id, executor) := site.executor.allocate
  ([.issued id, .began id true],
    { site := { site with executor }
      calls := { id, doing := .first (β.poll b (executor.waker id)) } :: calls })

/-- Ends the active call: what it holds is destroyed, and the call below goes on with its result. -/
def leave (β : Behaviour W B V) (site : Site W B) (c : Call W B V) (rest : List (Call W B V))
    (result : Except Failure (Option V)) : List (Note V) × Machine W B V :=
  let (notes, site) := c.held.elim ([], site) (site.destroy β c.id)
  (notes ++ [.returned c.id result],
    match rest with
    | [] => { site, outcome := some result }
    | d :: rest => { site, calls := { d with doing := d.doing.resume result } :: rest })

/-- Fills the slots of the calls that run a task. -/
def fill (id : TaskId) (v : V) (calls : List (Call W B V)) : List (Call W B V) :=
  calls.map fun c ↦ if c.id = id then { c with slot := some v } else c

/-! ### How the active call goes on after a program -/

/-- After the poll in place: a pending task enters the table; a finished one is kept until the call
ends, which is at once if the table is empty. -/
def afterFirst (β : Behaviour W B V) (site : Site W B) (c : Call W B V) (rest : List (Call W B V))
    (b : B) : Polled V → List (Note V) × Machine W B V
  | .error e =>
    let (notes, site) := site.destroy β c.id b
    let (more, m) := leave β site c rest (.error e)
    (notes ++ more, m)
  | .ok .pending =>
    let (notes, site) := site.enqueue β c.id b
    (notes, { site, calls := { c with doing := .pop } :: rest })
  | .ok (.ready v) =>
    let c := { c with held := some b, slot := some v, doing := .pop }
    if site.executor.tasks.isEmpty then leave β site c rest (.ok c.slot)
    else ([], { site, calls := c :: rest })

/-- After a poll by the loop: a pending task goes back into the table, any other is destroyed. A
failure ends the call. -/
def afterPoll (β : Behaviour W B V) (site : Site W B) (c : Call W B V) (rest : List (Call W B V))
    (id : TaskId) (b : B) : Polled V → List (Note V) × Machine W B V
  | .error e =>
    let (notes, site) := site.destroy β id b
    let (more, m) := leave β site c rest (.error e)
    (notes ++ more, m)
  | .ok .pending =>
    let (notes, site) := site.insert β id b
    (notes, { site, calls := { c with doing := .pop } :: rest })
  | .ok (.ready v) =>
    let (notes, site) := site.destroy β id b
    (notes, { site, calls := fill id v ({ c with doing := .pop } :: rest) })

/-- Counts a parking. -/
def countPark (σ : Surroundings W B V) (site : Site W B) (c : Call W B V)
    (rest : List (Call W B V)) : List (Note V) × Machine W B V :=
  ([.parked],
    { site := { site with executor := { site.executor with parks := site.executor.parks + 1 } }
      calls := { c with doing := .asleep σ.asleep } :: rest })

/-! ### Steps -/

/-- Pops an id and begins to poll its task. -/
def stepPop (β : Behaviour W B V) (site : Site W B) (c : Call W B V) (rest : List (Call W B V)) :
    List (Note V) × Machine W B V :=
  match site.signals.pop? site.executor.queue with
  | none => ([], { site, calls := { c with doing := .check } :: rest })
  | some (id, signals) =>
    let x := site.executor
    match x.tasks.get? id with
    | none =>
      ([.stale id],
        { site := { site with signals, executor := { x with stale := x.stale + 1 } }
          calls := c :: rest })
    | some b =>
      let executor := { x with tasks := x.tasks.erase id, polls := x.polls + 1 }
      ([.began id false],
        { site := { site with signals, executor }
          calls := { c with doing := .poll id (β.poll b (x.waker id)) } :: rest })

/-- Decides, with no id queued a moment ago, whether to stop, to park or to go on. -/
def stepCheck (β : Behaviour W B V) (σ : Surroundings W B V) (site : Site W B) (c : Call W B V)
    (rest : List (Call W B V)) : List (Note V) × Machine W B V :=
  if site.executor.tasks.isEmpty then
    leave β { site with world := σ.finished site.world } c rest (.ok c.slot)
  else if (site.signals.queue site.executor.queue).isEmpty then
    if site.executor.logParking then
      ([], { site, calls := { c with doing := .announce (σ.announce site.executor.tasks.size) } ::
                            rest })
    else countPark σ site c rest
  else ([], { site, calls := { c with doing := .pop } :: rest })

/-- Runs a program of the active call: as far as it goes by itself, and then either on with what
follows it, or into a nested call, for which the active call waits. -/
def stepAct {R : Type} (β : Behaviour W B V) (site : Site W B) (c : Call W B V)
    (rest : List (Call W B V)) (p : Act W B V R) (wait : Act W B V R → Doing W B V)
    (after : Site W B → R → List (Note V) × Machine W B V) : List (Note V) × Machine W B V :=
  let (stop, notes, site) := p.run β site
  match stop with
  | .calls b k =>
    let (more, m) := enter β site ({ c with doing := wait (.blockOn b k) } :: rest) b
    (notes ++ more, m)
  | .finished r =>
    let (more, m) := after site r
    (notes ++ more, m)

/-- **One step of the active call**; nothing if there is none, or if it sleeps without a token. -/
def step? (β : Behaviour W B V) (σ : Surroundings W B V) (m : Machine W B V) :
    Option (List (Note V) × Machine W B V) :=
  match m.calls with
  | [] => none
  | c :: rest =>
    match c.doing with
    | .first p => some <|
      stepAct β m.site c rest p .first fun site (result, b) ↦
        let (notes, m) := afterFirst β site c rest b result
        (.ended c.id true result :: notes, m)
    | .pop => some (stepPop β m.site c rest)
    | .poll id p => some <|
      stepAct β m.site c rest p (.poll id) fun site (result, b) ↦
        let (notes, m) := afterPoll β site c rest id b result
        (.ended id false result :: notes, m)
    | .check => some (stepCheck β σ m.site c rest)
    | .announce p => some <|
      stepAct β m.site c rest p .announce fun site result ↦
        match result with
        | .error e => leave β site c rest (.error e)
        | .ok () => countPark σ site c rest
    | .asleep p => some <|
      stepAct β m.site c rest p .asleep fun site () ↦
        ([], { site, calls := { c with doing := .park } :: rest })
    | .park =>
      (m.site.signals.park? m.site.executor.parker).map fun signals ↦
        ([], { site := { m.site with signals }, calls := { c with doing := .pop } :: rest })

/-- As many steps as there are, up to a limit. -/
def run (β : Behaviour W B V) (σ : Surroundings W B V) : Nat → Machine W B V → Machine W B V
  | 0, m => m
  | n + 1, m =>
    match m.step? β σ with
    | none => m
    | some (_, m) => m.run β σ n

end Machine

/-- **Runs a body to completion**, within a limited number of steps: the result, or a report that
the thread never wakes up again, and the site afterwards. -/
def Site.blockOn {W B V : Type} (s : Site W B) (β : Behaviour W B V) (σ : Surroundings W B V)
    (limit : Nat) (b : B) : Except Failure (Option V) × Site W B :=
  let m := (Machine.enter β s [] b).2.run β σ limit
  (m.outcome.getD (.error .stalled), m.site)

end TaskRuntime
