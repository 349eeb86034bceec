import TaskRuntime.Proofs.Interleaving

/-!
# What a step can do

`Machine.Move` lists, once and for all, what any step of an ensemble does to the machine: to table,
signals and calls, and which notes it leaves. What the active call does by itself is a
`Machine.Turn`, and a turn in which no task is polled and the table stays is a `Machine.Shift`.
All this is an inversion of `Ensemble.Step` (`Ensemble.Step.move`), not another semantics: every
proof about all steps is one case analysis of it, and no such proof opens the definitions of the
loop.

Steps that do the same to the machine are one case. Thus `Machine.Move.quiet` stands for all answers
that touch neither table nor ready queue and for whatever others do elsewhere; whether the active
call has gone on meanwhile is said by `Call.Advance`.
-/

namespace TaskRuntime

variable {W B V R : Type}

/-- What may be left of a program after its first request. -/
def Act.Leads : Act W B V R → Act W B V R → Prop
  | .look k, p => ∃ w, p = k w
  | .put _ k, p => p = k
  | .wake _ k, p => p = k
  | .unpark k, p => p = k
  | .parkFor k, p => ∃ b, p = k b
  | .spawn _ k, p => ∃ r, p = k r
  | .figures k, p => ∃ x, p = k x
  | .done _, _ => False
  | .blockOn _ _, _ => False

/-- What is true of a program stays true of what is left of it, if it does so for each kind of
request. -/
theorem Act.Leads.keeps {X : Act W B V R → Prop} {p p' : Act W B V R} (hl : p.Leads p') (hp : X p)
    (look : ∀ k, X (.look k) → ∀ w, X (k w)) (put : ∀ w k, X (.put w k) → X k)
    (wake : ∀ w k, X (.wake w k) → X k) (unpark : ∀ k, X (.unpark k) → X k)
    (parkFor : ∀ k, X (.parkFor k) → ∀ b, X (k b)) (spawn : ∀ b k, X (.spawn b k) → ∀ r, X (k r))
    (figures : ∀ k, X (.figures k) → ∀ x, X (k x)) : X p' := by
  cases p with
  | look k =>
    obtain ⟨w, rfl⟩ := hl
    exact look k hp w
  | put w k =>
    obtain rfl := hl
    exact put w _ hp
  | wake w k =>
    obtain rfl := hl
    exact wake w _ hp
  | unpark k =>
    obtain rfl := hl
    exact unpark _ hp
  | parkFor k =>
    obtain ⟨b, rfl⟩ := hl
    exact parkFor k hp b
  | spawn b k =>
    obtain ⟨r, rfl⟩ := hl
    exact spawn b k hp r
  | figures k =>
    obtain ⟨x, rfl⟩ := hl
    exact figures k hp x
  | done r => exact hl.elim
  | blockOn b k => exact hl.elim

/-! ### Calls -/

namespace Call

/-- The task that a call is polling, and whether it polls it in place. -/
def polls? (c : Call W B V) : Option (TaskId × Bool) :=
  match c.doing with
  | .first _ => some (c.id, true)
  | .poll id _ => some (id, false)
  | _ => none

theorem polls?_first {c : Call W B V} {p} (hd : c.doing = .first p) :
    c.polls? = some (c.id, true) := by
  rw [polls?, hd]

theorem polls?_poll {c : Call W B V} {id : TaskId} {p} (hd : c.doing = .poll id p) :
    c.polls? = some (id, false) := by
  rw [polls?, hd]

/-- A call waits for a body to be run to completion. -/
def Waits (c : Call W B V) (b : B) : Prop :=
  ∃ (R : Type) (wrap : Act W B V R → Doing W B V) (k : Except Failure (Option V) → Act W B V R),
    Doing.Runs wrap ∧ c.doing = wrap (.blockOn b k)

/-- The active call has gone on with its program by one request, or nothing has happened to the
calls. -/
inductive Advance : List (Call W B V) → List (Call W B V) → Prop
  /-- Nothing has happened. -/
  | same {calls} : Advance calls calls
  /-- The active call has gone on. -/
  | head {c rest} {R : Type} {wrap : Act W B V R → Doing W B V} {p p'} (hw : Doing.Runs wrap)
      (hd : c.doing = wrap p) (hp : p.Leads p') :
      Advance (c :: rest) ({ c with doing := wrap p' } :: rest)

end Call

namespace Machine

/-- The tasks that are being polled, by the active call first. -/
def polled (m : Machine W B V) : List (TaskId × Bool) := m.calls.filterMap Call.polls?

/-- The calls below one that has ended, the first of them with its result. -/
def resumed (result : Except Failure (Option V)) : List (Call W B V) → List (Call W B V)
  | [] => []
  | d :: rest => { d with doing := d.doing.resume result } :: rest

/-- Changes of position in which no task is polled and the table stays as it is, with what they mean
to the signals. -/
inductive Shift (σ : Surroundings W B V) (x : Executor B) :
    Signals → Doing W B V → Signals → Doing W B V → Prop
  /-- No id was queued. -/
  | idle {s} (h : s.pop? x.queue = none) : Shift σ x s .pop s .check
  /-- No id is queued, and the parking is announced. -/
  | announce {s} (h : (s.queue x.queue).ids = []) (n : Nat) :
      Shift σ x s .check s (.announce (σ.announce n))
  /-- No id is queued, and the parking is counted without being announced. -/
  | count {s} (h : (s.queue x.queue).ids = []) : Shift σ x s .check s (.asleep σ.asleep)
  /-- An id is queued after all. -/
  | again {s} : Shift σ x s .check s .pop
  /-- The parking has been announced, and is counted. -/
  | announced {s} : Shift σ x s (.announce (.done (.ok ()))) s (.asleep σ.asleep)
  /-- The others have acted. -/
  | asleep {s} : Shift σ x s (.asleep (.done ())) s .park
  /-- The thread wakes up. -/
  | awake {s s'} (h : s.park? x.parker = some s') : Shift σ x s .park s' .pop

/-- **What a step of the active call does to the machine** when it is at no request. -/
inductive Turn (β : Behaviour W B V) (σ : Surroundings W B V) :
    Machine W B V → List (Note V) → Machine W B V → Prop
  /-- A run to completion begins. -/
  | entered {site calls o b n m'} (hc : ∀ c ∈ calls.head?, c.Waits b)
      (h : enter β site calls b = (n, m')) : Turn β σ ⟨site, calls, o⟩ n m'
  /-- The active call changes its position. -/
  | shifted {x s s' w c rest o d n k} (hd : Shift σ x s c.doing s' d)
      (hn : n = [] ∨ n = [.parked]) :
      Turn β σ ⟨⟨x, s, w⟩, c :: rest, o⟩ n
        ⟨⟨{ x with parks := k }, s', w⟩, { c with doing := d } :: rest, none⟩
  /-- The poll in place fails. -/
  | firstFailed {site c rest o b e n m'} (hd : c.doing = .first (.done (.error e, b)))
      (h : leave β (site.destroy (V := V) β c.id b).2 c rest (.error e) = (n, m')) :
      Turn β σ ⟨site, c :: rest, o⟩ (.ended c.id true (.error e) :: .destroyed c.id :: n) m'
  /-- The poll in place leaves the task pending. -/
  | firstPended {site site' c rest o b n} (hd : c.doing = .first (.done (.ok .pending, b)))
      (h : site.enqueue β c.id b = (n, site')) :
      Turn β σ ⟨site, c :: rest, o⟩ (.ended c.id true (.ok .pending) :: n)
        ⟨site', { c with doing := .pop } :: rest, none⟩
  /-- The poll in place resolves the task, and no other is left. -/
  | firstReturned {site c rest o b v n m'} (hd : c.doing = .first (.done (.ok (.ready v), b)))
      (ht : site.executor.tasks.isEmpty = true)
      (h : leave β site { c with held := some b, slot := some v, doing := .pop } rest
        (.ok (some v)) = (n, m')) :
      Turn β σ ⟨site, c :: rest, o⟩ (.ended c.id true (.ok (.ready v)) :: n) m'
  /-- The poll in place resolves the task, and others are left. -/
  | firstResolved {site c rest o b v} (hd : c.doing = .first (.done (.ok (.ready v), b)))
      (ht : site.executor.tasks.isEmpty = false) :
      Turn β σ ⟨site, c :: rest, o⟩ [.ended c.id true (.ok (.ready v))]
        ⟨site, { c with held := some b, slot := some v, doing := .pop } :: rest, none⟩
  /-- A queued id has no task in the table. -/
  | stale {x s s' w c rest o id} (hd : c.doing = .pop) (hp : s.pop? x.queue = some (id, s'))
      (hg : x.tasks.get? id = none) :
      Turn β σ ⟨⟨x, s, w⟩, c :: rest, o⟩ [.stale id]
        ⟨⟨{ x with stale := x.stale + 1 }, s', w⟩, c :: rest, none⟩
  /-- A queued task is polled. -/
  | began {x s s' w c rest o id b} (hd : c.doing = .pop) (hp : s.pop? x.queue = some (id, s'))
      (hg : x.tasks.get? id = some b) :
      Turn β σ ⟨⟨x, s, w⟩, c :: rest, o⟩ [.began id false]
        ⟨⟨{ x with tasks := x.tasks.erase id, polls := x.polls + 1 }, s', w⟩,
          { c with doing := .poll id (β.poll b (x.waker id)) } :: rest, none⟩
  /-- A poll by the loop fails. -/
  | pollFailed {site c rest o id b e n m'} (hd : c.doing = .poll id (.done (.error e, b)))
      (h : leave β (site.destroy (V := V) β id b).2 c rest (.error e) = (n, m')) :
      Turn β σ ⟨site, c :: rest, o⟩ (.ended id false (.error e) :: .destroyed id :: n) m'
  /-- A poll by the loop leaves the task pending. -/
  | pollPended {site site' c rest o id b n} (hd : c.doing = .poll id (.done (.ok .pending, b)))
      (h : site.insert β id b = (n, site')) :
      Turn β σ ⟨site, c :: rest, o⟩ (.ended id false (.ok .pending) :: n)
        ⟨site', { c with doing := .pop } :: rest, none⟩
  /-- A poll by the loop resolves the task. -/
  | pollResolved {site c rest o id b v} (hd : c.doing = .poll id (.done (.ok (.ready v), b))) :
      Turn β σ ⟨site, c :: rest, o⟩ [.ended id false (.ok (.ready v)), .destroyed id]
        ⟨(site.destroy (V := V) β id b).2, fill id v ({ c with doing := .pop } :: rest), none⟩
  /-- No task is left. -/
  | finished {site c rest o n m'} (hd : c.doing = .check)
      (ht : site.executor.tasks.isEmpty = true)
      (h : leave β { site with world := σ.finished site.world } c rest (.ok c.slot) = (n, m')) :
      Turn β σ ⟨site, c :: rest, o⟩ n m'
  /-- The announcement of a parking fails. -/
  | announceFailed {site c rest o e n m'} (hd : c.doing = .announce (.done (.error e)))
      (h : leave β site c rest (.error e) = (n, m')) : Turn β σ ⟨site, c :: rest, o⟩ n m'

/-- **What a step does to the machine.** -/
inductive Move (β : Behaviour W B V) (σ : Surroundings W B V) :
    Machine W B V → List (Note V) → Machine W B V → Prop
  /-- Neither table nor ready queue is touched. -/
  | quiet {x s s' w w' calls calls' o} (hq : s'.queue x.queue = s.queue x.queue)
      (hl : s.queues.length ≤ s'.queues.length) (hc : Call.Advance calls calls') :
      Move β σ ⟨⟨x, s, w⟩, calls, o⟩ [] ⟨⟨x, s', w'⟩, calls', o⟩
  /-- Somebody pushes for a wake. -/
  | woke {x s w calls calls' o} (u : Waker) (hc : Call.Advance calls calls') :
      Move β σ ⟨⟨x, s, w⟩, calls, o⟩ [.woke u] ⟨⟨x, s.pushFor u, w⟩, calls', o⟩
  /-- A task is spawned. -/
  | spawned {site site' id n b calls calls' o} (h : site.spawn β b = (id, n, site'))
      (hc : Call.Advance calls calls') : Move β σ ⟨site, calls, o⟩ n ⟨site', calls', o⟩
  /-- The active call makes a step, or a run to completion begins. -/
  | turned {m n m'} (h : Turn β σ m n m') : Move β σ m n m'

variable {β : Behaviour W B V} {σ : Surroundings W B V} {m m' : Machine W B V} {n : List (Note V)}

/-- A poll in place that has ended. -/
theorem turn_first {site : Site W B} {c : Call W B V} {rest : List (Call W B V)}
    {o : Option (Except Failure (Option V))} {result : Polled V} {b : B}
    (hd : c.doing = .first (.done (result, b))) (h : afterFirst β site c rest b result = (n, m')) :
    Turn β σ ⟨site, c :: rest, o⟩ (.ended c.id true result :: n) m' := by
  match result with
  | .error e =>
    obtain ⟨rfl, rfl⟩ := Prod.mk.inj h
    exact .firstFailed hd rfl
  | .ok .pending =>
    obtain ⟨rfl, rfl⟩ := Prod.mk.inj h
    exact .firstPended hd rfl
  | .ok (.ready v) =>
    by_cases ht : site.executor.tasks.isEmpty = true
    · simp only [afterFirst, ht, if_true] at h
      exact .firstReturned hd ht h
    · simp only [afterFirst, ht] at h
      obtain ⟨rfl, rfl⟩ := Prod.mk.inj h
      exact .firstResolved hd (by simpa using ht)

/-- A poll by the loop that has ended. -/
theorem turn_poll {site : Site W B} {c : Call W B V} {rest : List (Call W B V)}
    {o : Option (Except Failure (Option V))} {id : TaskId} {result : Polled V} {b : B}
    (hd : c.doing = .poll id (.done (result, b)))
    (h : afterPoll β site c rest id b result = (n, m')) :
    Turn β σ ⟨site, c :: rest, o⟩ (.ended id false result :: n) m' := by
  match result with
  | .error e =>
    obtain ⟨rfl, rfl⟩ := Prod.mk.inj h
    exact .pollFailed hd rfl
  | .ok .pending =>
    obtain ⟨rfl, rfl⟩ := Prod.mk.inj h
    exact .pollPended hd rfl
  | .ok (.ready v) =>
    obtain ⟨rfl, rfl⟩ := Prod.mk.inj h
    exact .pollResolved hd

/-- A pop. -/
theorem turn_pop {site : Site W B} {c : Call W B V} {rest : List (Call W B V)}
    {o : Option (Except Failure (Option V))} (hd : c.doing = .pop)
    (h : stepPop β site c rest = (n, m')) : Turn β σ ⟨site, c :: rest, o⟩ n m' := by
  obtain ⟨x, s, w⟩ := site
  unfold stepPop at h
  split at h
  · next hp =>
    obtain ⟨rfl, rfl⟩ := Prod.mk.inj h
    exact .shifted (k := x.parks) (hd ▸ .idle hp) (Or.inl rfl)
  · next id signals hp =>
    dsimp only at h
    split at h
    · next hg =>
      obtain ⟨rfl, rfl⟩ := Prod.mk.inj h
      exact .stale hd hp hg
    · next b hg =>
      obtain ⟨rfl, rfl⟩ := Prod.mk.inj h
      exact .began hd hp hg

/-- The look at an empty queue. -/
theorem turn_check {site : Site W B} {c : Call W B V} {rest : List (Call W B V)}
    {o : Option (Except Failure (Option V))} (hd : c.doing = .check)
    (h : stepCheck β σ site c rest = (n, m')) : Turn β σ ⟨site, c :: rest, o⟩ n m' := by
  obtain ⟨x, s, w⟩ := site
  unfold stepCheck at h
  split at h
  · next ht => exact .finished hd ht h
  split at h
  · next hz =>
    have hids : (s.queue x.queue).ids = [] := by simpa [ReadyQueue.isEmpty] using hz
    split at h
    · obtain ⟨rfl, rfl⟩ := Prod.mk.inj h
      exact .shifted (k := x.parks) (hd ▸ .announce hids _) (Or.inl rfl)
    · obtain ⟨rfl, rfl⟩ := Prod.mk.inj h
      exact .shifted (hd ▸ .count hids) (Or.inr rfl)
  · obtain ⟨rfl, rfl⟩ := Prod.mk.inj h
    exact .shifted (k := x.parks) (hd ▸ .again) (Or.inl rfl)

/-- A run to completion that begins in the middle of a program. -/
theorem turn_nested {site : Site W B} {c : Call W B V} {rest : List (Call W B V)}
    {o : Option (Except Failure (Option V))} {wrap : Act W B V R → Doing W B V} {b : B}
    {k : Except Failure (Option V) → Act W B V R} (hw : Doing.Runs wrap)
    (hd : c.doing = wrap (.blockOn b k))
    (h : enter β site ({ c with doing := wrap (.blockOn b k) } :: rest) b = (n, m')) :
    Turn β σ ⟨site, c :: rest, o⟩ n m' := by
  rw [← hd] at h
  refine .entered (fun d hmem ↦ ?_) h
  obtain rfl : c = d := by simpa using hmem
  exact ⟨R, wrap, k, hw, hd⟩

/-- A step of the machine alone from a settled position. -/
theorem turn_of_step? (hs : ∀ c ∈ m.calls.head?, c.doing.Settled)
    (h : m.step? β σ = some (n, m')) : Turn β σ m n m' := by
  obtain ⟨site, calls, o⟩ := m
  cases calls with
  | nil => simp [step?] at h
  | cons c rest =>
    -- At a settled position, a program has ended or waits for a run to completion.
    have hset : c.doing.Settled := hs c rfl
    cases hd : c.doing with
    | first p =>
      rw [hd] at hset
      cases p with
      | done r =>
        simp only [step?, hd, stepAct, Act.run, Option.some.injEq, List.nil_append] at h
        obtain ⟨rfl, rfl⟩ := Prod.mk.inj h
        exact turn_first hd rfl
      | blockOn b k =>
        simp only [step?, hd, stepAct, Act.run, Option.some.injEq, List.nil_append] at h
        exact turn_nested .first hd h
      | _ => exact hset.elim
    | poll id p =>
      rw [hd] at hset
      cases p with
      | done r =>
        simp only [step?, hd, stepAct, Act.run, Option.some.injEq, List.nil_append] at h
        obtain ⟨rfl, rfl⟩ := Prod.mk.inj h
        exact turn_poll hd rfl
      | blockOn b k =>
        simp only [step?, hd, stepAct, Act.run, Option.some.injEq, List.nil_append] at h
        exact turn_nested (.poll id) hd h
      | _ => exact hset.elim
    | pop =>
      simp only [step?, hd, Option.some.injEq] at h
      exact turn_pop hd h
    | check =>
      simp only [step?, hd, Option.some.injEq] at h
      exact turn_check hd h
    | announce p =>
      rw [hd] at hset
      cases p with
      | done r =>
        simp only [step?, hd, stepAct, Act.run, Option.some.injEq, List.nil_append] at h
        cases r with
        | error e => exact .announceFailed hd h
        | ok u =>
          obtain ⟨rfl, rfl⟩ := Prod.mk.inj h
          exact .shifted (hd ▸ .announced) (Or.inr rfl)
      | blockOn b k =>
        simp only [step?, hd, stepAct, Act.run, Option.some.injEq, List.nil_append] at h
        exact turn_nested .announce hd h
      | _ => exact hset.elim
    | asleep p =>
      rw [hd] at hset
      cases p with
      | done u =>
        simp only [step?, hd, stepAct, Act.run, Option.some.injEq, List.nil_append] at h
        obtain ⟨rfl, rfl⟩ := Prod.mk.inj h
        exact .shifted (k := site.executor.parks) (hd ▸ .asleep) (Or.inl rfl)
      | blockOn b k =>
        simp only [step?, hd, stepAct, Act.run, Option.some.injEq, List.nil_append] at h
        exact turn_nested .asleep hd h
      | _ => exact hset.elim
    | park =>
      simp only [step?, hd, Option.map_eq_some_iff] at h
      obtain ⟨signals, hp, h⟩ := h
      obtain ⟨rfl, rfl⟩ := Prod.mk.inj h
      exact .shifted (k := site.executor.parks) (hd ▸ .awake hp) (Or.inl rfl)

end Machine

/-! ### Every step is a move -/

namespace Ensemble

variable {β : Behaviour W B V} {σ : Surroundings W B V} {s s' : Ensemble W B V} {n : List (Note V)}

/-- **What a step of an ensemble can do to its machine.** -/
theorem Step.move (hs : Step β σ s n s') : Machine.Move β σ s.machine n s'.machine := by
  cases hs with
  | turn hset h => exact .turned (Machine.turn_of_step? hset h)
  | @request m c rest _ _ _ _ _ p _ hc hw hd h =>
    obtain ⟨⟨x, s, w⟩, calls, o⟩ := m
    obtain rfl : calls = c :: rest := hc
    cases p with
    | look k =>
      obtain ⟨rfl, rfl, rfl⟩ : [] = n ∧ _ ∧ _ := by simpa [Act.request?] using h
      exact .quiet rfl (Nat.le_refl _) (.head hw hd ⟨w, rfl⟩)
    | put u k =>
      obtain ⟨rfl, rfl, rfl⟩ : [] = n ∧ _ ∧ _ := by simpa [Act.request?] using h
      exact .quiet rfl (Nat.le_refl _) (.head hw hd rfl)
    | unpark k =>
      obtain ⟨rfl, rfl, rfl⟩ : [] = n ∧ _ ∧ _ := by simpa [Act.request?] using h
      exact .quiet rfl (Nat.le_refl _) (.head hw hd rfl)
    | parkFor k =>
      obtain ⟨rfl, rfl, rfl⟩ : [] = n ∧ _ ∧ _ := by simpa [Act.request?] using h
      exact .quiet rfl (Nat.le_refl _) (.head hw hd ⟨_, rfl⟩)
    | figures k =>
      obtain ⟨rfl, rfl, rfl⟩ : [] = n ∧ _ ∧ _ := by simpa [Act.request?] using h
      exact .quiet rfl (Nat.le_refl _) (.head hw hd ⟨_, rfl⟩)
    | spawn b k =>
      obtain ⟨rfl, rfl, rfl⟩ : _ ∧ _ ∧ _ := by simpa [Act.request?] using h
      exact .spawned rfl (.head hw hd ⟨_, rfl⟩)
    | done r => simp [Act.request?] at h
    | wake w k => simp [Act.request?] at h
    | blockOn b k => simp [Act.request?] at h
  | @push m c rest w _ _ _ _ hc hw hd =>
    obtain ⟨⟨x, s, u⟩, calls, o⟩ := m
    obtain rfl : calls = c :: rest := hc
    exact .woke w (.head hw hd rfl)
  | @notify m w _ =>
    exact .quiet (Signals.queue_unparkFor _ _ _) (Nat.le_of_eq (by simp)) .same
  | otherPush w => exact .woke w .same
  | @otherNotify m _ _ w _ =>
    exact .quiet (Signals.queue_unparkFor _ _ _) (Nat.le_of_eq (by simp)) .same
  | stray r => exact .quiet rfl (Nat.le_refl _) .same
  | world w => exact .quiet rfl (Nat.le_refl _) .same
  | elsewhere h => exact .quiet h.queue h.queues .same
  | spawn b hc h => exact .spawned h .same
  | @blockOn m m' _ _ b hc h =>
    obtain ⟨site, calls, o⟩ := m
    obtain rfl : calls = [] := hc
    exact .turned (.entered (by simp) h)
  | sleep hc => exact .quiet rfl (Nat.le_refl _) .same

end Ensemble

end TaskRuntime
