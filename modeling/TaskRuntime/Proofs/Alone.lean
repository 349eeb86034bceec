import TaskRuntime.Proofs.Interleaving

/-!
# A machine alone

A machine that is left alone does what a machine among other threads can do as well:
`Machine.run_step?` takes one of its steps apart into requests, and `Site.run_blockOn` puts a whole
run to completion together again. So a property of all runs of ensembles holds whenever a task is
run to completion, whatever the step limit.

## The number of calls

While a program runs, calls neither begin nor end. Runs are therefore taken through ensembles with
at most as many calls as there are before or after the step (`Ensemble.CallsWithin`).
-/

namespace TaskRuntime

variable {W B V R : Type}

/-- What is left of a program when it can go no further by itself. -/
def Stop.rest : Stop W B V R → Act W B V R
  | .finished r => .done r
  | .calls b k => .blockOn b k

theorem Stop.settled_rest (stop : Stop W B V R) : stop.rest.Settled := by
  cases stop <;> trivial

theorem Doing.Runs.settled {wrap : Act W B V R → Doing W B V} (hw : Doing.Runs wrap)
    {p : Act W B V R} (hp : p.Settled) : (wrap p).Settled := by
  cases hw <;> exact hp

/-- At most so many calls are running. -/
def Ensemble.CallsWithin (k : Nat) (s : Ensemble W B V) : Prop := s.machine.calls.length ≤ k

/-- Surroundings in which nothing happens. -/
def Surroundings.still : Surroundings W B V where
  finished w := w
  announce _ := .done (.ok ())
  asleep := .done ()

section

variable {β : Behaviour W B V} {σ : Surroundings W B V} {c : Call W B V} {rest : List (Call W B V)}
  {o : Option (Except Failure (Option V))} {f : List Waker} {k : Nat}

/-- A request is answered. -/
theorem Ensemble.run_request {wrap : Act W B V R → Doing W B V} (hw : Doing.Runs wrap)
    (hk : (c :: rest).length ≤ k) {p p' : Act W B V R} {site site' : Site W B} {n : List (Note V)}
    (h : p.request? β site = some (n, p', site')) :
    Ensemble.Run β σ (Ensemble.CallsWithin k)
      ⟨⟨site, { c with doing := wrap p } :: rest, o⟩, f, none⟩ n
      ⟨⟨site', { c with doing := wrap p' } :: rest, o⟩, f, none⟩ := by
  have hs : Step β σ ⟨⟨site, { c with doing := wrap p } :: rest, o⟩, f, none⟩ n
      ⟨⟨site', { c with doing := wrap p' } :: rest, o⟩, f, none⟩ :=
    .request (c := { c with doing := wrap p }) rfl hw rfl h
  exact .single hs hk

/-- A program goes as far as it can by itself, one request at a time. -/
theorem Ensemble.run_act {wrap : Act W B V R → Doing W B V} (hw : Doing.Runs wrap)
    (hk : (c :: rest).length ≤ k) (p : Act W B V R) (site : Site W B) :
    Ensemble.Run β σ (Ensemble.CallsWithin k)
      ⟨⟨site, { c with doing := wrap p } :: rest, o⟩, f, none⟩ (p.run β site).2.1
      ⟨⟨(p.run β site).2.2, { c with doing := wrap (p.run β site).1.rest } :: rest, o⟩, f,
        none⟩ := by
  induction p generalizing site with
  | done r => exact .refl
  | blockOn b k => exact .refl
  | look k ih => exact (run_request (p := .look k) hw hk rfl).trans (ih site.world site)
  | put w k ih => exact (run_request (p := .put w k) hw hk rfl).trans (ih _)
  | unpark k ih => exact (run_request (p := .unpark k) hw hk rfl).trans (ih _)
  | parkFor k ih => exact (run_request (p := .parkFor k) hw hk rfl).trans (ih _ _)
  | figures k ih => exact (run_request (p := .figures k) hw hk rfl).trans (ih _ site)
  | spawn b k ih => exact (run_request (p := .spawn b k) hw hk rfl).trans (ih _ _)
  | wake w p ih =>
    -- A wake is the only request that takes two steps.
    have hpush : Step β σ ⟨⟨site, { c with doing := wrap (.wake w p) } :: rest, o⟩, f, none⟩
        [.woke w] ⟨⟨{ site with signals := site.signals.pushFor w },
          { c with doing := wrap p } :: rest, o⟩, f, some w⟩ :=
      .push (c := { c with doing := wrap (.wake w p) }) rfl hw rfl
    have hnotify : Step β σ ⟨⟨{ site with signals := site.signals.pushFor w },
          { c with doing := wrap p } :: rest, o⟩, f, some w⟩ []
        ⟨⟨{ site with signals := site.signals.wake w }, { c with doing := wrap p } :: rest, o⟩, f,
          none⟩ := by
      rw [Signals.wake_eq]
      exact .notify
    have hwake := (Run.single (P := CallsWithin k) hpush hk).trans (.single hnotify hk)
    exact hwake.trans (ih _)

/-- Running a program in one step is running it as far as it goes, and then making the step. -/
theorem Machine.stepAct_run {wait : Act W B V R → Doing W B V}
    {after : Site W B → R → List (Note V) × Machine W B V} (p : Act W B V R) (site : Site W B) :
    stepAct β site c rest p wait after =
      ((p.run β site).2.1 ++
          (stepAct β (p.run β site).2.2 c rest (p.run β site).1.rest wait after).1,
        (stepAct β (p.run β site).2.2 c rest (p.run β site).1.rest wait after).2) := by
  rcases hp : p.run β site with ⟨stop, notes, site'⟩
  cases stop <;> simp [stepAct, hp, Stop.rest, Act.run]

/-- A step that runs a program: the program goes as far as it can, and then the step is made. -/
theorem Ensemble.run_stepAct {wrap : Act W B V R → Doing W B V} (hw : Doing.Runs wrap)
    {p : Act W B V R} (hd : c.doing = wrap p)
    {after : Site W B → R → List (Note V) × Machine W B V}
    (hstep : ∀ site q, Machine.step? β σ ⟨site, { c with doing := wrap q } :: rest, o⟩ =
      some (Machine.stepAct β site c rest q wrap after))
    {site : Site W B} {n : List (Note V)} {m' : Machine W B V}
    (h : Machine.stepAct β site c rest p wrap after = (n, m')) (hk : (c :: rest).length ≤ k)
    (hk' : m'.calls.length ≤ k) :
    Ensemble.Run β σ (Ensemble.CallsWithin k) ⟨⟨site, c :: rest, o⟩, f, none⟩ n
      ⟨m', f, none⟩ := by
  have hc : c = { c with doing := wrap p } := by rw [← hd]
  rw [Machine.stepAct_run] at h
  obtain ⟨rfl, rfl⟩ := Prod.mk.inj h
  have hset : ∀ d ∈ ({ c with doing := wrap (p.run β site).1.rest } :: rest).head?,
      d.doing.Settled := by
    intro d hmem
    obtain rfl : { c with doing := wrap (p.run β site).1.rest } = d := by simpa using hmem
    exact hw.settled (Stop.settled_rest _)
  have hact := run_act (β := β) (σ := σ) (o := o) (f := f) hw hk p site
  rw [← hc] at hact
  exact hact.trans (.single (.turn hset (hstep _ _)) hk')

/-- **A step of the machine alone** is a run of the ensemble. -/
theorem Machine.run_step? {m m' : Machine W B V} {n : List (Note V)}
    (h : m.step? β σ = some (n, m')) (hk : m.calls.length ≤ k) (hk' : m'.calls.length ≤ k) :
    Ensemble.Run β σ (Ensemble.CallsWithin k) ⟨m, f, none⟩ n ⟨m', f, none⟩ := by
  obtain ⟨site, calls, o⟩ := m
  cases calls with
  | nil => simp [step?] at h
  | cons c rest =>
    -- Where there is no program, one step is one step.
    have hturn (hs : c.doing.Settled) :
        Ensemble.Run β σ (Ensemble.CallsWithin k) ⟨⟨site, c :: rest, o⟩, f, none⟩ n
          ⟨m', f, none⟩ := by
      refine .single (.turn (fun d hd ↦ ?_) h) hk'
      obtain rfl : c = d := by simpa using hd
      exact hs
    cases hd : c.doing with
    | first p =>
      simp only [step?, hd, Option.some.injEq] at h
      refine Ensemble.run_stepAct .first hd (fun site q ↦ ?_) h hk hk'
      rfl
    | poll id p =>
      simp only [step?, hd, Option.some.injEq] at h
      refine Ensemble.run_stepAct (.poll id) hd (fun site q ↦ ?_) h hk hk'
      rfl
    | announce p =>
      simp only [step?, hd, Option.some.injEq] at h
      refine Ensemble.run_stepAct .announce hd (fun site q ↦ ?_) h hk hk'
      rfl
    | asleep p =>
      simp only [step?, hd, Option.some.injEq] at h
      refine Ensemble.run_stepAct .asleep hd (fun site q ↦ ?_) h hk hk'
      rfl
    | pop => exact hturn (hd ▸ trivial)
    | check => exact hturn (hd ▸ trivial)
    | park => exact hturn (hd ▸ trivial)

/-- What is noted in as many steps as there are, up to a limit. -/
def Machine.trace (β : Behaviour W B V) (σ : Surroundings W B V) :
    Nat → Machine W B V → List (Note V)
  | 0, _ => []
  | limit + 1, m =>
    match m.step? β σ with
    | none => []
    | some (n, m) => n ++ m.trace β σ limit

/-- As many steps as there are, up to a limit, are a run. -/
theorem Machine.run_run (limit : Nat) {m : Machine W B V}
    (hk : ∀ i ≤ limit, (m.run β σ i).calls.length ≤ k) :
    Ensemble.Run β σ (Ensemble.CallsWithin k) ⟨m, f, none⟩ (m.trace β σ limit)
      ⟨m.run β σ limit, f, none⟩ := by
  induction limit generalizing m with
  | zero => exact .refl
  | succ limit ih =>
    cases hs : m.step? β σ with
    | none =>
      simp only [run, trace, hs]
      exact .refl
    | some r =>
      obtain ⟨n, m'⟩ := r
      have hrun (i : Nat) : m.run β σ (i + 1) = m'.run β σ i := by simp only [run, hs]
      have hm : m.calls.length ≤ k := hk 0 (Nat.zero_le _)
      have hm' : m'.calls.length ≤ k := by
        have hone := hk (0 + 1) (Nat.succ_le_succ (Nat.zero_le _))
        rw [hrun] at hone
        exact hone
      have hrest := ih (m := m') fun i hi ↦ hrun i ▸ hk (i + 1) (Nat.succ_le_succ hi)
      have htrace : m.trace β σ (limit + 1) = n ++ m'.trace β σ limit := by simp only [trace, hs]
      rw [hrun, htrace]
      exact (run_step? hs hm hm').trans hrest

/-- Whatever is measured after each of so many steps is bounded. -/
theorem exists_bound (f : Nat → Nat) (limit : Nat) : ∃ k, ∀ i ≤ limit, f i ≤ k := by
  induction limit with
  | zero => exact ⟨f 0, fun i hi ↦ Nat.le_of_eq (congrArg f (Nat.le_zero.1 hi))⟩
  | succ limit ih =>
    obtain ⟨k, hk⟩ := ih
    refine ⟨max k (f (limit + 1)), fun i hi ↦ ?_⟩
    rcases Nat.lt_or_ge limit i with hlt | hle
    · obtain rfl : i = limit + 1 := by omega
      exact Nat.le_max_right _ _
    · exact Nat.le_trans (hk i hle) (Nat.le_max_left _ _)

/-- **Running a task to completion** is a run of the ensemble, whatever the step limit, and ends
with the result and the site that are returned. -/
theorem Site.run_blockOn (s : Site W B) (limit : Nat) (b : B) :
    ∃ k h m, Ensemble.Run β σ (Ensemble.CallsWithin k) ⟨⟨s, [], o⟩, f, none⟩ h ⟨m, f, none⟩ ∧
      s.blockOn β σ limit b = (m.outcome.getD (.error .stalled), m.site) := by
  rcases he : Machine.enter β s [] b with ⟨n, m⟩
  obtain ⟨k, hk⟩ := exists_bound (fun i ↦ (m.run β σ i).calls.length) limit
  have hr := Machine.run_run (f := f) limit hk
  have henter : Ensemble.Step β σ ⟨⟨s, [], o⟩, f, none⟩ n ⟨m, f, none⟩ := .blockOn b rfl he
  refine ⟨k, _, m.run β σ limit, (Ensemble.Run.single henter (hk 0 (Nat.zero_le _))).trans hr, ?_⟩
  rw [Site.blockOn, he]

end

end TaskRuntime
