import TaskRuntime.Proofs.LikeRuns

/-!
# Another run to completion

A body that results in a value on its first poll may be run to completion for the sake of the tasks
that are left: its run takes an id, polls the body in place, and goes on in the scheduling loop if
there are tasks. `Ensemble.Resumption` is such a run. Others may act at any time.

## What is left out of the history

The history of a `Resumption` leaves out that an id is given out and that the body is polled in
place; from there on it tells what the loop does. Apart from that it is a run of the ensemble like
any other (`Resumption.run`), and all runs of the body are of this kind once its poll in place has
ended (`Going.resumption`).

## Nothing to poll

If no task is left, there is nothing to take up, and the loop does not poll (`Going.idle`).
-/

namespace TaskRuntime

variable {W B V R : Type} {β : Behaviour W B V} {σ : Surroundings W B V} {κ : Likeness W B}

/-- A body that results in a value on its first poll, whatever its waker is. -/
def Behaviour.Ready (β : Behaviour W B V) (body : B) : Prop :=
  ∀ w, ∃ v b, β.poll body w = .done (.ok (.ready v), b)

namespace Ensemble

/-- The ensemble after one more id has been given out. -/
def skip (s : Ensemble W B V) : Ensemble W B V :=
  { s with machine := { s.machine with site :=
      { s.machine.site with executor := s.machine.site.executor.allocate.2 } } }

/-- Any number of steps that others make, and their history. -/
inductive Asides (s₀ : Ensemble W B V) : List (Note V) → Ensemble W B V → Prop
  /-- No step. -/
  | refl : Asides s₀ [] s₀
  /-- One more step. -/
  | step {h s n s'} (hr : Asides s₀ h s) (hs : s.Aside n s') : Asides s₀ (h ++ n) s'

/-- **Another run to completion**, of a body that is ready at once. Others may act before it begins
and before its poll in place ends. The history leaves out what its beginning tells. -/
inductive Resumption (β : Behaviour W B V) (σ : Surroundings W B V) (body : B)
    (s : Ensemble W B V) : List (Note V) → Ensemble W B V → Prop
  /-- The run begins, its poll in place ends, and it goes on in the loop, if at all. -/
  | mk {x y h n n' u u' m m' t} (before : Asides s x u)
      (entered : Machine.enter β u.machine.site [] body = (n, m))
      (during : Asides ⟨m, u.flights, none⟩ y u') (polled : u'.machine.step? β σ = some (n', m'))
      (after : Going β σ ⟨m', u'.flights, none⟩ h t) : Resumption β σ body s (x ++ y ++ h) t

variable {s s' t t' u : Ensemble W B V} {h n : List (Note V)} {body : B}

/-! ### Others act -/

namespace Asides

theorem calls (hr : Asides s h u) : u.machine.calls = s.machine.calls := by
  induction hr with
  | refl => rfl
  | step _ hs ih => exact hs.calls.trans ih

theorem own (hr : Asides s h u) : u.own = s.own := by
  induction hr with
  | refl => rfl
  | step _ hs ih => exact hs.own.trans ih

theorem executor (hr : Asides s h u) : u.machine.site.executor = s.machine.site.executor := by
  induction hr with
  | refl => rfl
  | step _ hs ih =>
    rw [← ih]
    cases hs <;> rfl

/-- Others do not poll. -/
theorem not_began (hr : Asides s h u) (id : TaskId) (inPlace : Bool) :
    .began id inPlace ∉ h := by
  induction hr with
  | refl => simp
  | step _ hs ih =>
    intro hmem
    rcases List.mem_append.1 hmem with hmem | hmem
    · exact ih hmem
    · cases hs <;> simp at hmem

/-- What others do is a run. -/
theorem run (hr : Asides s h u) : Run β σ (fun _ ↦ True) s h u := by
  induction hr with
  | refl => exact .refl
  | step _ hs ih => exact ih.step hs.step trivial

/-- What others do goes on while a run to completion is going on. -/
theorem going (hr : Asides s h u) (hc : s.machine.calls ≠ []) : Going β σ s h u := by
  induction hr with
  | refl => exact .refl
  | step hr hs ih => exact ih.step (by rw [hr.calls]; exact hc) hs.step

/-- What others do on the one side can be done on the other. -/
theorem near (hr : Asides s h u) (hn : Near κ s t) :
    ∃ h' u', Asides t h' u' ∧ κ.Tells h h' ∧ Near κ u u' := by
  induction hr with
  | refl => exact ⟨[], t, .refl, .nil, hn⟩
  | step _ hs ih =>
    obtain ⟨h', u', hr', hh, hu⟩ := ih
    obtain ⟨n', v', hs', hn', hv⟩ := hs.near hu
    exact ⟨h' ++ n', v', hr'.step hs', hh.append hn', hv⟩

/-- Others do not notice which id is the next. -/
theorem skip (hr : Asides s h u) : Asides s.skip h u.skip := by
  induction hr with
  | refl => exact .refl
  | step _ hs ih =>
    refine ih.step ?_
    cases hs with
    | push w => exact .push w
    | notify h => exact .notify h
    | stray r => exact .stray r
    | world w => exact .world w
    | elsewhere h => exact .elsewhere h

end Asides

/-! ### Its phases -/

/-- A run of a body that is ready at once begins by giving out an id, and is at the end of its poll
in place. -/
theorem enter_of_ready {m : Machine W B V} {site : Site W B} (hbody : β.Ready body)
    (he : Machine.enter β site [] body = (n, m)) :
    m.site = { site with executor := site.executor.allocate.2 } ∧
      ∃ i v b, m.calls = [{ id := i, doing := .first (.done (.ok (.ready v), b)) }] := by
  obtain ⟨v, b, hpoll⟩ := hbody (site.executor.allocate.2.waker site.executor.allocate.1)
  obtain ⟨rfl, rfl⟩ := Prod.mk.inj he
  refine ⟨rfl, site.executor.allocate.1, v, b, ?_⟩
  rw [← hpoll]
  rfl

/-- A poll in place that has resulted in a value ends: the call goes on in the loop if there are
tasks, and returns if there are none. -/
theorem step?_of_ready {m : Machine W B V} {id : TaskId} {v : V} {b : B}
    (hc : m.calls = [{ id, doing := .first (.done (.ok (.ready v), b)) }]) :
    ∃ n m', m.step? β σ = some (n, m') ∧
      (m.site.executor.tasks.isEmpty = false →
        m'.site = m.site ∧ ∃ c, m'.calls = [c] ∧ c.doing = .pop) ∧
      (m.site.executor.tasks.isEmpty = true → m'.calls = []) := by
  obtain ⟨site, calls, o⟩ := m
  obtain rfl : calls = _ := hc
  let c : Call W B V := { id, doing := .first (.done (.ok (.ready v), b)) }
  let after := Machine.afterFirst β site c [] b (.ok (.ready v))
  have hstep : Machine.step? β σ ⟨site, [c], o⟩ =
      some (.ended id true (.ok (.ready v)) :: after.1, after.2) := rfl
  refine ⟨_, _, hstep, fun ht ↦ ?_, fun ht ↦ ?_⟩
  · simp only [after, Machine.afterFirst, show site.executor.tasks.isEmpty = false from ht]
    exact ⟨rfl, _, rfl, rfl⟩
  · simp only [after, Machine.afterFirst, show site.executor.tasks.isEmpty = true from ht]
    rfl

/-- A body that is ready at once can be run to completion, and gets to the end of its poll in
place. -/
theorem exists_polled (hbody : β.Ready body) (s : Ensemble W B V) :
    ∃ n n' m m', Machine.enter β s.machine.site [] body = (n, m) ∧
      m.step? β σ = some (n', m') ∧
      (s.machine.site.executor.tasks.isEmpty = false →
        m'.site = s.skip.machine.site ∧ ∃ c, m'.calls = [c] ∧ c.doing = .pop) := by
  rcases he : Machine.enter β s.machine.site [] body with ⟨n, m⟩
  obtain ⟨hsite, i, v, b, hcalls⟩ := enter_of_ready hbody he
  obtain ⟨n', m', hstep, hne, -⟩ := step?_of_ready (β := β) (σ := σ) hcalls
  refine ⟨n, n', m, m', rfl, hstep, fun ht ↦ ?_⟩
  rw [hsite] at hne
  exact hne ht

/-- **The phases of another run**: others act, the run begins, others act, the poll in place ends,
and from there on it is in the loop if there are tasks, and over if there are none. -/
theorem Resumption.phases (hr : Resumption β σ body s h t) (hbody : β.Ready body) :
    ∃ x y z u u' m m', h = x ++ y ++ z ∧ Asides s x u ∧ m.site = u.skip.machine.site ∧
      Asides ⟨m, u.flights, none⟩ y u' ∧ Going β σ ⟨m', u'.flights, none⟩ z t ∧
      (u'.machine.site.executor.tasks.isEmpty = false →
        m'.site = u'.machine.site ∧ ∃ c, m'.calls = [c] ∧ c.doing = .pop) ∧
      (u'.machine.site.executor.tasks.isEmpty = true → m'.calls = []) := by
  obtain @⟨x, y, z, n, n', u, u', m, m', _, before, entered, during, polled, after⟩ := hr
  obtain ⟨hsite, i, v, b, hcalls⟩ := enter_of_ready hbody entered
  obtain ⟨n'', m'', hstep, hends⟩ :=
    step?_of_ready (β := β) (σ := σ) (during.calls.trans hcalls)
  obtain ⟨rfl, rfl⟩ := Prod.mk.inj (Option.some.inj (polled.symm.trans hstep))
  exact ⟨x, y, z, u, u', m, m', rfl, before, hsite, during, after, hends⟩

/-! ### It is a run of the ensemble -/

/-- Another run to completion is a run of the ensemble, whose history also tells how it begins. -/
theorem Resumption.run (hr : Resumption β σ body s h t) (hc : s.machine.calls = [])
    (ho : s.own = none) (hbody : β.Ready body) :
    ∃ x n y n' z, h = x ++ y ++ z ∧ Run β σ (fun _ ↦ True) s (x ++ n ++ y ++ n' ++ z) t := by
  obtain @⟨x, y, z, n, n', u, u', m, m', _, before, entered, during, polled, after⟩ := hr
  obtain ⟨-, i, v, b, hcalls⟩ := enter_of_ready hbody entered
  have hbegin : Step β σ u n ⟨m, u.flights, none⟩ := by
    have huc : u.machine.calls = [] := before.calls.trans hc
    obtain ⟨mu, flights, own⟩ := u
    obtain rfl : own = none := before.own.trans ho
    exact .blockOn body huc entered
  have hend : Step β σ u' n' ⟨m', u'.flights, none⟩ := by
    have huc : u'.machine.calls = _ := during.calls.trans hcalls
    obtain ⟨mu, flights, own⟩ := u'
    obtain rfl : own = none := during.own
    refine .turn (fun c hmem ↦ ?_) polled
    dsimp only at huc
    rw [huc] at hmem
    obtain rfl := Option.mem_some.1 hmem
    trivial
  have hentered := before.run.step hbegin trivial
  have hpolled := (hentered.trans during.run).step hend trivial
  exact ⟨x, n, y, n', z, rfl, hpolled.trans after.run⟩

/-- Where a poll in place has come to its end, others act or the machine goes on. -/
theorem Step.aside_or_turn {c : Call W B V} {r : Polled V × B} (hs : Step β σ s n s')
    (hc : s.machine.calls = [c]) (hd : c.doing = .first (.done r)) (ho : s.own = none) :
    s.Aside n s' ∨
      s.machine.step? β σ = some (n, s'.machine) ∧ s' = ⟨s'.machine, s.flights, none⟩ := by
  have hne : s.machine.calls ≠ [] := by simp [hc]
  have hdone {R : Type} {wrap : Act W B V R → Doing W B V} {p : Act W B V R} {d rest}
      (hcalls : s.machine.calls = d :: rest) (hw : Doing.Runs wrap) (hdoing : d.doing = wrap p) :
      ∃ a, p = .done a := by
    rw [hc] at hcalls
    obtain ⟨rfl, -⟩ := List.cons.inj hcalls
    rw [hd] at hdoing
    cases hw with
    | first => exact ⟨r, (Doing.first.inj hdoing).symm⟩
    | _ => cases hdoing
  cases hs with
  | otherPush w => exact .inl (.push w)
  | otherNotify h => exact .inl (.notify h)
  | stray r => exact .inl (.stray r)
  | world w => exact .inl (.world w)
  | elsewhere h => exact .inl (.elsewhere h)
  | spawn b hcalls h => exact absurd hcalls hne
  | blockOn b hcalls h => exact absurd hcalls hne
  | sleep hcalls => exact absurd hcalls hne
  | request hcalls hw hdoing h =>
    obtain ⟨a, rfl⟩ := hdone hcalls hw hdoing
    cases h
  | push hcalls hw hdoing =>
    obtain ⟨a, ha⟩ := hdone hcalls hw hdoing
    cases ha
  | notify => cases ho
  | turn hset h => exact .inr ⟨h, rfl⟩

theorem Resumption.step (hr : Resumption β σ body s h t) (hc : t.machine.calls ≠ [])
    (hs : Step β σ t n t') : Resumption β σ body s (h ++ n) t' := by
  obtain ⟨before, entered, during, polled, after⟩ := hr
  rw [List.append_assoc]
  exact .mk before entered during polled (after.step hc hs)

/-- **A run of a body that is ready at once is another run to completion** in this sense, as soon as
its poll in place has ended. -/
theorem Going.resumption {x : List (Note V)} {m : Machine W B V} (hbody : β.Ready body)
    (before : Asides s x u) (entered : Machine.enter β u.machine.site [] body = (n, m))
    (hr : Going β σ ⟨m, u.flights, none⟩ h t) :
    Asides ⟨m, u.flights, none⟩ h t ∨
      ∃ y n' z, h = y ++ n' ++ z ∧ Resumption β σ body s (x ++ y ++ z) t := by
  obtain ⟨-, i, v, b, hcalls⟩ := enter_of_ready hbody entered
  induction hr with
  | refl => exact .inl .refl
  | @step y t n' t' _ hc hs ih =>
    rcases ih with during | ⟨y, k, z, rfl, hres⟩
    · rcases hs.aside_or_turn (during.calls.trans hcalls) rfl during.own with ha | ⟨hturn, ht⟩
      · exact .inl (during.step ha)
      · rw [ht]
        exact .inr ⟨y, n', [], by simp, .mk before entered during hturn .refl⟩
    · have hnext := hres.step hc hs
      rw [List.append_assoc] at hnext
      exact .inr ⟨y, k, z ++ n', by simp, hnext⟩

/-! ### Nothing to poll -/

/-- The only call is in the loop, between two polls, and no task is left. -/
def Idle (s : Ensemble W B V) : Prop :=
  ∃ c, s.machine.calls = [c] ∧ (c.doing = .pop ∨ c.doing = .check) ∧
    s.machine.site.executor.tasks.isEmpty = true

/-- What others do keeps a loop idle, and is no poll. -/
theorem Aside.idle (ha : s.Aside n s') (hi : s.Idle) :
    s'.Idle ∧ ∀ id inPlace, .began id inPlace ∉ n := by
  obtain ⟨c, hc, hd, ht⟩ := hi
  cases ha <;> exact ⟨⟨c, hc, hd, ht⟩, by simp⟩

/-- A turn of a loop without tasks leaves it idle or ends it, and begins no poll. -/
theorem Idle.turn {m m' : Machine W B V} {flights : List Waker} (hi : Idle ⟨m, flights, none⟩)
    (h : m.step? β σ = some (n, m')) :
    (m'.calls = [] ∨ Idle ⟨m', flights, none⟩) ∧ ∀ id inPlace, .began id inPlace ∉ n := by
  obtain ⟨c, hc, hd, ht⟩ := hi
  obtain ⟨⟨x, u, w⟩, calls, o⟩ := m
  obtain rfl : calls = [c] := hc
  rcases hd with hd | hd
  · simp only [Machine.step?, hd, Option.some.injEq] at h
    have hempty {id : TaskId} {b : B} (hg : x.tasks.get? id = some b) : False :=
      Table.not_contains_of_isEmpty ht id (Table.contains_of_get? hg)
    unfold Machine.stepPop at h
    split at h
    · obtain ⟨rfl, rfl⟩ := Prod.mk.inj h
      exact ⟨Or.inr ⟨_, rfl, Or.inr rfl, ht⟩, by simp⟩
    · dsimp only at h
      split at h
      · obtain ⟨rfl, rfl⟩ := Prod.mk.inj h
        exact ⟨Or.inr ⟨c, rfl, Or.inl hd, ht⟩, by simp⟩
      · next hg => exact (hempty hg).elim
  · simp only [Machine.step?, hd, Machine.stepCheck, show x.tasks.isEmpty = true from ht,
      if_true, Option.some.injEq] at h
    obtain ⟨ds, v, rfl, hds, -, hcalls⟩ := Machine.leave_spec h
    refine ⟨Or.inl hcalls, fun id inPlace hmem ↦ ?_⟩
    rcases List.mem_append.1 hmem with hmem | hmem
    · cases hds _ hmem
    · simp at hmem

/-- A loop without tasks stays idle or ends, and does not poll. -/
theorem Step.idle (hs : Step β σ s n s') (hi : s.Idle) :
    (s'.machine.calls = [] ∨ s'.Idle) ∧ ∀ id inPlace, .began id inPlace ∉ n := by
  obtain ⟨c, hc, hd, ht⟩ := hi
  have hne : s.machine.calls ≠ [] := by simp [hc]
  have haside (ha : s.Aside n s') :
      (s'.machine.calls = [] ∨ s'.Idle) ∧ ∀ id inPlace, .began id inPlace ∉ n :=
    (ha.idle ⟨c, hc, hd, ht⟩).imp_left Or.inr
  -- A call between two polls has no request.
  have hrequest {R : Type} {wrap : Act W B V R → Doing W B V} {p : Act W B V R} {d rest}
      (hcalls : s.machine.calls = d :: rest) (hw : Doing.Runs wrap) (hdoing : d.doing = wrap p) :
      False := by
    rw [hc] at hcalls
    obtain ⟨rfl, -⟩ := List.cons.inj hcalls
    rw [hdoing] at hd
    cases hw <;> simp at hd
  cases hs with
  | otherPush w => exact haside (.push w)
  | otherNotify h => exact haside (.notify h)
  | stray r => exact haside (.stray r)
  | world w => exact haside (.world w)
  | elsewhere h => exact haside (.elsewhere h)
  | spawn b hcalls h => exact absurd hcalls hne
  | blockOn b hcalls h => exact absurd hcalls hne
  | sleep hcalls => exact absurd hcalls hne
  | request hcalls hw hdoing h => exact (hrequest hcalls hw hdoing).elim
  | push hcalls hw hdoing => exact (hrequest hcalls hw hdoing).elim
  | notify => exact ⟨Or.inr ⟨c, hc, hd, ht⟩, by simp⟩
  | turn hset h => exact Idle.turn ⟨c, hc, hd, ht⟩ h

/-- **A loop without tasks does not poll.** -/
theorem Going.idle {s₀ : Ensemble W B V} (hr : Going β σ s₀ h s) (hi : s₀.Idle) :
    (s.machine.calls = [] ∨ s.Idle) ∧ ∀ id inPlace, .began id inPlace ∉ h := by
  induction hr with
  | refl => exact ⟨Or.inr hi, by simp⟩
  | step _ hc hs ih =>
    obtain ⟨hnext, hn⟩ := hs.idle (ih.1.resolve_left hc)
    refine ⟨hnext, fun id inPlace hmem ↦ ?_⟩
    rcases List.mem_append.1 hmem with hmem | hmem
    · exact ih.2 id inPlace hmem
    · exact hn id inPlace hmem

/-- Nothing goes on where no run is going on. -/
theorem Going.eq_of_nil {s₀ : Ensemble W B V} (hr : Going β σ s₀ h s)
    (hc : s₀.machine.calls = []) : h = [] ∧ s = s₀ := by
  induction hr with
  | refl => exact ⟨rfl, rfl⟩
  | step _ hne _ ih => exact absurd (ih.2 ▸ hc) hne

/-- **If no task is left, another run is over at once**, and does not poll in the loop. -/
theorem Resumption.idle (hr : Resumption β σ body s h t) (hbody : β.Ready body)
    (ht : s.machine.site.executor.tasks.isEmpty = true) :
    t.machine.calls = [] ∧ ∀ id inPlace, .began id inPlace ∉ h := by
  obtain ⟨x, y, z, u, u', m, m', rfl, before, hsite, during, after, -, hnil⟩ := hr.phases hbody
  have htasks : u'.machine.site.executor.tasks.isEmpty = true := by
    rw [during.executor]
    show m.site.executor.tasks.isEmpty = true
    rw [hsite]
    show u.machine.site.executor.tasks.isEmpty = true
    rw [before.executor, ht]
  obtain ⟨rfl, rfl⟩ := after.eq_of_nil (hnil htasks)
  refine ⟨hnil htasks, fun id inPlace hmem ↦ ?_⟩
  simp only [List.append_nil, List.mem_append] at hmem
  exact hmem.elim (before.not_began id inPlace) (during.not_began id inPlace)

end Ensemble

end TaskRuntime
