import TaskRuntime.Proofs.Figures
import TaskRuntime.Proofs.Parking

/-!
# Runs to completion that fail

A poll by the scheduling loop that fails ends the run to completion, and so does an announcement of
a parking that fails. What is left is a machine without calls whose executor and signals are what
they were in the middle of the poll or of the announcement (`Machine.Fails`); all that has happened
besides is that the task that failed has been destroyed, and after it the task that the call held.

## Parkings

An announcement comes before the parking that it announces is counted. So one that fails leaves no
trace in the figures: the executor has counted the parkings that have come about, and no others
(`Ensemble.Run.parks`).
-/

namespace TaskRuntime

variable {W B V R : Type} {β : Behaviour W B V} {σ : Surroundings W B V}

/-! ### How often the thread has parked -/

namespace Note

/-- The thread has parked. -/
def parks : Note V → Bool
  | .parked => true
  | _ => false

end Note

namespace Machine

/-- A step from a site has counted the parkings that it tells. -/
def CountsParks (site : Site W B) (r : List (Note V) × Machine W B V) : Prop :=
  r.2.site.executor.parks = site.executor.parks + r.1.countP Note.parks

namespace CountsParks

variable {site site' : Site W B} {r : List (Note V) × Machine W B V} {n : List (Note V)}

/-- Notes of other kinds come first, and the figure stays as it is. -/
theorem prepend (h : CountsParks site' r)
    (hs : site'.executor.parks = site.executor.parks)
    (hn : ∀ k ∈ n, k.parks = false) : CountsParks site (n ++ r.1, r.2) := by
  have hzero : n.countP Note.parks = 0 := List.countP_eq_zero.2 fun k hk ↦ by simp [hn k hk]
  rw [CountsParks, List.countP_append, hzero, Nat.zero_add, ← hs]
  exact h

/-- A call ends. -/
theorem leave {c : Call W B V} {rest : List (Call W B V)} {result : Except Failure (Option V)} :
    CountsParks site (leave β site c rest result) := by
  rcases h : Machine.leave β site c rest result with ⟨n, m⟩
  have hnone := forall_of_leave (p := (·.parks = false)) h rfl rfl
  have hzero : n.countP Note.parks = 0 := List.countP_eq_zero.2 fun k hk ↦ by simp [hnone k hk]
  rw [CountsParks, hzero, (of_leave h).1, Nat.add_zero]

/-- A poll in place ends. -/
theorem afterFirst {c : Call W B V} {rest : List (Call W B V)} {b : B} (result : Polled V) :
    CountsParks site (afterFirst β site c rest b result) := by
  match result with
  | .error e => exact leave.prepend rfl (by simp [Note.parks])
  | .ok .pending =>
    rcases h : site.enqueue (V := V) β c.id b with ⟨n, site'⟩
    obtain ⟨ds, tasks, w, rfl, hds, rfl, -⟩ := Site.enqueue_spec h
    have hzero : (Note.entered c.id :: ds).countP Note.parks = 0 := by
      refine List.countP_eq_zero.2 (List.forall_mem_cons.2 ⟨by simp [Note.parks], ?_⟩)
      exact Note.forall_of_destroyed hds (by simp [Note.parks])
    simp only [Machine.afterFirst, h, CountsParks, hzero, Nat.add_zero]
  | .ok (.ready v) =>
    rw [Machine.afterFirst]
    dsimp only
    split
    · exact leave
    · rfl

/-- A poll by the loop ends. -/
theorem afterPoll {c : Call W B V} {rest : List (Call W B V)} {id : TaskId} {b : B}
    (result : Polled V) : CountsParks site (afterPoll β site c rest id b result) := by
  match result with
  | .error e => exact leave.prepend rfl (by simp [Note.parks])
  | .ok .pending =>
    rcases h : site.insert (V := V) β id b with ⟨n, site'⟩
    obtain ⟨hds, tasks, w, rfl, -⟩ := Site.insert_spec h
    have hzero : n.countP Note.parks = 0 :=
      List.countP_eq_zero.2 (Note.forall_of_destroyed hds (by simp [Note.parks]))
    simp only [Machine.afterPoll, h, CountsParks, hzero, Nat.add_zero]
  | .ok (.ready v) => rfl

/-- An id is popped, or none is there. -/
theorem stepPop {c : Call W B V} {rest : List (Call W B V)} :
    CountsParks site (stepPop β site c rest) := by
  unfold Machine.stepPop
  split
  · rfl
  · dsimp only
    split <;> rfl

/-- The loop decides whether to stop, to park or to go on. -/
theorem stepCheck {c : Call W B V} {rest : List (Call W B V)} :
    CountsParks site (stepCheck β σ site c rest) := by
  unfold Machine.stepCheck
  split
  · exact (leave : CountsParks { site with world := σ.finished site.world } _)
  split
  · split <;> rfl
  · rfl

/-- A program has ended, or runs a task to completion. -/
theorem stepAct {c : Call W B V} {rest : List (Call W B V)} {p : Act W B V R} (hp : p.Settled)
    {wait : Act W B V R → Doing W B V} {after : Site W B → R → List (Note V) × Machine W B V}
    (hafter : ∀ r, CountsParks site (after site r)) :
    CountsParks site (stepAct β site c rest p wait after) := by
  cases p with
  | done r => exact hafter r
  | blockOn b k => rfl
  | _ => exact hp.elim

end CountsParks

/-- A turn counts the parkings that it tells. -/
theorem countsParks_of_step? {m : Machine W B V} (hs : ∀ c ∈ m.calls.head?, c.doing.Settled)
    {r : List (Note V) × Machine W B V} (h : m.step? β σ = some r) : CountsParks m.site r := by
  obtain ⟨site, calls, o⟩ := m
  cases calls with
  | nil => simp [step?] at h
  | cons c rest =>
    have hset : c.doing.Settled := hs c rfl
    cases hd : c.doing with
    | pop =>
      simp only [step?, hd, Option.some.injEq] at h
      exact h ▸ .stepPop
    | check =>
      simp only [step?, hd, Option.some.injEq] at h
      exact h ▸ .stepCheck
    | park =>
      simp only [step?, hd, Option.map_eq_some_iff] at h
      obtain ⟨signals, -, rfl⟩ := h
      rfl
    | first p =>
      simp only [step?, hd, Option.some.injEq] at h
      rw [hd] at hset
      refine h ▸ .stepAct hset fun r ↦ ?_
      exact (CountsParks.afterFirst r.1).prepend (n := [.ended c.id true r.1]) rfl
        (by simp [Note.parks])
    | poll id p =>
      simp only [step?, hd, Option.some.injEq] at h
      rw [hd] at hset
      refine h ▸ .stepAct hset fun r ↦ ?_
      exact (CountsParks.afterPoll r.1).prepend (n := [.ended id false r.1]) rfl
        (by simp [Note.parks])
    | announce p =>
      simp only [step?, hd, Option.some.injEq] at h
      rw [hd] at hset
      refine h ▸ .stepAct hset fun r ↦ ?_
      cases r with
      | error e => exact .leave
      | ok u => rfl
    | asleep p =>
      simp only [step?, hd, Option.some.injEq] at h
      rw [hd] at hset
      exact h ▸ .stepAct hset fun r ↦ rfl

end Machine

namespace Ensemble

variable {P : Ensemble W B V → Prop} {s₀ s s' : Ensemble W B V} {h n : List (Note V)}

/-- A step counts the parkings that it tells. -/
theorem Step.parks (hs : Step β σ s n s') :
    s'.machine.site.executor.parks = s.machine.site.executor.parks + n.countP Note.parks := by
  have hspawn {site site' : Site W B} {id : TaskId} {b : B} {n : List (Note V)}
      (h : site.spawn β b = (id, n, site')) :
      site'.executor.parks = site.executor.parks + n.countP Note.parks := by
    obtain ⟨-, ds, tasks, w, rfl, hds, rfl, -⟩ := Site.spawn_spec h
    have hzero : (Note.issued id :: Note.entered id :: ds).countP Note.parks = 0 := by
      refine List.countP_eq_zero.2 (List.forall_mem_cons.2 ⟨by simp [Note.parks],
        List.forall_mem_cons.2 ⟨by simp [Note.parks], ?_⟩⟩)
      exact Note.forall_of_destroyed hds (by simp [Note.parks])
    rw [hzero]
    rfl
  cases hs with
  | turn hset h => exact Machine.countsParks_of_step? hset h
  | @request m _ _ _ _ _ _ _ p _ _ _ _ h =>
    cases p with
    | spawn b k =>
      rcases hb : m.site.spawn β b with ⟨id, notes, site⟩
      obtain ⟨rfl, -, rfl⟩ : notes = n ∧ _ ∧ site = _ := by simpa [Act.request?, hb] using h
      exact hspawn hb
    | done r => simp [Act.request?] at h
    | wake w k => simp [Act.request?] at h
    | blockOn b k => simp [Act.request?] at h
    | _ =>
      obtain ⟨rfl, -, rfl⟩ : [] = n ∧ _ ∧ _ := by simpa [Act.request?] using h
      rfl
  | spawn b hc h => exact hspawn h
  | blockOn b hc h =>
    obtain ⟨rfl, rfl⟩ := Prod.mk.inj h
    rfl
  | _ => rfl

/-- **The executor has counted the parkings that have come about.** -/
theorem Run.parks (hr : Run β σ P s₀ h s) :
    s.machine.site.executor.parks = s₀.machine.site.executor.parks + h.countP Note.parks := by
  induction hr with
  | refl => rfl
  | step _ hs _ ih => rw [hs.parks, ih, List.countP_append, Nat.add_assoc]

end Ensemble

/-! ### What is left of a run that fails -/

/-- **A run to completion has failed**, and the executor is left as it was. -/
structure Machine.Fails (m : Machine W B V) (e : Failure) (m' : Machine W B V) : Prop where
  /-- The failure has come out of the outermost call. -/
  outcome : m'.outcome = some (.error e)
  /-- No call is left. -/
  calls : m'.calls = []
  /-- Table, figures and next id are what they were. -/
  executor : m'.site.executor = m.site.executor
  /-- Ready queue and token are what they were. -/
  signals : m'.site.signals = m.site.signals

/-- What is left of a world when a call has destroyed what it holds. -/
def Call.release (β : Behaviour W B V) (c : Call W B V) (w : W) : W :=
  c.held.elim w fun b ↦ β.drop b w

namespace Machine

variable {m m' : Machine W B V} {c : Call W B V} {n : List (Note V)} {e : Failure}

/-- The machine as it would be if the poll of its only call had resulted in a value. -/
def instead (m : Machine W B V) (c : Call W B V) (id : TaskId) (v : V) (b : B) : Machine W B V :=
  { m with calls := [{ c with doing := .poll id (.done (.ok (.ready v), b)) }] }

/-- A poll that results in a value leaves the call in the loop, and the task is destroyed as
well. -/
theorem step?_instead (m : Machine W B V) (c : Call W B V) (id : TaskId) (v : V) (b : B) :
    ∃ d : Call W B V, d.doing = .pop ∧
      (m.instead c id v b).step? β σ = some ([.ended id false (.ok (.ready v)), .destroyed id],
        ⟨⟨m.site.executor, m.site.signals, β.drop b m.site.world⟩, [d], none⟩) := by
  by_cases hid : c.id = id
  · refine ⟨{ c with slot := some v, doing := .pop }, rfl, ?_⟩
    simp [instead, step?, stepAct, Act.run, afterPoll, Site.destroy, fill, hid]
  · refine ⟨{ c with doing := .pop }, rfl, ?_⟩
    simp [instead, step?, stepAct, Act.run, afterPoll, Site.destroy, fill, hid]

end Machine

end TaskRuntime
