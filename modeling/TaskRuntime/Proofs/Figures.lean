import TaskRuntime.Proofs.Replay

/-!
# What the figures count

An executor counts the tasks that have entered its table, the polls of its scheduling loops, and the
ids that it has dropped as stale. The history tells the same: each figure is the number of the notes
of one kind (`Ensemble.Run.tallies`).

How often the thread has parked is not among these figures.
-/

namespace TaskRuntime

variable {W B V : Type}

/-! ### The notes that are counted -/

namespace Note

/-- A task has entered the table. -/
def enters : Note V → Bool
  | .entered _ => true
  | _ => false

/-- A scheduling loop has begun to poll. -/
def polls : Note V → Bool
  | .began _ false => true
  | _ => false

/-- A queued id has been dropped. -/
def drops : Note V → Bool
  | .stale _ => true
  | _ => false

/-- A silent note is not counted. -/
theorem Silent.uncounted {k : Note V} (hk : k.Silent) :
    k.enters = false ∧ k.polls = false ∧ k.drops = false := by
  cases k with
  | entered i => exact hk.elim
  | stale i => exact hk.elim
  | began i inPlace =>
    cases inPlace with
    | false => exact hk.elim
    | true => exact ⟨rfl, rfl, rfl⟩
  | _ => exact ⟨rfl, rfl, rfl⟩

end Note

/-- Every id that has been taken off the ready queue has been polled or dropped. -/
theorem length_takenIds (h : List (Note V)) :
    (takenIds h).length = h.countP Note.polls + h.countP Note.drops := by
  rw [takenIds, List.length_filterMap_eq_countP]
  induction h with
  | nil => rfl
  | cons k h ih =>
    have hk : (if (Note.taken? k).isSome then 1 else 0) =
        (if k.polls then 1 else 0) + if k.drops then 1 else 0 := by
      cases k with
      | began i inPlace => cases inPlace <;> rfl
      | _ => rfl
    rw [List.countP_cons, List.countP_cons, List.countP_cons, ih, hk]
    omega

/-! ### One step -/

/-- An executor has counted what some notes tell. -/
structure Executor.Tallies (x : Executor B) (n : List (Note V)) (x' : Executor B) : Prop where
  /-- The tasks that have entered the table. -/
  spawned : x'.spawned = x.spawned + n.countP Note.enters
  /-- The polls by the loop. -/
  polls : x'.polls = x.polls + n.countP Note.polls
  /-- The ids that were dropped. -/
  stale : x'.stale = x.stale + n.countP Note.drops

namespace Executor.Tallies

variable {x x' y : Executor B} {h n : List (Note V)}

theorem append (hx : x.Tallies h y) (hy : y.Tallies n x') : x.Tallies (h ++ n) x' := by
  refine ⟨?_, ?_, ?_⟩
  · rw [hy.spawned, hx.spawned, List.countP_append, Nat.add_assoc]
  · rw [hy.polls, hx.polls, List.countP_append, Nat.add_assoc]
  · rw [hy.stale, hx.stale, List.countP_append, Nat.add_assoc]

/-- Silent notes, and no figure has changed. -/
theorem silent (hs : x'.spawned = x.spawned) (hp : x'.polls = x.polls) (hd : x'.stale = x.stale)
    (hn : ∀ k ∈ n, k.Silent) : x.Tallies n x' := by
  refine ⟨?_, ?_, ?_⟩
  · rw [hs, List.countP_eq_zero.2 fun k hk ↦ by simp [(hn k hk).uncounted], Nat.add_zero]
  · rw [hp, List.countP_eq_zero.2 fun k hk ↦ by simp [(hn k hk).uncounted], Nat.add_zero]
  · rw [hd, List.countP_eq_zero.2 fun k hk ↦ by simp [(hn k hk).uncounted], Nat.add_zero]

/-- A task has entered the table, with silent notes around. -/
theorem entered {l r : List (Note V)} (id : TaskId) (hl : ∀ k ∈ l, k.Silent)
    (hr : ∀ k ∈ r, k.Silent) (hs : x'.spawned = x.spawned + 1) (hp : x'.polls = x.polls)
    (hd : x'.stale = x.stale) : x.Tallies (l ++ .entered id :: r) x' := by
  have hfront : x.Tallies l x := .silent rfl rfl rfl hl
  have hone : x.Tallies [(.entered id : Note V)] x' := ⟨hs, hp, hd⟩
  exact hfront.append (hone.append (.silent rfl rfl rfl hr))

end Executor.Tallies

namespace Machine

variable {β : Behaviour W B V} {σ : Surroundings W B V} {m m' : Machine W B V}
  {h n : List (Note V)}

/-- A call ends, after silent notes. -/
theorem tallies_of_leave {x : Executor B} {site : Site W B} {c : Call W B V}
    {rest : List (Call W B V)} {result : Except Failure (Option V)} (front : List (Note V))
    (hm : leave β site c rest result = (n, m')) (hn : ∀ k ∈ front, k.Silent)
    (hx : site.executor = x) : x.Tallies (front ++ n) m'.site.executor := by
  rw [(of_leave hm).1, hx]
  exact .silent rfl rfl rfl (List.forall_mem_append.2 ⟨hn, silent_of_leave hm⟩)

theorem Turn.tallies (hm : Turn β σ m n m') : m.site.executor.Tallies n m'.site.executor := by
  cases hm with
  | entered _ he =>
    obtain ⟨rfl, rfl⟩ := Prod.mk.inj he
    exact .silent rfl rfl rfl (by simp [Note.Silent])
  | shifted _ hn =>
    refine .silent rfl rfl rfl fun k hk ↦ ?_
    rcases hn with rfl | rfl
    · simp at hk
    · rw [List.mem_singleton.1 hk]
      trivial
  | @firstFailed _ c _ _ _ e _ _ _ he =>
    exact tallies_of_leave [.ended c.id true (.error e), .destroyed c.id] he
      (by simp [Note.Silent]) rfl
  | @firstPended _ _ c _ _ _ _ _ he =>
    obtain ⟨ds, tasks, w, rfl, hds, rfl, -⟩ := Site.enqueue_spec he
    exact .entered (l := [.ended c.id true (.ok .pending)]) c.id (by simp [Note.Silent])
      (Note.forall_of_destroyed hds trivial) rfl rfl rfl
  | @firstReturned _ c _ _ _ v _ _ _ _ he =>
    exact tallies_of_leave [.ended c.id true (.ok (.ready v))] he (by simp [Note.Silent]) rfl
  | firstResolved => exact .silent rfl rfl rfl (by simp [Note.Silent])
  | stale _ _ _ => exact ⟨rfl, rfl, rfl⟩
  | began _ _ _ => exact ⟨rfl, rfl, rfl⟩
  | @pollFailed _ _ _ _ id _ e _ _ _ he =>
    exact tallies_of_leave [.ended id false (.error e), .destroyed id] he
      (by simp [Note.Silent]) rfl
  | pollPended _ he =>
    obtain ⟨hds, tasks, w, rfl, -⟩ := Site.insert_spec he
    refine .silent rfl rfl rfl (List.forall_mem_cons.2 ⟨trivial, ?_⟩)
    exact Note.forall_of_destroyed hds trivial
  | pollResolved => exact .silent rfl rfl rfl (by simp [Note.Silent])
  | finished _ _ he => exact tallies_of_leave [] he (by simp) rfl
  | announceFailed _ he => exact tallies_of_leave [] he (by simp) rfl

/-- A move counts what it notes. -/
theorem Move.tallies (hm : Move β σ m n m') : m.site.executor.Tallies n m'.site.executor := by
  cases hm with
  | quiet _ _ _ => exact ⟨rfl, rfl, rfl⟩
  | woke u _ => exact ⟨rfl, rfl, rfl⟩
  | @spawned _ _ id _ _ _ _ _ hs _ =>
    obtain ⟨-, ds, tasks, w, rfl, hds, rfl, -⟩ := Site.spawn_spec hs
    exact .entered (l := [.issued id]) id (by simp [Note.Silent])
      (Note.forall_of_destroyed hds trivial) rfl rfl rfl
  | turned ht => exact ht.tallies

end Machine

/-! ### Runs -/

/-- **An executor that has just been made, and has counted nothing.** -/
structure Site.Unused (s : Site W B) : Prop extends s.Fresh where
  /-- No task has entered the table. -/
  spawned : s.executor.spawned = 0
  /-- No loop has polled. -/
  polls : s.executor.polls = 0
  /-- No id has been dropped. -/
  stale : s.executor.stale = 0

theorem Site.unused_blank (w : W) : (blank w : Site W B).Unused :=
  { fresh_blank w with spawned := rfl, polls := rfl, stale := rfl }

/-- **The figures count the notes.** -/
theorem Ensemble.Run.tallies {β : Behaviour W B V} {σ : Surroundings W B V}
    {P : Ensemble W B V → Prop} {s₀ s : Ensemble W B V} {h : List (Note V)}
    (hr : Run β σ P s₀ h s) : s₀.machine.site.executor.Tallies h s.machine.site.executor := by
  induction hr with
  | refl => exact ⟨rfl, rfl, rfl⟩
  | step _ hs _ ih => exact ih.append hs.move.tallies

end TaskRuntime
