import TaskRuntime.Proofs.Alone
import TaskRuntime.Proofs.Queued

/-!
# No wake is lost

As long as no poll runs a task to completion, every task in the table that has yet to be polled by
the loop, or has been woken after its most recent poll began, is queued.

## The window of a poll

A task that is being polled is not in the table, so a wake in that window queues an id that looks
like a stale one. What rescues it is that nobody pops in that window. Therefore the statement that
is kept from step to step is not about the table alone: `Machine.Remembers` is about the tasks that
are in the table or are being polled by the loop. Such a task is not popped as stale, and a note
that it is polled is the only other one that takes its id off the queue.
-/

namespace TaskRuntime

variable {W B V : Type} {β : Behaviour W B V} {σ : Surroundings W B V}

/-! ### What is remembered -/

namespace Machine

variable {m m' : Machine W B V} {n h : List (Note V)} {id : TaskId}

/-- No poll waits for a run to completion: below the active call, nobody polls. -/
def Unnested (m : Machine W B V) : Prop := ∀ c ∈ m.calls.tail, c.polls? = none

/-- A task that is in the table, or that the loop is polling. -/
def Owns (m : Machine W B V) (id : TaskId) : Prop := m.Tabled id ∨ (id, false) ∈ m.polled

/-- A task that has been queued after its latest poll by the loop began has not been taken off the
queue since. -/
def Remembers (m : Machine W B V) (h : List (Note V)) : Prop :=
  ∀ id, m.Owns id →
    Since (Note.Queues m.site.executor.queue id) (fun k ↦ k = .began id false) h →
      Since (Note.Queues m.site.executor.queue id) (Note.Takes id) h

theorem Owns.present (hid : m.Owns id) : Present m.Tabled m.polled id :=
  hid.imp_right fun hp ↦ ⟨false, hp⟩

/-- While nothing is nested, an id that is popped as stale is that of no task. -/
theorem Move.not_present_of_stale (hm : Move β σ m n m') (hu : m'.Unnested) (hk : .stale id ∈ n) :
    ¬ Present m.Tabled m.polled id ∧ ¬ Present m'.Tabled m'.polled id := by
  obtain ⟨⟨c, rest, hc, hd⟩, -, hpop⟩ := hm.popped hk (Note.takes_iff.2 (Or.inr rfl))
  cases hpop with
  | began _ => simp at hk
  | stale hid hcalls htasks =>
    have hpolled : m.polled = [] := by
      rw [polled, hc, List.filterMap_cons_none (by rw [Call.polls?, hd]),
        List.filterMap_eq_nil_iff]
      intro d hmem
      refine hu d ?_
      rw [hcalls, hc]
      exact hmem
    have hpolled' : m'.polled = [] := by rw [polled, hcalls, ← polled, hpolled]
    have hid' : ¬ m'.Tabled id := by rw [Tabled, htasks]; exact hid
    rw [hpolled, hpolled']
    exact ⟨fun hp ↦ hp.elim hid (by simp), fun hp ↦ hp.elim hid' (by simp)⟩

end Machine

/-- A task that is in the table or polled by the loop has been so before, or has just entered the
table. -/
theorem Passage.owned {t t' : TaskId → Prop} {f f' : List (TaskId × Bool)} {n : List (Note V)}
    {id : TaskId} (hp : Passage V t f n t' f') (hid : t' id ∨ (id, false) ∈ f') :
    (t id ∨ (id, false) ∈ f) ∨ Since (fun k ↦ k = .entered id) (Note.Takes id) n := by
  have hentered {i : TaskId} {k : Note V} {ds : List (Note V)} (hn : ∀ k ∈ ds, k = .destroyed i)
      (hi : id = i) : Since (fun k ↦ k = .entered id) (Note.Takes id) (k :: .entered i :: ds) := by
    refine ⟨[k], .entered i, ds, rfl, hi ▸ rfl, fun d hd ↦ ?_⟩
    rw [hn d hd]
    exact not_false
  cases hp with
  | still hn ht => exact Or.inl (hid.imp_left (ht id).1)
  | spawned i hn ht =>
    rcases hid with hid | hid
    · exact ((ht id).1 hid).symm.imp Or.inl (hentered hn)
    · exact Or.inl (Or.inr hid)
  | opened i ht => exact Or.inl (hid.imp (ht id).1 fun hid ↦ by simpa using hid)
  | began i hi ht =>
    rcases hid with hid | hid
    · exact Or.inl (Or.inl ((ht id).1 hid).2)
    · rcases List.mem_cons.1 hid with he | hid
      · obtain rfl : id = i := congrArg Prod.fst he
        exact Or.inl (Or.inl hi)
      · exact Or.inl (Or.inr hid)
  | admitted i hn ht =>
    rcases hid with hid | hid
    · exact ((ht id).1 hid).symm.imp Or.inl (hentered hn)
    · exact Or.inl (Or.inr (List.mem_cons_of_mem _ hid))
  | pended i hn ht =>
    rcases hid with hid | hid
    · rcases (ht id).1 hid with rfl | hid
      · exact Or.inl (Or.inr List.mem_cons_self)
      · exact Or.inl (Or.inl hid)
    · exact Or.inl (Or.inr (List.mem_cons_of_mem _ hid))
  | resolved i inPlace v hn ht => exact Or.inl (hid.imp (ht id).1 (List.mem_cons_of_mem _))
  | failed i inPlace e hn ht => exact Or.inl (hid.imp (ht id).1 (List.mem_cons_of_mem _))

/-- **A step forgets nothing**, as long as nothing is nested. -/
theorem Machine.Move.remembers {m m' : Machine W B V} {h n : List (Note V)} (hm : Move β σ m n m')
    (hu : m'.Unnested) (hr : m.Remembers h) : m'.Remembers (h ++ n) := by
  intro id hid hs
  have hstale : .stale id ∉ n := fun hk ↦ (hm.not_present_of_stale hu hk).2 hid.present
  have htakes : ∀ k ∈ n, k.Takes id → k = .began id false := fun k hk ht ↦
    (Note.takes_iff.1 ht).resolve_right fun e ↦ hstale (e ▸ hk)
  rw [hm.queue_eq] at hs ⊢
  rw [since_append] at hs ⊢
  -- The task has been queued in this step, or before it and not been polled in it.
  rcases hs with hn | ⟨hh, hno⟩
  · exact Or.inl (hn.mono (fun k hk ↦ hk) htakes)
  · rcases hm.passage.owned hid with hown | hentered
    · exact Or.inr ⟨hr id hown hh, fun k hk ht ↦ hno k hk (htakes k hk ht)⟩
    · refine Or.inl (hentered.mono (fun k hk ↦ ?_) fun k _ hk ↦ hk)
      rw [hk]
      exact rfl

/-! ### Runs -/

namespace Ensemble

variable {P : Ensemble W B V → Prop} {site : Site W B} {s : Ensemble W B V} {h : List (Note V)}
  {id : TaskId}

/-- **No run forgets anything**, as long as nothing is nested. -/
theorem Run.remembers (hr : Run β σ (fun s ↦ s.machine.Unnested) (.start site) h s) :
    s.machine.Remembers h := by
  induction hr with
  | refl => exact fun id _ hs ↦ absurd hs not_since_nil
  | step _ hs hu ih => exact hs.move.remembers hu ih

/-- A task in the table, or polled by the loop, has entered the table. -/
theorem Run.entered_of_owns (hs : site.Fresh) (hr : Run β σ P (.start site) h s)
    (hid : s.machine.Owns id) : .entered id ∈ h := by
  induction hr with
  | refl =>
    rcases hid with hid | hid
    · simp [start, Machine.Tabled, hs.tasks] at hid
    · simp [start, Machine.polled] at hid
  | step _ hstep _ ih =>
    rcases hstep.move.passage.owned hid with hown | hentered
    · exact List.mem_append_left _ (ih hown)
    · obtain ⟨k, hk, rfl⟩ := hentered.exists_mem
      exact List.mem_append_right _ hk

/-- A task that has to be polled: it has not been polled by the loop, or not since it entered the
table, or it has been woken after its most recent poll began. -/
def Due (x : Executor B) (id : TaskId) (h : List (Note V)) : Prop :=
  .began id false ∉ h ∨
    Since (fun k ↦ k = .entered id) (fun k ↦ k = .began id false) h ∨
      Since (fun k ↦ k = .woke (x.waker id)) (fun k ↦ ∃ inPlace, k = .began id inPlace) h

/-- What is due has been queued after its latest poll by the loop began. -/
theorem Due.since_queues {x : Executor B} (hd : Due x id h) (he : .entered id ∈ h) :
    Since (Note.Queues x.queue id) (fun k ↦ k = .began id false) h := by
  rcases hd with hnever | hentered | hwoken
  · obtain ⟨before, after, rfl⟩ := List.append_of_mem he
    exact ⟨before, .entered id, after, rfl, rfl, fun k hk e ↦ hnever (e ▸ by simp [hk])⟩
  · exact hentered.mono (fun k hk ↦ hk ▸ rfl) fun k _ hk ↦ hk
  · exact hwoken.mono (fun k hk ↦ hk ▸ Note.queues_woke_waker x id) fun k _ hk ↦ ⟨false, hk⟩

/-- **No wake is lost.** As long as no poll runs a task to completion, every task in the table that
has to be polled is queued, and no queued id of an unresolved task is ever dropped as stale. -/
theorem Run.queued_of_due (hs : site.Fresh)
    (hr : Run β σ (fun s ↦ s.machine.Unnested) (.start site) h s) :
    (∀ id, s.machine.Tabled id → Due s.machine.site.executor id h → id ∈ s.machine.site.ready) ∧
      ∀ before id after, h = before ++ .stale id :: after → ¬ Unresolved id before := by
  constructor
  · intro id ht hd
    have hqueues := hd.since_queues (hr.entered_of_owns hs (Or.inl ht))
    have hlaw := hr.law (Signals.Law.fresh hs)
    exact (hlaw.mem_iff id).2 (hr.remembers id (Or.inl ht) hqueues)
  · rintro before id after rfl hu
    obtain ⟨h₁, x, y, h₂, s₁, s₂, hr₁, hstep, hu₂, -, rfl, -⟩ := hr.exists_step rfl
    have hm := hstep.move
    have hk : .stale id ∈ x ++ .stale id :: y := by simp
    -- A pop is the whole of its step, so the note is the first of it.
    obtain rfl : x = [] := by
      have hpop := (hm.popped hk (Note.takes_iff.2 (Or.inr rfl))).2.2
      generalize hn : x ++ .stale id :: y = n at hpop
      cases hpop <;> cases x <;> simp_all
    rw [List.append_nil] at hu
    exact (hm.not_present_of_stale hu₂ hk).1 (hr₁.unresolved id hu)

theorem CallsWithin.unnested (hc : s.CallsWithin 1) : s.machine.Unnested := by
  intro c hmem
  have hlen : s.machine.calls.tail.length = 0 := by
    rw [List.length_tail]
    exact Nat.sub_eq_zero_of_le hc
  rw [List.length_eq_zero_iff.1 hlen] at hmem
  cases hmem

/-- Bodies that wake themselves whenever they are polled, and are never done. -/
def restless : Behaviour Unit Unit Unit where
  poll _ w := .wake w (.done (.ok .pending, ()))
  drop _ w := w

/-- A body that has woken itself while it was polled in place, before it was in the table, is
queued. -/
theorem restless_queued :
    ∃ h s, Run restless .still (fun s ↦ s.machine.Unnested) (.start (.blank ())) h s ∧
      s.machine.Tabled 1 ∧ Due s.machine.site.executor 1 h ∧ 1 ∈ s.machine.site.ready := by
  have henter : Run restless .still (CallsWithin 1) (.start (.blank ())) _ _ :=
    .single (.blockOn () rfl rfl) (Nat.le_refl _)
  have hpoll := henter.trans (Machine.run_step? (k := 1) rfl (Nat.le_refl _) (Nat.le_refl _))
  have hrun : Run restless .still (fun s ↦ s.machine.Unnested) (.start (.blank ()))
      [.issued 1, .began 1 true, .woke ⟨some ⟨0⟩, 1, some ⟨0⟩⟩, .ended 1 true (.ok .pending),
        .entered 1] _ := hpoll.mono fun _ ↦ CallsWithin.unnested
  refine ⟨_, _, hrun, rfl, ?woken, (hrun.queued_of_due (Site.fresh_blank ())).1 1 rfl ?woken⟩
  exact Or.inr (Or.inr
    ⟨[.issued 1, .began 1 true], _, [.ended 1 true (.ok .pending), .entered 1], rfl, rfl, by simp⟩)

end Ensemble

end TaskRuntime
