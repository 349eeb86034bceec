import TaskRuntime.Proofs.Alone
import TaskRuntime.Proofs.Queued

/-!
# Wakes during a poll that runs a task to completion

A poll that runs a task to completion lets another scheduling loop pop from the same ready queue.
That loop finds no task in the table for the id of a task that is being polled, and drops the id as
a stale one. So a wake of the polled task outlives the poll exactly when it comes after the last
such pop; a wake that does not outlive it is gone, and the task is not polled again before somebody
wakes it anew.

Only a nested loop can do this: while nothing is run to completion, the active call is in the middle
of the poll, and does not pop.
-/

namespace TaskRuntime

variable {W B V : Type} {β : Behaviour W B V} {σ : Surroundings W B V}

/-! ### How a poll by the loop begins, goes on and ends -/

namespace Machine

variable {m m' : Machine W B V} {n h : List (Note V)} {id : TaskId}

theorem Polling.advance {site site' : Site W B} {calls calls' : List (Call W B V)}
    {o : Option (Except Failure (Option V))} (hp : Polling ⟨site, calls, o⟩ id)
    (ha : Call.Advance calls calls') : Polling ⟨site', calls', o⟩ id := by
  obtain ⟨c, rest, p, hc, hd⟩ := hp
  cases ha with
  | same => exact ⟨c, rest, p, hc, hd⟩
  | head hw hd' _ =>
    obtain ⟨rfl, rfl⟩ := List.cons.inj hc
    rw [hd] at hd'
    cases hw <;> cases hd'
    exact ⟨_, _, _, rfl, rfl⟩

theorem Shift.not_poll {x : Executor B} {s s' : Signals} {d d' : Doing W B V}
    (h : Shift σ x s d s' d') (p : Act W B V (Polled V × B)) : d ≠ .poll id p := by
  cases h <;> simp

/-- A poll by the loop goes on until it ends, or waits for a run to completion. -/
theorem Turn.polling (hm : Turn β σ m n m') (hp : m.Polling id) :
    (∃ result, .ended id false result ∈ n) ∨ ∃ i, .began i true ∈ n := by
  obtain ⟨c, rest, p, hc, hd⟩ := hp
  cases hm with
  | entered _ h =>
    obtain ⟨rfl, rfl⟩ := Prod.mk.inj h
    exact Or.inr ⟨_, List.mem_cons_of_mem _ List.mem_cons_self⟩
  | shifted hs _ =>
    obtain ⟨rfl, rfl⟩ := List.cons.inj hc
    exact absurd hd (hs.not_poll p)
  | pollFailed hd' _ =>
    obtain ⟨rfl, rfl⟩ := List.cons.inj hc
    obtain ⟨rfl, -⟩ := Doing.poll.inj (hd.symm.trans hd')
    exact Or.inl ⟨_, List.mem_cons_self⟩
  | pollPended hd' _ =>
    obtain ⟨rfl, rfl⟩ := List.cons.inj hc
    obtain ⟨rfl, -⟩ := Doing.poll.inj (hd.symm.trans hd')
    exact Or.inl ⟨_, List.mem_cons_self⟩
  | pollResolved hd' =>
    obtain ⟨rfl, rfl⟩ := List.cons.inj hc
    obtain ⟨rfl, -⟩ := Doing.poll.inj (hd.symm.trans hd')
    exact Or.inl ⟨_, List.mem_cons_self⟩
  | firstFailed hd' _ | firstPended hd' _ | firstReturned hd' _ _ | firstResolved hd' _
  | stale hd' _ _ | began hd' _ _ | finished hd' _ _ | announceFailed hd' _ =>
    obtain ⟨rfl, rfl⟩ := List.cons.inj hc
    cases hd.symm.trans hd'

/-- A poll by the loop goes on until it ends, or waits for a run to completion. -/
theorem Move.polling (hm : Move β σ m n m') (hp : m.Polling id) :
    (∃ result, .ended id false result ∈ n) ∨ (∃ i, .began i true ∈ n) ∨ m'.Polling id := by
  cases hm with
  | quiet _ _ hc => exact Or.inr (Or.inr (hp.advance hc))
  | woke _ hc => exact Or.inr (Or.inr (hp.advance hc))
  | spawned _ hc => exact Or.inr (Or.inr (hp.advance hc))
  | turned ht => exact (ht.polling hp).imp_right Or.inl

end Machine

/-- A poll that leaves its task pending ends with the task in the table. -/
theorem Passage.of_pended {t t' : TaskId → Prop} {f f' : List (TaskId × Bool)} {ds : List (Note V)}
    {id : TaskId} (hp : Passage V t f (.ended id false (.ok .pending) :: ds) t' f') :
    t' id ∧ ∀ k ∈ ds, k = .destroyed id := by
  cases hp with
  | still hn _ => exact (hn _ List.mem_cons_self).elim
  | pended _ hn ht => exact ⟨(ht id).2 (Or.inl rfl), hn⟩

namespace Ensemble

variable {P : Ensemble W B V → Prop} {site : Site W B} {s s₁ s₂ s₃ s₄ : Ensemble W B V}
  {h h₀ h₁ ds : List (Note V)} {id : TaskId}

/-- While nothing is run to completion and the poll has not ended, the active call is polling. -/
theorem Run.polling (hr : Run β σ P s₂ h s) (hp : s₂.machine.Polling id)
    (hend : ∀ result, .ended id false result ∉ h) :
    (∃ i, .began i true ∈ h) ∨ s.machine.Polling id := by
  induction hr with
  | refl => exact Or.inr hp
  | step _ hs _ ih =>
    rcases ih fun result hk ↦ hend result (List.mem_append_left _ hk) with ⟨i, hi⟩ | hp
    · exact Or.inl ⟨i, List.mem_append_left _ hi⟩
    · rcases hs.move.polling hp with ⟨result, hk⟩ | ⟨i, hi⟩ | hp
      · exact absurd (List.mem_append_right _ hk) (hend result)
      · exact Or.inl ⟨i, List.mem_append_right _ hi⟩
      · exact Or.inr hp

/-- An id is popped as stale during a poll of its task only if something is run to completion. -/
theorem Run.nested_of_stale (hr : Run β σ P s₂ h s) (hp : s₂.machine.Polling id)
    (hend : ∀ result, .ended id false result ∉ h) (hk : .stale id ∈ h) :
    ∃ i, .began i true ∈ h := by
  obtain ⟨before, after, rfl⟩ := List.append_of_mem hk
  obtain ⟨h₁, x, y, h₂, s₁, s₃, hr₁, hs, -, -, rfl, -⟩ := hr.exists_step rfl
  -- If nothing has been run to completion so far, the active call is polling, and cannot pop.
  rcases hr₁.polling hp fun result hk ↦ hend result (by simp [hk]) with ⟨i, hi⟩ | hpoll
  · exact ⟨i, by simp [hi]⟩
  · obtain ⟨⟨c, rest, hc, hd⟩, -⟩ :=
      hs.move.popped (List.mem_append_right _ List.mem_cons_self) (Note.takes_iff.2 (Or.inr rfl))
    obtain ⟨c', rest', p, hc', hd'⟩ := hpoll
    obtain ⟨rfl, rfl⟩ := List.cons.inj (hc.symm.trans hc')
    rw [hd] at hd'
    cases hd'

/-- **What becomes of the wakes of a task during a poll of it.** After a poll by the loop that
leaves its task pending, the task is back in the table, and its id is queued exactly if it has been
queued during the poll and not been popped as stale after that. Such a pop takes a run to completion
within the poll. If the id is not queued, the task is not polled again before somebody queues it
anew. -/
theorem Run.queued_after_poll (hs : site.Fresh) (hr₀ : Run β σ P (.start site) h₀ s₁)
    (hb : Step β σ s₁ [.began id false] s₂) (hr₁ : Run β σ P s₂ h₁ s₃)
    (hbegan : .began id false ∉ h₁) (hend : ∀ result, .ended id false result ∉ h₁)
    (he : Step β σ s₃ (.ended id false (.ok .pending) :: ds) s₄) :
    s₄.machine.Tabled id ∧
      (id ∈ s₄.machine.site.ready ↔
        Since (Note.Queues site.executor.queue id) (fun k ↦ k = .stale id) h₁) ∧
      (.stale id ∈ h₁ → ∃ i, .began i true ∈ h₁) ∧
      (id ∉ s₄.machine.site.ready → ∀ h₂ s₅, Run β σ P s₄ h₂ s₅ →
        ∀ before after, h₂ = before ++ .began id false :: after →
          ∃ k ∈ before, k.Queues site.executor.queue id) := by
  obtain ⟨htabled, hds⟩ := he.move.passage.of_pended
  have hlaw₂ := hb.move.law (hr₀.law (Signals.Law.fresh hs))
  have hlaw₄ := he.move.law (hr₁.law hlaw₂)
  have hq : s₄.machine.site.executor.queue = site.executor.queue :=
    (he.move.queue_eq.trans hr₁.queue_eq).trans (hb.move.queue_eq.trans hr₀.queue_eq)
  have hsilent : ∀ k ∈ Note.ended id false (.ok .pending) :: ds, k.Silent :=
    List.forall_mem_cons.2 ⟨trivial, Note.forall_of_destroyed hds trivial⟩
  have htakes : ∀ k ∈ h₁, k.Takes id ↔ k = .stale id := fun k hk ↦
    ⟨fun ht ↦ (Note.takes_iff.1 ht).resolve_left fun e ↦ hbegan (e ▸ hk),
      fun e ↦ Note.takes_iff.2 (Or.inr e)⟩
  refine ⟨htabled, ?_, hr₁.nested_of_stale (hb.move.popped List.mem_cons_self rfl).2.2.polling hend,
    fun hid h₂ s₅ hr₂ before after hh ↦ ?_⟩
  · -- Neither the beginning nor the end of the poll queues anything: what counts is in between.
    have hmem := hlaw₄.mem_iff id
    rw [since_append_of_silent (fun k hk ↦ (hsilent k hk).not_queues _ _)
      fun k hk ↦ (hsilent k hk).not_takes _, since_append, since_concat, hq] at hmem
    rw [Site.ready, hq, hmem]
    constructor
    · rintro (hh | ⟨hbad | hbad, -⟩)
      · exact hh.mono (fun k hk ↦ hk) fun k hk e ↦ (htakes k hk).2 e
      · exact hbad.elim
      · exact absurd rfl hbad.2
    · exact fun hh ↦ Or.inl (hh.mono (fun k hk ↦ hk) fun k hk ht ↦ (htakes k hk).1 ht)
  · obtain ⟨h₃, x, y, h₄, s₆, s₇, hr₃, hstep, -, -, rfl, -⟩ := hr₂.exists_step hh
    have hready := (hstep.move.popped (List.mem_append_right _ List.mem_cons_self)
      (Note.takes_iff.2 (Or.inl rfl))).2.1
    have hmem := ((hr₃.law hlaw₄).mem_iff id).1 hready
    rcases since_append.1 hmem with hsince | ⟨hsince, -⟩
    · obtain ⟨k, hk, hkq⟩ := hsince.exists_mem
      rw [hr₃.queue_eq, hq] at hkq
      exact ⟨k, List.mem_append_left _ hk, hkq⟩
    · rw [hr₃.queue_eq] at hsince
      exact absurd ((hlaw₄.mem_iff id).2 hsince) hid

/-! ### A wake that is lost -/

/-- Body `0` wakes itself and runs body `1` to completion whenever it is polled, and is never done.
Body `1` is done on its second poll, and any other on its first. -/
def nesting : Behaviour Unit Nat Unit where
  poll
    | 0, w => .wake w (.blockOn 1 fun _ ↦ .done (.ok .pending, 0))
    | 1, _ => .done (.ok .pending, 2)
    | _, _ => .done (.ok (.ready ()), 3)
  drop _ w := w

/-- Body `0` is spawned, and body `2` run to completion: the ensemble after so many steps of the
machine. -/
def nested (steps : Nat) : Ensemble Unit Nat Unit :=
  ⟨(Machine.enter nesting ((Site.blank ()).spawn nesting 0).2.2 [] 2).2.run nesting .still steps,
    [], none⟩

theorem run_nested_before : Run nesting .still (CallsWithin 2) (.start (.blank ()))
    [.issued 1, .entered 1, .issued 2, .began 2 true, .ended 2 true (.ok (.ready ()))]
    (nested 1) := by
  have hspawn : Run nesting .still (CallsWithin 2) (.start (.blank ())) _ _ :=
    .single (.spawn 0 rfl rfl) (Nat.zero_le _)
  have hblock := hspawn.trans (.single (.blockOn 2 rfl rfl) (Nat.le_succ 1))
  exact hblock.trans (Machine.run_run 1 (by decide))

theorem step_nested_began : Step nesting .still (nested 1) [.began 1 false] (nested 2) :=
  .turn (fun _ hc ↦ Option.mem_some.1 hc ▸ trivial) rfl

/-- What happens during the poll of body `0`. -/
def nestedPoll : List (Note Unit) :=
  [.woke ⟨some ⟨0⟩, 1, some ⟨0⟩⟩, .issued 3, .began 3 true, .ended 3 true (.ok .pending),
    .entered 3, .began 3 false, .ended 3 false (.ok (.ready ())), .destroyed 3, .stale 1,
    .returned 3 (.ok (some ()))]

theorem run_nested_poll :
    Run nesting .still (CallsWithin 2) (nested 2) nestedPoll (nested 9) :=
  Machine.run_run (m := (nested 2).machine) 7 (by decide)

theorem step_nested_ended :
    Step nesting .still (nested 9) [.ended 1 false (.ok .pending)] (nested 10) :=
  .turn (fun _ hc ↦ Option.mem_some.1 hc ▸ trivial) rfl

/-- A task wakes itself and then runs another one to completion: the nested loop pops the id of the
task and drops it, so the task is pending without being queued. -/
theorem nested_wake_lost :
    ∃ h₀ h₁ s₁ s₂ s₃ s₄, Run nesting .still (CallsWithin 2) (.start (.blank ())) h₀ s₁ ∧
      Step nesting .still s₁ [.began 1 false] s₂ ∧
      Run nesting .still (CallsWithin 2) s₂ h₁ s₃ ∧
      .woke (s₂.machine.site.executor.waker 1) ∈ h₁ ∧ .stale 1 ∈ h₁ ∧
      Step nesting .still s₃ [.ended 1 false (.ok .pending)] s₄ ∧
      s₄.machine.Tabled 1 ∧ 1 ∉ s₄.machine.site.ready :=
  ⟨_, _, _, _, _, _, run_nested_before, step_nested_began, run_nested_poll, List.mem_cons_self,
    by simp [nestedPoll], step_nested_ended, rfl, List.not_mem_nil⟩

/-- The nested loop has dropped the id after the task was woken, which takes a run to completion. -/
theorem queued_after_poll_nested :
    (nested 10).machine.Tabled 1 ∧
      (1 ∈ (nested 10).machine.site.ready ↔
        Since (Note.Queues ⟨0⟩ 1) (fun k ↦ k = .stale 1) nestedPoll) ∧
      ∃ i, .began i true ∈ nestedPoll := by
  obtain ⟨htabled, hready, hnested, -⟩ := run_nested_before.queued_after_poll (Site.fresh_blank ())
    step_nested_began run_nested_poll (by simp [nestedPoll]) (by simp [nestedPoll])
    step_nested_ended
  exact ⟨htabled, hready, hnested (by simp [nestedPoll])⟩

end Ensemble

end TaskRuntime
