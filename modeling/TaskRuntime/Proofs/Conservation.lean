import TaskRuntime.Proofs.Figures
import TaskRuntime.Proofs.Nesting
import TaskRuntime.Proofs.Places

/-!
# Conservation of tasks and of wakes

What an executor tells about itself balances at every moment, however its tasks spawn, wake, fail
and run one another to completion:

* A task that has entered the table is in the table, or is being polled, or has been destroyed.
* The tasks that have entered the table are those in the table, those that a loop has resolved,
  those that have failed in a poll by a loop, and those that a loop is polling.
* The pushes that the ready queue has accepted are the polls by a loop, the ids that were dropped,
  and the ids that are queued.

So no loop polls a task without a cause: every poll takes off an id that somebody has queued, and
any number of wakes before it are one cause (`Ensemble.Conserved`).
-/

namespace TaskRuntime

variable {W B V : Type} {β : Behaviour W B V} {σ : Surroundings W B V}

/-! ### The balance of tasks -/

namespace Note

/-- A poll by a loop has resulted in a value. -/
def resolves : Note V → Bool
  | .ended _ false (.ok (.ready _)) => true
  | _ => false

/-- A poll by a loop has failed. -/
def fails : Note V → Bool
  | .ended _ false (.error _) => true
  | _ => false

/-- A note that tells nothing about where a task is counts for nothing. -/
theorem Idle.unweighed {k : Note V} (hk : k.Idle) :
    k.enters = false ∧ k.resolves = false ∧ k.fails = false := by
  cases k <;> first | exact hk.elim | exact ⟨rfl, rfl, rfl⟩

end Note

/-- How many tasks loops are polling. -/
def loopPolls (f : List (TaskId × Bool)) : Nat := f.countP (!·.2)

/-- How many tasks loops have resolved, and how many have failed in polls by loops. -/
def settled (h : List (Note V)) : Nat := h.countP Note.resolves + h.countP Note.fails

theorem settled_append (h n : List (Note V)) : settled (h ++ n) = settled h + settled n := by
  rw [settled, settled, settled, List.countP_append, List.countP_append]
  omega

section

variable {t t' : TaskId → Prop} {f f' : List (TaskId × Bool)} {h n : List (Note V)}
  {l l' : List TaskId}

/-- Notes that tell nothing about where a task is add nothing to the balance. -/
theorem weigh_append_of_idle (h : List (Note V)) (hn : ∀ k ∈ n, k.Idle) :
    (h ++ n).countP Note.enters = h.countP Note.enters ∧ settled (h ++ n) = settled h := by
  have he : n.countP Note.enters = 0 :=
    List.countP_eq_zero.2 fun k hk ↦ by simp [(hn k hk).unweighed]
  have hr : n.countP Note.resolves = 0 :=
    List.countP_eq_zero.2 fun k hk ↦ by simp [(hn k hk).unweighed]
  have hf : n.countP Note.fails = 0 :=
    List.countP_eq_zero.2 fun k hk ↦ by simp [(hn k hk).unweighed]
  refine ⟨by rw [List.countP_append, he, Nat.add_zero], ?_⟩
  rw [settled_append, settled.eq_def n, hr, hf]
  rfl

/-- Two lists of the same ids, each without repetition, are equally long. -/
theorem length_eq_of_mem_iff (hl : l.Nodup) (hl' : l'.Nodup) (hm : ∀ i, i ∈ l' ↔ i ∈ l) :
    l'.length = l.length :=
  ((List.perm_ext_iff_of_nodup hl' hl).2 hm).length_eq

/-- **A passage keeps the balance of tasks**: `l` and `l'` list the tasks in the table before and
after it. -/
theorem Passage.balance (hp : Passage V t f n t' f') (hb : Books t f h)
    (hnd : (issuedIds (h ++ n)).Nodup) (hl : l.Nodup) (hl' : l'.Nodup) (ht : ∀ i, i ∈ l ↔ t i)
    (ht' : ∀ i, i ∈ l' ↔ t' i) :
    l'.length + loopPolls f' + settled n = l.length + loopPolls f + n.countP Note.enters := by
  -- A task that is new to the table makes it longer, one that leaves it makes it shorter.
  have hinsert {i : TaskId} (hi : ¬ t i) (h' : ∀ j, t' j ↔ j = i ∨ t j) :
      l'.length = l.length + 1 :=
    length_eq_of_mem_iff (List.nodup_cons.2 ⟨fun hm ↦ hi ((ht i).1 hm), hl⟩) hl'
      fun j ↦ by rw [ht', h', List.mem_cons, ht]
  have hsame (h' : ∀ j, t' j ↔ t j) : l'.length = l.length :=
    length_eq_of_mem_iff hl hl' fun j ↦ by rw [ht', h', ht]
  have hnot {i : TaskId} {ip : Bool} {g : List (TaskId × Bool)}
      (hb : Books t ((i, ip) :: g) h) : ¬ t i := fun hi ↦ by
    have hphase := (hb.polling i ip).2 List.mem_cons_self
    rw [(hb.waiting i).2 hi] at hphase
    cases hphase
  have hdestroyed {i : TaskId} {ds : List (Note V)} (hds : ∀ k ∈ ds, k = .destroyed i) :
      ∀ k ∈ ds, k.Idle := Note.forall_of_destroyed hds trivial
  have hpolls (i : TaskId) (ip : Bool) (g : List (TaskId × Bool)) :
      loopPolls ((i, ip) :: g) = loopPolls g + if ip then 0 else 1 := by
    rw [loopPolls, List.countP_cons, loopPolls]
    cases ip <;> rfl
  cases hp with
  | still hn h' =>
    obtain ⟨he, hs⟩ := weigh_append_of_idle [] hn
    rw [List.nil_append] at he hs
    rw [hsame h', he, hs]
    rfl
  | @spawned _ _ ds i hds h' =>
    have hi := hb.not_tabled_of_unborn (hb.unborn (not_issued_of_nodup hnd List.mem_cons_self))
    obtain ⟨he, hs⟩ : _ = 1 ∧ _ = 0 :=
      weigh_append_of_idle [.issued i, .entered i] (hdestroyed hds)
    show _ + settled ([.issued i, .entered i] ++ ds) = _ + List.countP _ ([_, _] ++ ds)
    rw [hinsert hi h', he, hs]
    omega
  | opened i h' =>
    rw [hsame h', hpolls]
    rfl
  | began i hi h' =>
    -- The task that is polled has been in the table.
    have hlen : l.length = l'.length + 1 :=
      length_eq_of_mem_iff (List.nodup_cons.2 ⟨fun hm ↦ ((h' i).1 ((ht' i).1 hm)).1 rfl, hl'⟩) hl
        fun j ↦ by
          rw [ht, List.mem_cons, ht', h']
          by_cases hj : j = i
          · simp [hj, hi]
          · simp [hj]
    rw [hpolls, hlen]
    show _ + 0 = _ + 0
    simp
    omega
  | @admitted _ _ ds i hds h' =>
    obtain ⟨he, hs⟩ : _ = 1 ∧ _ = 0 :=
      weigh_append_of_idle [.ended i true (.ok .pending), .entered i] (hdestroyed hds)
    show _ + settled ([.ended i true (.ok .pending), .entered i] ++ ds) =
      _ + List.countP _ ([_, _] ++ ds)
    rw [hinsert (hnot hb) h', he, hs, hpolls, if_pos rfl]
    omega
  | @pended _ _ ds i hds h' =>
    obtain ⟨he, hs⟩ : _ = 0 ∧ _ = 0 :=
      weigh_append_of_idle [.ended i false (.ok .pending)] (hdestroyed hds)
    show _ + settled ([.ended i false (.ok .pending)] ++ ds) = _ + List.countP _ ([_] ++ ds)
    rw [hinsert (hnot hb) h', he, hs, hpolls, if_neg Bool.false_ne_true]
    omega
  | @resolved _ _ ds i inPlace v hds h' =>
    obtain ⟨he, hs⟩ := weigh_append_of_idle [.ended i inPlace (.ok (.ready v))] hds
    show _ + settled ([.ended i inPlace (.ok (.ready v))] ++ ds) = _ + List.countP _ ([_] ++ ds)
    rw [hsame h', he, hs, hpolls]
    cases inPlace <;> rfl
  | @failed _ _ ds i inPlace e hds h' =>
    obtain ⟨he, hs⟩ := weigh_append_of_idle [.ended i inPlace (.error e)] hds
    show _ + settled ([.ended i inPlace (.error e)] ++ ds) = _ + List.countP _ ([_] ++ ds)
    rw [hsame h', he, hs, hpolls]
    cases inPlace <;> rfl

end

/-- A pop is the whole of its step. -/
theorem Machine.Popped.eq_nil {m m' : Machine W B V} {id : TaskId} {x y : List (Note V)}
    {k : Note V} (hp : Machine.Popped m m' id (x ++ k :: y)) : x = [] := by
  generalize hn : x ++ k :: y = n at hp
  cases hp <;> cases x <;> simp_all

namespace Ensemble

variable {P : Ensemble W B V → Prop} {site : Site W B} {s s₁ : Ensemble W B V}
  {h h₁ h₂ h₃ : List (Note V)} {id : TaskId}

/-- **The balance of tasks.** The tasks that have entered the table are those in it, those that
loops are polling, and those that are settled. -/
theorem Run.balance (hs : site.Fresh) (hr : Run β σ P (.start site) h s)
    (hlen : (issuedIds h).length ≤ UInt64.size) :
    s.machine.site.executor.tasks.size + loopPolls s.machine.polled + settled h =
      h.countP Note.enters := by
  have hsize (m : Machine W B V) :
      m.site.executor.tasks.size = m.site.executor.tasks.keys.length :=
    (List.length_map _).symm
  induction hr with
  | refl =>
    rw [start, hs.tasks]
    rfl
  | @step h s n s' hr hstep hp ih =>
    have hlen' := length_issuedIds_le hlen
    have hbal := hstep.move.passage.balance (hr.books hs hlen')
      ((hr.step hstep hp).nodup_issuedIds hs hlen) s.machine.site.executor.tasks.distinct
      s'.machine.site.executor.tasks.distinct (fun i ↦ Table.mem_keys_iff)
      fun i ↦ Table.mem_keys_iff
    have hold := ih hlen'
    rw [hsize] at hold ⊢
    rw [List.countP_append, settled_append]
    change s'.machine.site.executor.tasks.keys.length + _ + _ =
      s.machine.site.executor.tasks.keys.length + _ + _ at hbal
    omega

/-- The poll of a task by a loop takes off an id that has been queued and not been taken off. -/
theorem Run.since_queues_of_began (hs : site.Fresh) (hr : Run β σ P (.start site) h s)
    (hh : h = h₁ ++ .began id false :: h₂) :
    Since (Note.Queues site.executor.queue id) (Note.Takes id) h₁ := by
  obtain ⟨g, x, y, g', s₁, s₂, hr₁, hstep, -, -, rfl, -⟩ := hr.exists_step hh
  obtain ⟨-, hready, hpop⟩ := hstep.move.popped (List.mem_append_right _ List.mem_cons_self)
    (Note.takes_iff.2 (Or.inl rfl))
  obtain rfl := hpop.eq_nil
  have hq : s₁.machine.site.executor.queue = site.executor.queue := hr₁.queue_eq
  rw [List.append_nil, ← hq]
  exact ((hr₁.law (Signals.Law.fresh hs)).mem_iff id).1 hready

/-- **No task is polled without a cause**: between two polls of it by loops, somebody wakes it. -/
theorem Run.woke_between (hs : site.Fresh) (hr : Run β σ P (.start site) h s)
    (hlen : (issuedIds h).length ≤ UInt64.size)
    (hh : h = h₁ ++ .began id false :: h₂ ++ .began id false :: h₃) :
    ∃ w, .woke w ∈ h₂ ∧ w.id = id ∧ w.queue = some site.executor.queue ∧ w.parker ≠ none := by
  have hsince := hr.since_queues_of_began hs hh
  -- What queues the task comes after the first of the two polls.
  rw [List.append_cons, since_append, since_concat] at hsince
  have hqueues : Since (Note.Queues site.executor.queue id) (Note.Takes id) h₂ := by
    rcases hsince with hsince | ⟨hbegan | ⟨-, hno⟩, -⟩
    · exact hsince
    · exact hbegan.elim
    · exact absurd rfl hno
  obtain ⟨k, hk, hkq⟩ := hqueues.exists_mem
  cases k with
  | woke w => exact ⟨w, hk, hkq.2.2, hkq.1, hkq.2.1⟩
  | entered i =>
    -- A task that has been polled by a loop does not enter the table.
    obtain rfl : i = id := hkq
    have hlate : ((phase i h₁).after i [.began i false]).Late := by
      rw [Phase.after_of_subject rfl]
      cases phase i h₁ with
      | polling inPlace => cases inPlace <;> trivial
      | _ => trivial
    have hspoilt : phase i h = .spoilt := by
      rw [hh, List.append_assoc, List.cons_append, phase_append, ← List.singleton_append,
        Phase.after_append]
      exact hlate.spoilt_of_entered (List.mem_append_left _ hk)
    exact absurd hspoilt ((hr.books hs hlen).sound i).1
  | _ => exact hkq.elim

/-- **Any number of wakes are one cause**: an id that is queued, however often it has been pushed,
is taken off once or still queued, as long as nobody queues it anew. -/
theorem Run.once (hs : site.Fresh) (hr₁ : Run β σ P (.start site) h₁ s₁)
    (hr₂ : Run β σ P s₁ h₂ s)
    (hq : Since (Note.Queues site.executor.queue id) (Note.Takes id) h₁)
    (hno : ∀ k ∈ h₂, ¬ k.Queues site.executor.queue id) :
    (takenIds h₂).count id + s.machine.site.ready.count id = 1 := by
  have hq₁ : s₁.machine.site.executor.queue = site.executor.queue := hr₁.queue_eq
  have hqs : s.machine.site.executor.queue = site.executor.queue := hr₂.queue_eq.trans hq₁
  have hlaw : s₁.machine.Law h₁ := hr₁.law (Signals.Law.fresh hs)
  have hbal₁ := (hr₁.replays hs).balance.count_eq id
  have hbal₂ := ((hr₁.trans hr₂).replays hs).balance.count_eq id
  rw [Machine.Law, hq₁] at hlaw
  rw [hq₁, ReadyQueue.accepted] at hbal₁
  rw [hqs, ReadyQueue.accepted, ReadyQueue.replay_append, takenIds_append] at hbal₂
  have hone : (s₁.machine.site.signals.queue site.executor.queue).ids.count id = 1 :=
    List.count_eq_one_of_mem hlaw.queue.synced.nodup ((hlaw.mem_iff id).2 hq)
  have hnone := ReadyQueue.count_replay_of_not_queues
    (ReadyQueue.replay site.executor.queue {} h₁).2 hno
  simp only [List.count_append] at hbal₁ hbal₂
  rw [Site.ready, hqs]
  omega

/-- **Tasks and wakes are conserved.** -/
structure Conserved (site : Site W B) (h : List (Note V)) (s : Ensemble W B V) : Prop where
  /-- A task that has entered the table is in the table, or being polled once, or has been destroyed
  once. -/
  place : ∀ id, .entered id ∈ h →
    s.machine.site.executor.tasks.keys.count id + (s.machine.polled.map Prod.fst).count id +
      (destroyedIds h).count id = 1
  /-- The tasks that have entered the table are those in it, those that a loop has resolved, those
  that have failed in a poll by a loop, and those that a loop is polling. -/
  spawned : s.machine.site.figures.spawned =
    s.machine.site.figures.tasks + h.countP Note.resolves + h.countP Note.fails +
      s.machine.polled.countP (!·.2)
  /-- The accepted pushes are the polls by a loop, the ids that were dropped, and those that are
  queued. -/
  accepted : (ReadyQueue.accepted site.executor.queue h).length =
    s.machine.site.figures.polls + s.machine.site.figures.stale + s.machine.site.figures.ready
  /-- Between two polls of a task by loops, somebody wakes the task. -/
  cause : ∀ id h₁ h₂ h₃, h = h₁ ++ .began id false :: h₂ ++ .began id false :: h₃ →
    ∃ w, .woke w ∈ h₂ ∧ w.id = id ∧ w.queue = some site.executor.queue ∧ w.parker ≠ none

/-- **Conservation of tasks and of wakes**, in every run; and any number of wakes of a task that
comes to be polled are one cause. -/
theorem Run.conserved (hs : site.Unused) (hr : Run β σ P (.start site) h s)
    (hlen : (issuedIds h).length ≤ UInt64.size) :
    Conserved site h s ∧
      ∀ id h₁ s₁ h₂, Run β σ P (.start site) h₁ s₁ → Run β σ P s₁ h₂ s →
        Since (Note.Queues site.executor.queue id) (Note.Takes id) h₁ →
        (∀ k ∈ h₂, ¬ k.Queues site.executor.queue id) →
          (takenIds h₂).count id + s.machine.site.ready.count id = 1 := by
  have htallies := hr.tallies
  refine ⟨⟨fun id ↦ hr.one_place hs.toFresh hlen, ?_, ?_, fun id h₁ h₂ h₃ ↦
    hr.woke_between hs.toFresh hlen⟩, fun id h₁ s₁ h₂ hr₁ hr₂ ↦ Run.once hs.toFresh hr₁ hr₂⟩
  · have hbal := hr.balance hs.toFresh hlen
    have hspawned : s.machine.site.executor.spawned = h.countP Note.enters := by
      rw [htallies.spawned, start, hs.spawned, Nat.zero_add]
    rw [settled, loopPolls] at hbal
    show s.machine.site.executor.spawned = s.machine.site.executor.tasks.size + _ + _ + _
    omega
  · have hq : s.machine.site.executor.queue = site.executor.queue := hr.queue_eq
    have hbal := (hr.replays hs.toFresh).balance.length_eq
    have hpolls : s.machine.site.executor.polls = h.countP Note.polls := by
      rw [htallies.polls, start, hs.polls, Nat.zero_add]
    have hstale : s.machine.site.executor.stale = h.countP Note.drops := by
      rw [htallies.stale, start, hs.stale, Nat.zero_add]
    rw [List.length_append, length_takenIds, hq] at hbal
    show _ = s.machine.site.executor.polls + s.machine.site.executor.stale +
      (s.machine.site.signals.queue s.machine.site.executor.queue).ids.length
    rw [hq]
    omega

/-- A task that is polled while another loop runs within its poll, and a task that this loop
resolves; and the first of them before, when it has only been spawned. -/
theorem conserved_nested :
    Conserved (.blank ()) ([.issued 1, .entered 1, .issued 2, .began 2 true,
      .ended 2 true (.ok (.ready ())), .began 1 false] ++ nestedPoll) (nested 9) ∧
      (takenIds [(.began 1 false : Note Unit)]).count 1 +
        (nested 2).machine.site.ready.count 1 = 1 := by
  have hbegan : Run nesting .still (CallsWithin 2) (nested 1) [.began 1 false] (nested 2) :=
    .single step_nested_began (Nat.le_succ 1)
  have hpolling := run_nested_before.trans hbegan
  refine ⟨((hpolling.trans run_nested_poll).conserved (Site.unused_blank ()) (by decide)).1,
    (hpolling.conserved (Site.unused_blank ()) (by decide)).2 1 _ _ _ run_nested_before hbegan ?_
      ?_⟩
  · exact ⟨[.issued 1], .entered 1, [.issued 2, .began 2 true, .ended 2 true (.ok (.ready ()))],
      rfl, rfl, by simp [Note.Takes]⟩
  · simp [Note.Queues]

end Ensemble

end TaskRuntime
