import TaskRuntime.Proofs.Lives

/-!
# What is queued

The ready queue of an executor can be read off the history: it holds the ids that have been queued
and not been taken off since. This is the law of the queue (`Signals.Law`). It holds of an executor
that has just been made, one lemma for each kind of note says how it goes on (`Signals.Law.silent`,
`Signals.Law.entered`, `Signals.Law.woke`, `Signals.Law.popped`), and every move does one of these
things to the queue (`Signals.Change`).

Nothing is asked of the ids, so the law holds also when they have wrapped around.
-/

namespace TaskRuntime

variable {W B V : Type}

/-! ### Notes that leave the queue alone -/

namespace Note

/-- A note that neither puts an id on a ready queue nor takes one off. -/
def Silent : Note V → Prop
  | .entered _ => False
  | .woke _ => False
  | .began _ false => False
  | .stale _ => False
  | _ => True

theorem Silent.not_queues {k : Note V} (hk : k.Silent) (q : QueueRef) (id : TaskId) :
    ¬ k.Queues q id := by
  cases k <;> first | exact hk.elim | exact not_false

theorem Silent.not_takes {k : Note V} (hk : k.Silent) (id : TaskId) : ¬ k.Takes id := by
  cases k with
  | began i inPlace =>
    cases inPlace with
    | false => exact hk.elim
    | true => exact not_false
  | stale i => exact hk.elim
  | _ => exact not_false

end Note

/-! ### The law -/

/-- **The law of the ready queue**: the queue is in order, and holds exactly the ids that have been
queued and not been taken off since. -/
structure Signals.Law (s : Signals) (q : QueueRef) (h : List (Note V)) : Prop where
  /-- The queue is in order. -/
  queue : s.Queue q
  /-- The queue holds what it has to hold. -/
  mem_iff : ∀ id, id ∈ (s.queue q).ids ↔ Since (Note.Queues q id) (Note.Takes id) h

namespace Signals.Law

variable {s s' : Signals} {q : QueueRef} {h n : List (Note V)} {id : TaskId}

/-- Nothing has happened to the queue. -/
theorem silent (hl : s.Law q h) (hq : s'.queue q = s.queue q)
    (hlen : s.queues.length ≤ s'.queues.length) (hn : ∀ k ∈ n, k.Silent) : s'.Law q (h ++ n) := by
  refine ⟨⟨Nat.lt_of_lt_of_le hl.queue.lt hlen, by rw [hq]; exact hl.queue.synced⟩, fun id ↦ ?_⟩
  rw [hq, hl.mem_iff, since_append_of_silent (fun k hk ↦ (hn k hk).not_queues q id)
    fun k hk ↦ (hn k hk).not_takes id]

/-- Nothing has happened to the queue, and the signals are the same. -/
theorem notes (hl : s.Law q h) (hn : ∀ k ∈ n, k.Silent) : s.Law q (h ++ n) :=
  hl.silent rfl (Nat.le_refl _) hn

/-- A task has entered the table, and its id has been pushed. -/
theorem entered (hl : s.Law q h) (id : TaskId) : (s.push q id).2.Law q (h ++ [.entered id]) := by
  refine ⟨hl.queue.push q id, fun i ↦ ?_⟩
  rw [hl.queue.mem_push, since_concat, hl.mem_iff]
  simp [Note.Queues, Note.Takes, eq_comm (a := i)]

/-- Somebody has pushed for a wake. -/
theorem woke (hl : s.Law q h) (w : Waker) : (s.pushFor w).Law q (h ++ [.woke w]) := by
  refine ⟨hl.queue.pushFor w, fun i ↦ ?_⟩
  rw [hl.queue.mem_pushFor, since_concat, hl.mem_iff]
  simp [Note.Queues, Note.Takes]

/-- An id has been popped, and the note says so. -/
theorem popped {k : Note V} (hl : s.Law q h) (hp : s.pop? q = some (id, s'))
    (hk : k = .began id false ∨ k = .stale id) : s'.Law q (h ++ [k]) := by
  refine ⟨hl.queue.pop hp, fun i ↦ ?_⟩
  have hqueues : ¬ k.Queues q i := by
    rcases hk with rfl | rfl <;> exact not_false
  have htakes : k.Takes i ↔ id = i := by
    rcases hk with rfl | rfl <;> exact Iff.rfl
  rw [hl.queue.mem_pop hp, since_concat, hl.mem_iff, htakes]
  simp [hqueues, eq_comm (a := i)]

/-- An executor that has just been made obeys the law. -/
theorem fresh {site : Site W B} (hs : site.Fresh) :
    site.signals.Law (V := V) site.executor.queue [] := by
  refine ⟨hs.queue, fun id ↦ ?_⟩
  rw [hs.ids]
  simp [not_since_nil]

end Signals.Law

/-! ### What a move does to the queue -/

/-- **What a move can do to the ready queue**, with the notes that it leaves. -/
inductive Signals.Change (s : Signals) (q : QueueRef) : List (Note V) → Signals → Prop
  /-- The queue stays as it is. -/
  | silent {s' n} (hq : s'.queue q = s.queue q) (hlen : s.queues.length ≤ s'.queues.length)
      (hn : ∀ k ∈ n, k.Silent) : Change s q n s'
  /-- A task enters the table, and its id is pushed. -/
  | entered {l r} (id : TaskId) (hl : ∀ k ∈ l, k.Silent) (hr : ∀ k ∈ r, k.Silent) :
      Change s q (l ++ .entered id :: r) (s.push q id).2
  /-- Somebody pushes for a wake. -/
  | woke (w : Waker) : Change s q [.woke w] (s.pushFor w)
  /-- An id is popped. -/
  | popped {s' id k} (hp : s.pop? q = some (id, s')) (hk : k = .began id false ∨ k = .stale id) :
      Change s q [k] s'

/-- A move obeys the law. -/
theorem Signals.Change.law {s s' : Signals} {q : QueueRef} {h n : List (Note V)}
    (hc : s.Change q n s') (hl : s.Law q h) : s'.Law q (h ++ n) := by
  cases hc with
  | silent hq hlen hn => exact hl.silent hq hlen hn
  | entered id hfront hback =>
    have hback := ((hl.notes hfront).entered id).notes hback
    simpa using hback
  | woke w => exact hl.woke w
  | popped hp hk => exact hl.popped hp hk

namespace Machine

variable {β : Behaviour W B V} {σ : Surroundings W B V} {m m' : Machine W B V}
  {h n : List (Note V)}

/-- The law of the ready queue of a machine. -/
def Law (m : Machine W B V) (h : List (Note V)) : Prop :=
  m.site.signals.Law m.site.executor.queue h

/-- What a machine does to its ready queue. -/
def Change (m : Machine W B V) (n : List (Note V)) (m' : Machine W B V) : Prop :=
  m.site.signals.Change m.site.executor.queue n m'.site.signals

theorem Shift.queue {x : Executor B} {s s' : Signals} {d d' : Doing W B V}
    (h : Shift σ x s d s' d') (q : QueueRef) :
    s'.queue q = s.queue q ∧ s.queues.length ≤ s'.queues.length := by
  cases h with
  | awake h =>
    obtain ⟨p, -, rfl⟩ := Option.map_eq_some_iff.1 h
    exact ⟨rfl, Nat.le_refl _⟩
  | _ => exact ⟨rfl, Nat.le_refl _⟩

theorem silent_of_leave {site : Site W B} {c : Call W B V} {rest : List (Call W B V)}
    {result : Except Failure (Option V)} (hm : Machine.leave β site c rest result = (n, m')) :
    ∀ k ∈ n, k.Silent :=
  forall_of_leave hm trivial trivial

/-- Notes that leave the queue alone, and the signals as they are. -/
theorem Change.notes {s : Signals} {q : QueueRef} (hn : ∀ k ∈ n, k.Silent) : s.Change q n s :=
  .silent rfl (Nat.le_refl _) hn

/-- A call ends, after silent notes. -/
theorem change_of_leave {site : Site W B} {c : Call W B V} {rest : List (Call W B V)}
    {result : Except Failure (Option V)} (front : List (Note V))
    (hm : Machine.leave β site c rest result = (n, m')) (hn : ∀ k ∈ front, k.Silent) :
    site.signals.Change site.executor.queue (front ++ n) m'.site.signals := by
  obtain ⟨ds, w, -, -, hsite, -⟩ := leave_spec hm
  rw [hsite]
  exact Change.notes (List.forall_mem_append.2 ⟨hn, silent_of_leave hm⟩)

theorem Turn.change (hm : Turn β σ m n m') : m.Change n m' := by
  cases hm with
  | entered _ he =>
    obtain ⟨rfl, rfl⟩ := Prod.mk.inj he
    exact Change.notes (by simp [Note.Silent])
  | shifted hd hn =>
    obtain ⟨hq, hlen⟩ := hd.queue _
    refine .silent hq hlen fun k hk ↦ ?_
    rcases hn with rfl | rfl
    · simp at hk
    · rw [List.mem_singleton.1 hk]
      trivial
  | @firstFailed _ c _ _ _ e _ _ _ he =>
    have hc := change_of_leave [.ended c.id true (.error e), .destroyed c.id] he
      (by simp [Note.Silent])
    exact hc
  | @firstPended _ _ c _ _ _ _ _ he =>
    obtain ⟨ds, tasks, w, rfl, hds, rfl, -⟩ := Site.enqueue_spec he
    exact .entered (l := [.ended c.id true (.ok .pending)]) c.id (by simp [Note.Silent])
      (Note.forall_of_destroyed hds trivial)
  | @firstReturned _ c _ _ _ v _ _ _ _ he =>
    exact change_of_leave [.ended c.id true (.ok (.ready v))] he (by simp [Note.Silent])
  | firstResolved => exact Change.notes (by simp [Note.Silent])
  | stale _ hp _ => exact .popped hp (Or.inr rfl)
  | began _ hp _ => exact .popped hp (Or.inl rfl)
  | @pollFailed _ _ _ _ id _ e _ _ _ he =>
    have hc := change_of_leave [.ended id false (.error e), .destroyed id] he
      (by simp [Note.Silent])
    exact hc
  | pollPended _ he =>
    obtain ⟨hds, tasks, w, rfl, -⟩ := Site.insert_spec he
    refine Change.notes (List.forall_mem_cons.2 ⟨trivial, ?_⟩)
    exact Note.forall_of_destroyed hds trivial
  | pollResolved => exact Change.notes (by simp [Note.Silent])
  | finished _ _ he =>
    have hc := change_of_leave [] he (by simp)
    exact hc
  | announceFailed _ he => exact change_of_leave [] he (by simp)

/-- **Every move changes the ready queue in one of four ways.** -/
theorem Move.change (hm : Move β σ m n m') : m.Change n m' := by
  cases hm with
  | quiet hq hlen _ => exact .silent hq hlen (by simp)
  | woke u _ => exact .woke u
  | @spawned _ _ id _ _ _ _ _ hs _ =>
    obtain ⟨-, ds, tasks, w, rfl, hds, rfl, -⟩ := Site.spawn_spec hs
    exact .entered (l := [.issued id]) id (by simp [Note.Silent])
      (Note.forall_of_destroyed hds trivial)
  | turned ht => exact ht.change

/-- **Moves obey the law.** -/
theorem Move.law (hm : Move β σ m n m') (hl : m.Law h) : m'.Law (h ++ n) := by
  rw [Law, hm.queue_eq]
  exact hm.change.law hl

/-! ### Pops -/

/-- The active call is in the middle of a poll of a task that was popped. -/
def Polling (m : Machine W B V) (id : TaskId) : Prop :=
  ∃ c rest p, m.calls = c :: rest ∧ c.doing = .poll id p

/-- What happens when an id is popped: either its task is not in the table, and nothing else
changes, or the task is polled. -/
inductive Popped (m : Machine W B V) (m' : Machine W B V) (id : TaskId) : List (Note V) → Prop
  /-- The id is stale. -/
  | stale (ht : ¬ m.Tabled id) (hc : m'.calls = m.calls)
      (hx : m'.site.executor.tasks = m.site.executor.tasks) : Popped m m' id [.stale id]
  /-- The task is polled. -/
  | began (hp : m'.Polling id) : Popped m m' id [.began id false]

variable {k : Note V} {id : TaskId}

theorem Popped.polling (hp : Popped m m' id [.began id false]) : m'.Polling id := by
  cases hp with
  | began hp => exact hp

/-- An id is taken off the queue by a pop of the active call alone. -/
theorem Turn.popped (hm : Turn β σ m n m') (hk : k ∈ n) (ht : k.Takes id) :
    (∃ c rest, m.calls = c :: rest ∧ c.doing = .pop) ∧ id ∈ m.site.ready ∧ Popped m m' id n := by
  -- All turns but the two pops are silent.
  have hloud (hn : ∀ k ∈ n, k.Silent) {p : Prop} : p := absurd ht ((hn k hk).not_takes id)
  cases hm with
  | stale hd hp hg =>
    obtain rfl := List.mem_singleton.1 hk
    obtain rfl : _ = id := ht
    exact ⟨⟨_, _, rfl, hd⟩, Signals.mem_of_pop? hp,
      .stale (by simp [Tabled, Table.contains, hg]) rfl rfl⟩
  | began hd hp _ =>
    obtain rfl := List.mem_singleton.1 hk
    obtain rfl : _ = id := ht
    exact ⟨⟨_, _, rfl, hd⟩, Signals.mem_of_pop? hp, .began ⟨_, _, _, rfl, rfl⟩⟩
  | entered _ h =>
    obtain ⟨rfl, rfl⟩ := Prod.mk.inj h
    exact hloud (by simp [Note.Silent])
  | shifted _ hn => exact hloud (by rcases hn with rfl | rfl <;> simp [Note.Silent])
  | firstFailed _ h => exact hloud (by simpa [Note.Silent] using silent_of_leave h)
  | firstPended _ h =>
    obtain ⟨ds, -, -, rfl, hds, -⟩ := Site.enqueue_spec h
    simp only [List.mem_cons] at hk
    rcases hk with rfl | rfl | hk
    · exact ht.elim
    · exact ht.elim
    · exact absurd ht ((Note.forall_of_destroyed (p := Note.Silent) hds trivial k hk).not_takes id)
  | firstReturned _ _ h => exact hloud (by simpa [Note.Silent] using silent_of_leave h)
  | firstResolved => exact hloud (by simp [Note.Silent])
  | pollFailed _ h => exact hloud (by simpa [Note.Silent] using silent_of_leave h)
  | pollPended _ h =>
    obtain ⟨hds, -⟩ := Site.insert_spec h
    exact hloud (by simpa [Note.Silent] using Note.forall_of_destroyed hds trivial)
  | pollResolved => exact hloud (by simp [Note.Silent])
  | finished _ _ h => exact hloud (silent_of_leave h)
  | announceFailed _ h => exact hloud (silent_of_leave h)

/-- An id is taken off the queue by a pop of the active call alone. -/
theorem Move.popped (hm : Move β σ m n m') (hk : k ∈ n) (ht : k.Takes id) :
    (∃ c rest, m.calls = c :: rest ∧ c.doing = .pop) ∧ id ∈ m.site.ready ∧ Popped m m' id n := by
  cases hm with
  | quiet => simp at hk
  | woke =>
    obtain rfl := List.mem_singleton.1 hk
    exact ht.elim
  | spawned h _ =>
    obtain ⟨-, ds, -, -, rfl, hds, -⟩ := Site.spawn_spec h
    simp only [List.mem_cons] at hk
    rcases hk with rfl | rfl | hk
    · exact ht.elim
    · exact ht.elim
    · exact absurd ht ((Note.forall_of_destroyed (p := Note.Silent) hds trivial k hk).not_takes id)
  | turned h => exact h.popped hk ht

end Machine

/-- **All runs obey the law of the ready queue.** -/
theorem Ensemble.Run.law {β : Behaviour W B V} {σ : Surroundings W B V} {P : Ensemble W B V → Prop}
    {s₀ s : Ensemble W B V} {h₀ h : List (Note V)} (hr : Run β σ P s₀ h s)
    (hl : s₀.machine.Law h₀) : s.machine.Law (h₀ ++ h) := by
  induction hr with
  | refl => simpa using hl
  | step _ hs _ ih =>
    rw [← List.append_assoc]
    exact hs.move.law ih

end TaskRuntime
