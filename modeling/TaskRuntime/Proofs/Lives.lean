import TaskRuntime.Proofs.Moves

/-!
# The lives of tasks

A task is spawned or polled in place, goes to and fro between the table and the polls, and in the
end is resolved. For this, of a machine only two things matter: which ids are in the table, and
which are being polled. `Passage` lists what a step can do to these two, together with the notes
that it leaves, and `Machine.Move.passage` reads it off the moves. All that is proved about the
lives of tasks rests on `Passage` alone.

The operations from which moves are made each have one lemma here that says what they do to
executor, signals and calls (`Site.insert_spec`, `Site.enqueue_spec`, `Site.spawn_spec`,
`Machine.leave_spec`).
-/

namespace TaskRuntime

variable {W B V R : Type}

/-! ### The table by its keys -/

namespace Table

variable {K A : Type} [DecidableEq K] {t : Table K A} {k k' : K} {v : A}

theorem contains_insert : (t.insert k v).contains k' = true ↔ k' = k ∨ t.contains k' = true := by
  simp only [contains, get?_insert]
  by_cases h : k = k'
  · simp [h]
  · simp [h, Ne.symm h]

theorem contains_erase : (t.erase k).contains k' = true ↔ k' ≠ k ∧ t.contains k' = true := by
  simp only [contains, get?_erase]
  by_cases h : k = k'
  · simp [h]
  · simp [h, Ne.symm h]

theorem contains_of_get? (h : t.get? k = some v) : t.contains k = true := by
  rw [contains, h]
  rfl

theorem not_contains_of_isEmpty (h : t.isEmpty = true) (k : K) : ¬ t.contains k = true := by
  obtain ⟨entries, hd⟩ := t
  obtain rfl : entries = [] := by simpa [isEmpty] using h
  simp [contains, get?, find]

@[simp] theorem contains_empty (k : K) : (Table.empty : Table K A).contains k = false := rfl

end Table

/-! ### What the operations do -/

section Operations

variable {β : Behaviour W B V} {site site' : Site W B} {id : TaskId} {b : B} {n : List (Note V)}

/-- Only the table and the world change, and the id is in the table afterwards in any case. -/
theorem Site.insert_spec (h : site.insert β id b = (n, site')) :
    (∀ k ∈ n, k = .destroyed id) ∧ ∃ tasks w,
      site' = ⟨{ site.executor with tasks }, site.signals, w⟩ ∧
      ∀ i, tasks.contains i = true ↔ i = id ∨ site.executor.tasks.contains i = true := by
  obtain ⟨x, s, w⟩ := site
  unfold Site.insert at h
  split at h
  · next hid =>
    obtain ⟨rfl, rfl⟩ := Prod.mk.inj h
    refine ⟨by simp, x.tasks, _, rfl, fun i ↦ ⟨Or.inr, ?_⟩⟩
    rintro (rfl | hi)
    · exact hid
    · exact hi
  · obtain ⟨rfl, rfl⟩ := Prod.mk.inj h
    exact ⟨by simp, _, w, rfl, fun i ↦ Table.contains_insert⟩

/-- The id is in the table and queued afterwards in any case. -/
theorem Site.enqueue_spec (h : site.enqueue β id b = (n, site')) :
    ∃ ds tasks w, n = .entered id :: ds ∧ (∀ k ∈ ds, k = .destroyed id) ∧
      site' = ⟨{ site.executor with tasks, spawned := site.executor.spawned + 1 },
        (site.signals.push site.executor.queue id).2, w⟩ ∧
      ∀ i, tasks.contains i = true ↔ i = id ∨ site.executor.tasks.contains i = true := by
  rcases hi : site.insert β id b with ⟨ds, site₁⟩
  simp only [Site.enqueue, hi] at h
  obtain ⟨rfl, rfl⟩ := Prod.mk.inj h
  obtain ⟨hds, tasks, w, rfl, htasks⟩ := Site.insert_spec hi
  exact ⟨ds, tasks, w, rfl, hds, rfl, htasks⟩

/-- A spawned task gets the next id. -/
theorem Site.spawn_spec (h : site.spawn β b = (id, n, site')) :
    id = site.executor.nextId ∧ ∃ ds tasks w,
      n = .issued id :: .entered id :: ds ∧ (∀ k ∈ ds, k = .destroyed id) ∧
      site' = ⟨{ site.executor with tasks, nextId := site.executor.nextId + 1,
                                    spawned := site.executor.spawned + 1 },
        (site.signals.push site.executor.queue id).2, w⟩ ∧
      ∀ i, tasks.contains i = true ↔ i = id ∨ site.executor.tasks.contains i = true := by
  obtain ⟨x, s, w⟩ := site
  rcases he : (⟨{ x with nextId := x.nextId + 1 }, s, w⟩ : Site W B).enqueue β x.nextId b with
    ⟨n₁, site₁⟩
  obtain ⟨rfl, rfl, rfl⟩ : x.nextId = id ∧ .issued x.nextId :: n₁ = n ∧ site₁ = site' := by
    simpa [Site.spawn, Executor.allocate, he] using h
  obtain ⟨ds, tasks, w, rfl, hds, rfl, htasks⟩ := Site.enqueue_spec he
  exact ⟨rfl, ds, tasks, w, rfl, hds, rfl, htasks⟩

/-- The call that ends takes nothing with it but what it holds, and the one below gets its result.
-/
theorem Machine.leave_spec {c : Call W B V} {rest : List (Call W B V)}
    {result : Except Failure (Option V)} {m' : Machine W B V}
    (h : Machine.leave β site c rest result = (n, m')) :
    ∃ ds w, n = ds ++ [.returned c.id result] ∧ (∀ k ∈ ds, k = .destroyed c.id) ∧
      m'.site = ⟨site.executor, site.signals, w⟩ ∧ m'.calls = Machine.resumed result rest := by
  obtain ⟨rfl, rfl⟩ := Prod.mk.inj h
  obtain ⟨i, held, slot, doing⟩ := c
  cases held with
  | none => cases rest <;> exact ⟨[], site.world, rfl, by simp, rfl, rfl⟩
  | some b => cases rest <;> exact ⟨[.destroyed i], _, rfl, by simp, rfl, rfl⟩

/-- What is true of the note that a body is destroyed is true of all such notes. -/
theorem Note.forall_of_destroyed {p : Note V → Prop} (hn : ∀ k ∈ n, k = .destroyed id)
    (hp : p (.destroyed id)) : ∀ k ∈ n, p k := by
  intro k hk
  rw [hn k hk]
  exact hp

/-- A call that ends leaves notes of two kinds only. -/
theorem Machine.forall_of_leave {p : Note V → Prop} {c : Call W B V} {rest : List (Call W B V)}
    {result : Except Failure (Option V)} {m' : Machine W B V}
    (h : Machine.leave β site c rest result = (n, m')) (hd : p (.destroyed c.id))
    (hr : p (.returned c.id result)) : ∀ k ∈ n, p k := by
  obtain ⟨ds, w, rfl, hds, -⟩ := Machine.leave_spec h
  exact List.forall_mem_append.2
    ⟨Note.forall_of_destroyed hds hd, List.forall_mem_singleton.2 hr⟩

end Operations

/-! ### What never changes -/

section Refs

variable {β : Behaviour W B V} {σ : Surroundings W B V} {m m' : Machine W B V} {n : List (Note V)}

/-- Ready queue and parker of an executor. -/
def Executor.refs (x : Executor B) : QueueRef × ParkerRef := (x.queue, x.parker)

theorem Machine.refs_of_leave {site : Site W B} {c : Call W B V} {rest : List (Call W B V)}
    {result : Except Failure (Option V)} (h : Machine.leave β site c rest result = (n, m')) :
    m'.site.executor.refs = site.executor.refs := by
  obtain ⟨ds, w, -, -, hsite, -⟩ := Machine.leave_spec h
  rw [hsite]

/-- An executor keeps its ready queue and its parker. -/
theorem Machine.Turn.refs (hm : Machine.Turn β σ m n m') :
    m'.site.executor.refs = m.site.executor.refs := by
  cases hm with
  | entered _ h =>
    obtain ⟨rfl, rfl⟩ := Prod.mk.inj h
    rfl
  | firstPended _ h =>
    obtain ⟨ds, tasks, w, rfl, -, rfl, -⟩ := Site.enqueue_spec h
    rfl
  | pollPended _ h =>
    obtain ⟨-, tasks, w, rfl, -⟩ := Site.insert_spec h
    rfl
  | firstFailed _ h => exact (refs_of_leave h).trans rfl
  | firstReturned _ _ h => exact refs_of_leave h
  | pollFailed _ h => exact (refs_of_leave h).trans rfl
  | finished _ _ h => exact (refs_of_leave h).trans rfl
  | announceFailed _ h => exact refs_of_leave h
  | _ => rfl

/-- An executor keeps its ready queue and its parker. -/
theorem Machine.Move.refs (hm : Machine.Move β σ m n m') :
    m'.site.executor.refs = m.site.executor.refs := by
  cases hm with
  | spawned h _ =>
    obtain ⟨-, ds, tasks, w, rfl, -, rfl, -⟩ := Site.spawn_spec h
    rfl
  | turned h => exact h.refs
  | _ => rfl

theorem Machine.Move.queue_eq (hm : Machine.Move β σ m n m') :
    m'.site.executor.queue = m.site.executor.queue :=
  congrArg Prod.fst hm.refs

/-- An executor keeps its ready queue and its parker. -/
theorem Ensemble.Run.refs {P : Ensemble W B V → Prop} {s₀ s : Ensemble W B V}
    {h : List (Note V)} (hr : Run β σ P s₀ h s) :
    s.machine.site.executor.refs = s₀.machine.site.executor.refs := by
  induction hr with
  | refl => rfl
  | step _ hs _ ih => exact hs.move.refs.trans ih

/-- An executor keeps its ready queue. -/
theorem Ensemble.Run.queue_eq {P : Ensemble W B V → Prop} {s₀ s : Ensemble W B V}
    {h : List (Note V)} (hr : Run β σ P s₀ h s) :
    s.machine.site.executor.queue = s₀.machine.site.executor.queue :=
  congrArg Prod.fst hr.refs

end Refs

/-! ### Who is being polled -/

section Polled

variable {c : Call W B V} {calls calls' rest : List (Call W B V)}

theorem Doing.Runs.polls?_eq {wrap : Act W B V R → Doing W B V} (hw : Doing.Runs wrap) (id : TaskId)
    (held : Option B) (slot : Option V) (p p' : Act W B V R) :
    Call.polls? ⟨id, held, slot, wrap p⟩ = Call.polls? ⟨id, held, slot, wrap p'⟩ := by
  cases hw <;> rfl

/-- A call that goes on with its program goes on with its poll. -/
theorem Call.Advance.polled_eq (h : Call.Advance calls calls') :
    calls.filterMap Call.polls? = calls'.filterMap Call.polls? := by
  cases h with
  | same => rfl
  | @head c rest _ wrap p p' hw hd _ =>
    have hc : c.polls? = Call.polls? ⟨c.id, c.held, c.slot, wrap p'⟩ := by
      rw [← hw.polls?_eq c.id c.held c.slot p p', ← hd]
    rw [List.filterMap_cons, List.filterMap_cons, hc]

/-- A call that gets a result goes on with its poll. -/
theorem Machine.polled_resumed (result : Except Failure (Option V)) (rest : List (Call W B V)) :
    (Machine.resumed result rest).filterMap Call.polls? = rest.filterMap Call.polls? := by
  cases rest with
  | nil => rfl
  | cons d rest =>
    obtain ⟨id, held, slot, doing⟩ := d
    have hd : Call.polls? ⟨id, held, slot, doing.resume result⟩ =
        Call.polls? ⟨id, held, slot, doing⟩ := by
      cases doing <;> rfl
    rw [Machine.resumed, List.filterMap_cons, List.filterMap_cons, hd]

theorem Machine.polled_fill (id : TaskId) (v : V) (calls : List (Call W B V)) :
    (Machine.fill id v calls).filterMap Call.polls? = calls.filterMap Call.polls? := by
  rw [Machine.fill, List.filterMap_map]
  congr 1
  funext c
  simp only [Function.comp_apply]
  split <;> rfl

theorem Machine.Shift.polls?_eq {σ : Surroundings W B V} {x : Executor B} {s s' : Signals}
    {d d' : Doing W B V} (h : Machine.Shift σ x s d s' d') (id : TaskId) (held : Option B)
    (slot : Option V) :
    Call.polls? ⟨id, held, slot, d⟩ = none ∧ Call.polls? ⟨id, held, slot, d'⟩ = none := by
  cases h <;> exact ⟨rfl, rfl⟩

end Polled

/-! ### Passages -/

/-- A note that tells nothing about where a task is. -/
def Note.Idle : Note V → Prop
  | .woke _ => True
  | .stale _ => True
  | .parked => True
  | .destroyed _ => True
  | .returned _ _ => True
  | _ => False

/-- **What a step can do to the tasks**: `t` and `t'` tell which are in the table before and after
it, `f` and `f'` which are being polled. -/
inductive Passage (V : Type) : (TaskId → Prop) → List (TaskId × Bool) → List (Note V) →
    (TaskId → Prop) → List (TaskId × Bool) → Prop
  /-- Every task stays where it is. -/
  | still {t t' f n} (hn : ∀ k ∈ n, k.Idle) (ht : ∀ i, t' i ↔ t i) : Passage V t f n t' f
  /-- A task is spawned. -/
  | spawned {t t' f ds} (id : TaskId) (hn : ∀ k ∈ ds, k = .destroyed id)
      (ht : ∀ i, t' i ↔ i = id ∨ t i) : Passage V t f (.issued id :: .entered id :: ds) t' f
  /-- A task is polled in place for the first time. -/
  | opened {t t' f} (id : TaskId) (ht : ∀ i, t' i ↔ t i) :
      Passage V t f [.issued id, .began id true] t' ((id, true) :: f)
  /-- A task is polled by the loop. -/
  | began {t t' f} (id : TaskId) (hid : t id) (ht : ∀ i, t' i ↔ i ≠ id ∧ t i) :
      Passage V t f [.began id false] t' ((id, false) :: f)
  /-- A task is pending after its poll in place, and enters the table. -/
  | admitted {t t' f ds} (id : TaskId) (hn : ∀ k ∈ ds, k = .destroyed id)
      (ht : ∀ i, t' i ↔ i = id ∨ t i) :
      Passage V t ((id, true) :: f) (.ended id true (.ok .pending) :: .entered id :: ds) t' f
  /-- A task is pending after a poll by the loop, and goes back to the table. -/
  | pended {t t' f ds} (id : TaskId) (hn : ∀ k ∈ ds, k = .destroyed id)
      (ht : ∀ i, t' i ↔ i = id ∨ t i) :
      Passage V t ((id, false) :: f) (.ended id false (.ok .pending) :: ds) t' f
  /-- A poll resolves its task. -/
  | resolved {t t' f ds} (id : TaskId) (inPlace : Bool) (v : V) (hn : ∀ k ∈ ds, k.Idle)
      (ht : ∀ i, t' i ↔ t i) :
      Passage V t ((id, inPlace) :: f) (.ended id inPlace (.ok (.ready v)) :: ds) t' f
  /-- A poll fails. -/
  | failed {t t' f ds} (id : TaskId) (inPlace : Bool) (e : Failure) (hn : ∀ k ∈ ds, k.Idle)
      (ht : ∀ i, t' i ↔ t i) :
      Passage V t ((id, inPlace) :: f) (.ended id inPlace (.error e) :: ds) t' f

/-- The ids in the table of a machine. -/
def Machine.Tabled (m : Machine W B V) (id : TaskId) : Prop :=
  m.site.executor.tasks.contains id = true

/-- The notes of a call that ends tell nothing about where a task is. -/
theorem Machine.idle_of_leave {β : Behaviour W B V} {site : Site W B} {c : Call W B V}
    {rest : List (Call W B V)} {result : Except Failure (Option V)} {n : List (Note V)}
    {m' : Machine W B V} (h : Machine.leave β site c rest result = (n, m')) : ∀ k ∈ n, k.Idle :=
  Machine.forall_of_leave h trivial trivial

theorem Machine.polled_cons {site : Site W B} {c : Call W B V} {rest : List (Call W B V)}
    {o : Option (Except Failure (Option V))} {x : TaskId × Bool} (hc : c.polls? = some x) :
    Machine.polled ⟨site, c :: rest, o⟩ = x :: rest.filterMap Call.polls? := by
  rw [Machine.polled, List.filterMap_cons, hc]

theorem Machine.polled_cons_of_none {site : Site W B} {c : Call W B V} {rest : List (Call W B V)}
    {o : Option (Except Failure (Option V))} (hc : c.polls? = none) :
    Machine.polled ⟨site, c :: rest, o⟩ = rest.filterMap Call.polls? := by
  rw [Machine.polled, List.filterMap_cons, hc]

/-- After a call has ended, the calls below it poll what they have polled, and the table stays. -/
theorem Machine.of_leave {β : Behaviour W B V} {site : Site W B} {c : Call W B V}
    {rest : List (Call W B V)} {result : Except Failure (Option V)} {n : List (Note V)}
    {m' : Machine W B V} (h : Machine.leave β site c rest result = (n, m')) :
    m'.site.executor = site.executor ∧ m'.polled = rest.filterMap Call.polls? := by
  obtain ⟨ds, w, -, -, hsite, hcalls⟩ := Machine.leave_spec h
  exact ⟨by rw [hsite], by rw [Machine.polled, hcalls, Machine.polled_resumed]⟩

/-- Every turn is a passage. -/
theorem Machine.Turn.passage {β : Behaviour W B V} {σ : Surroundings W B V} {m m' : Machine W B V}
    {n : List (Note V)} (hm : Machine.Turn β σ m n m') :
    Passage V m.Tabled m.polled n m'.Tabled m'.polled := by
  cases hm with
  | entered _ h =>
    obtain ⟨rfl, rfl⟩ := Prod.mk.inj h
    rw [Machine.polled_cons rfl]
    exact .opened _ fun i ↦ Iff.rfl
  | @shifted _ _ _ _ c rest _ _ _ _ hd hn =>
    obtain ⟨hc, hc'⟩ := hd.polls?_eq c.id c.held c.slot
    rw [Machine.polled_cons_of_none hc, Machine.polled_cons_of_none hc']
    refine .still (fun k hk ↦ ?_) fun i ↦ Iff.rfl
    rcases hn with rfl | rfl
    · simp at hk
    · rw [List.mem_singleton.1 hk]
      trivial
  | @firstFailed _ c _ _ _ e _ _ hd h =>
    obtain ⟨hx, hp⟩ := Machine.of_leave h
    rw [Machine.polled_cons (Call.polls?_first hd), hp]
    refine .failed c.id true e ?_ fun i ↦ by rw [Machine.Tabled, hx]; rfl
    exact List.forall_mem_cons.2 ⟨trivial, Machine.idle_of_leave h⟩
  | @firstPended _ _ c _ _ _ _ hd h =>
    obtain ⟨ds, tasks, w, rfl, hds, rfl, htasks⟩ := Site.enqueue_spec h
    rw [Machine.polled_cons (Call.polls?_first hd),
      Machine.polled_cons_of_none rfl]
    exact .admitted c.id hds htasks
  | @firstReturned _ c _ _ _ v _ _ hd _ h =>
    obtain ⟨hx, hp⟩ := Machine.of_leave h
    rw [Machine.polled_cons (Call.polls?_first hd), hp]
    exact .resolved c.id true v (Machine.idle_of_leave h) fun i ↦ by rw [Machine.Tabled, hx]; rfl
  | @firstResolved _ c _ _ _ v hd _ =>
    rw [Machine.polled_cons (Call.polls?_first hd),
      Machine.polled_cons_of_none rfl]
    exact .resolved c.id true v (by simp) fun i ↦ Iff.rfl
  | stale _ _ _ => exact .still (by simp [Note.Idle]) fun i ↦ Iff.rfl
  | @began _ _ _ _ c _ _ id b hd _ hg =>
    rw [Machine.polled_cons_of_none (c := c) (by rw [Call.polls?, hd]), Machine.polled_cons rfl]
    exact .began id (Table.contains_of_get? hg) fun i ↦ Table.contains_erase
  | @pollFailed _ c _ _ id _ e _ _ hd h =>
    obtain ⟨hx, hp⟩ := Machine.of_leave h
    rw [Machine.polled_cons (Call.polls?_poll hd), hp]
    refine .failed id false e ?_ fun i ↦ by rw [Machine.Tabled, hx]; rfl
    exact List.forall_mem_cons.2 ⟨trivial, Machine.idle_of_leave h⟩
  | @pollPended _ _ c _ _ id _ _ hd h =>
    obtain ⟨hds, tasks, w, rfl, htasks⟩ := Site.insert_spec h
    rw [Machine.polled_cons (Call.polls?_poll hd),
      Machine.polled_cons_of_none rfl]
    exact .pended id hds htasks
  | @pollResolved _ c _ _ id _ v hd =>
    rw [Machine.polled_cons (Call.polls?_poll hd), Machine.polled,
      Machine.polled_fill]
    exact .resolved id false v (by simp [Note.Idle]) fun i ↦ Iff.rfl
  | @finished _ c _ _ _ _ hd _ h =>
    obtain ⟨hx, hp⟩ := Machine.of_leave h
    rw [Machine.polled_cons_of_none (c := c) (by rw [Call.polls?, hd]), hp]
    exact .still (Machine.idle_of_leave h) fun i ↦ by rw [Machine.Tabled, hx]; rfl
  | @announceFailed _ c _ _ _ _ _ hd h =>
    obtain ⟨hx, hp⟩ := Machine.of_leave h
    rw [Machine.polled_cons_of_none (c := c) (by rw [Call.polls?, hd]), hp]
    exact .still (Machine.idle_of_leave h) fun i ↦ by rw [Machine.Tabled, hx]; rfl

/-- **Every move is a passage.** -/
theorem Machine.Move.passage {β : Behaviour W B V} {σ : Surroundings W B V} {m m' : Machine W B V}
    {n : List (Note V)} (hm : Machine.Move β σ m n m') :
    Passage V m.Tabled m.polled n m'.Tabled m'.polled := by
  cases hm with
  | quiet _ _ hc =>
    rw [Machine.polled, hc.polled_eq]
    exact .still (by simp) fun i ↦ Iff.rfl
  | woke u hc =>
    rw [Machine.polled, hc.polled_eq]
    exact .still (by simp [Note.Idle]) fun i ↦ Iff.rfl
  | spawned h hc =>
    obtain ⟨-, ds, tasks, w, rfl, hds, rfl, htasks⟩ := Site.spawn_spec h
    rw [Machine.polled, hc.polled_eq]
    exact .spawned _ hds htasks
  | turned h => exact h.passage

/-! ### Unresolved tasks -/

/-- A task that has been brought about and not been resolved since. -/
def Unresolved (id : TaskId) (h : List (Note V)) : Prop :=
  Since (Note.Introduces id) (Note.Finishes id) h

theorem Note.Idle.not_introduces {k : Note V} (hk : k.Idle) (id : TaskId) : ¬ k.Introduces id := by
  cases k <;> first | exact hk.elim | exact not_false

section

variable {t t' : TaskId → Prop} {f f' : List (TaskId × Bool)} {h n : List (Note V)} {id : TaskId}

/-- A task is in the table, or is being polled. -/
def Present (t : TaskId → Prop) (f : List (TaskId × Bool)) (id : TaskId) : Prop :=
  t id ∨ ∃ inPlace, (id, inPlace) ∈ f

theorem Present.table (hid : t id) : Present t f id := Or.inl hid

theorem Present.head {ip : Bool} : Present t ((id, ip) :: f) id := Or.inr ⟨ip, List.mem_cons_self⟩

theorem Present.cons {x : TaskId × Bool} (hp : Present t f id) : Present t (x :: f) id :=
  hp.imp_right fun ⟨ip, hip⟩ ↦ ⟨ip, List.mem_cons_of_mem x hip⟩

theorem Present.of_cons {i : TaskId} {ip : Bool} (hp : Present t ((i, ip) :: f) id) :
    id = i ∨ Present t f id := by
  rcases hp with hid | ⟨jp, hjp⟩
  · exact Or.inr (.table hid)
  · rcases List.mem_cons.1 hjp with he | hjp
    · exact Or.inl (congrArg Prod.fst he)
    · exact Or.inr (Or.inr ⟨jp, hjp⟩)

theorem Present.mono (hp : Present t f id) (ht : t id → t' id) : Present t' f id := hp.imp_left ht

/-- A passage that brings a task about leaves it in the table or lets it be polled. -/
theorem Passage.present_of_introduces (hp : Passage V t f n t' f') {k : Note V} (hk : k ∈ n)
    (hi : k.Introduces id) : Present t' f' id := by
  cases hp with
  | still hn ht => exact absurd hi ((hn k hk).not_introduces id)
  | spawned i hn ht =>
    simp only [List.mem_cons] at hk
    rcases hk with rfl | rfl | hk
    · exact hi.elim
    · exact .table ((ht id).2 (Or.inl hi.symm))
    · exact absurd hi (Note.forall_of_destroyed (p := (¬ ·.Introduces id)) hn not_false k hk)
  | opened i ht =>
    simp only [List.mem_cons, List.not_mem_nil, or_false] at hk
    rcases hk with rfl | rfl
    · exact hi.elim
    · obtain rfl : i = id := hi
      exact .head
  | began i hid ht =>
    rw [List.mem_singleton.1 hk] at hi
    exact hi.elim
  | admitted i hn ht =>
    simp only [List.mem_cons] at hk
    rcases hk with rfl | rfl | hk
    · exact hi.elim
    · exact .table ((ht id).2 (Or.inl hi.symm))
    · exact absurd hi (Note.forall_of_destroyed (p := (¬ ·.Introduces id)) hn not_false k hk)
  | pended i hn ht =>
    rcases List.mem_cons.1 hk with rfl | hk
    · exact hi.elim
    · exact absurd hi (Note.forall_of_destroyed (p := (¬ ·.Introduces id)) hn not_false k hk)
  | resolved i inPlace v hn ht =>
    rcases List.mem_cons.1 hk with rfl | hk
    · exact hi.elim
    · exact absurd hi ((hn k hk).not_introduces id)
  | failed i inPlace e hn ht =>
    rcases List.mem_cons.1 hk with rfl | hk
    · exact hi.elim
    · exact absurd hi ((hn k hk).not_introduces id)

/-- A passage that does not resolve a task lets it stay in the table or be polled. -/
theorem Passage.present (hp : Passage V t f n t' f') (hid : Present t f id)
    (hfin : ∀ k ∈ n, ¬ k.Finishes id) : Present t' f' id := by
  cases hp with
  | still hn ht => exact hid.mono (ht id).2
  | spawned i hn ht => exact hid.mono fun h ↦ (ht id).2 (Or.inr h)
  | opened i ht => exact (hid.mono (ht id).2).cons
  | began i hi ht =>
    by_cases hne : id = i
    · exact hne ▸ .head
    · exact (hid.mono fun h ↦ (ht id).2 ⟨hne, h⟩).cons
  | admitted i hn ht =>
    rcases hid.of_cons with rfl | hid
    · exact .table ((ht id).2 (Or.inl rfl))
    · exact hid.mono fun h ↦ (ht id).2 (Or.inr h)
  | pended i hn ht =>
    rcases hid.of_cons with rfl | hid
    · exact .table ((ht id).2 (Or.inl rfl))
    · exact hid.mono fun h ↦ (ht id).2 (Or.inr h)
  | resolved i inPlace v hn ht =>
    rcases hid.of_cons with rfl | hid
    · exact absurd rfl (hfin _ List.mem_cons_self)
    · exact hid.mono (ht id).2
  | failed i inPlace e hn ht =>
    rcases hid.of_cons with rfl | hid
    · exact absurd rfl (hfin _ List.mem_cons_self)
    · exact hid.mono (ht id).2

end

/-- **No run loses an unresolved task.** -/
theorem Ensemble.Run.unresolved {β : Behaviour W B V} {σ : Surroundings W B V}
    {P : Ensemble W B V → Prop} {site : Site W B} {s : Ensemble W B V} {h : List (Note V)}
    (hr : Run β σ P (.start site) h s) (id : TaskId) (hu : Unresolved id h) :
    Present s.machine.Tabled s.machine.polled id := by
  induction hr with
  | refl => exact absurd hu not_since_nil
  | step _ hs _ ih =>
    rcases since_append.1 hu with hn | ⟨hh, hfin⟩
    · obtain ⟨k, hk, hi⟩ := hn.exists_mem
      exact hs.move.passage.present_of_introduces hk hi
    · exact hs.move.passage.present (ih hh) hfin

end TaskRuntime
