import TaskRuntime.Proofs.DuringPoll
import TaskRuntime.Proofs.Propagation

/-!
# Whose body a poll is handed

A task is created with a body, and an id is given out for it. From then on bodies come and go under
the id: each poll is handed one, and leaves one behind. What a step does about this is listed by its
deeds (`Machine.Tells`): the bodies with which tasks are created, and the bodies that polls are
handed, each with its waker.

Whatever bodies carry with them through their polls is a mark of their task. A poll is handed a body
with the mark of the one with which the id was given out (`Machine.Marks.move`), so it is the same
task throughout, and not another one that has got into its place.

As long as no id is given out twice, a body that is put into the table finds its id free, and no
body is destroyed on the way (`Machine.Move.free`).
-/

namespace TaskRuntime

variable {W B V L : Type} {β : Behaviour W B V} {σ : Surroundings W B V}

/-! ### Deeds -/

/-- What is done with a body. -/
inductive Deed (B : Type)
  /-- A task is created with a body, and an id is given out for it. -/
  | created (id : TaskId) (b : B)
  /-- A poll is handed a body and a waker. -/
  | polled (id : TaskId) (b : B) (w : Waker)

/-- The id that is given out, if one is. -/
def Deed.created? : Deed B → Option TaskId
  | .created id _ => some id
  | .polled _ _ _ => none

/-- The ids for which tasks have been created, in order. -/
def createdIds (ds : List (Deed B)) : List TaskId := ds.filterMap Deed.created?

/-- **What a step does with bodies.** -/
inductive Machine.Tells (β : Behaviour W B V) :
    Machine W B V → List (Note V) → Machine W B V → List (Deed B) → Prop
  /-- No id is given out, and no poll begins. -/
  | nothing {m n m'} (hi : issuedIds n = []) (hb : ∀ id inPlace, .began id inPlace ∉ n) :
      Tells β m n m' []
  /-- A task is spawned. -/
  | spawned {site site' calls calls' o id b n} (h : site.spawn β b = (id, n, site'))
      (hc : Call.Advance calls calls') :
      Tells β ⟨site, calls, o⟩ n ⟨site', calls', o⟩ [.created id b]
  /-- A run to completion begins, by a poll in place. -/
  | entered {site calls o b n m'} (h : enter β site calls b = (n, m')) :
      Tells β ⟨site, calls, o⟩ n m'
        [.created site.executor.nextId b,
          .polled site.executor.nextId b (site.executor.waker site.executor.nextId)]
  /-- The loop begins to poll a task. -/
  | began {m m' id b c rest} (hb : m.body? id = some b) (hc : m'.calls = c :: rest)
      (hd : c.doing = .poll id (β.poll b (m.site.executor.waker id))) :
      Tells β m [.began id false] m' [.polled id b (m.site.executor.waker id)]

section

variable {m m' : Machine W B V} {n : List (Note V)} {ds es : List (Deed B)} {id : TaskId} {b : B}
  {w : Waker}

theorem createdIds_append (ds es : List (Deed B)) :
    createdIds (ds ++ es) = createdIds ds ++ createdIds es :=
  List.filterMap_append

theorem mem_createdIds : id ∈ createdIds ds ↔ ∃ b, .created id b ∈ ds := by
  rw [createdIds, List.mem_filterMap]
  constructor
  · rintro ⟨d, hd, he⟩
    cases d with
    | created i b =>
      obtain rfl := Option.some.inj he
      exact ⟨b, hd⟩
    | polled => cases he
  · rintro ⟨b, hb⟩
    exact ⟨_, hb, rfl⟩

/-- What is picked from a list without repetition has been picked once. -/
theorem eq_of_nodup_filterMap {A C : Type} {f : A → Option C} {l : List A} {a a' : A} {c : C}
    (hnd : (l.filterMap f).Nodup) (ha : a ∈ l) (ha' : a' ∈ l) (h : f a = some c)
    (h' : f a' = some c) : a = a' := by
  induction l with
  | nil => cases ha
  | cons d l ih =>
    rcases hd : f d with _ | y
    · rw [List.filterMap_cons_none hd] at hnd
      have hlater {e : A} (he : e ∈ d :: l) (hc : f e = some c) : e ∈ l := by
        refine (List.mem_cons.1 he).resolve_left fun hed ↦ ?_
        rw [hed, hd] at hc
        cases hc
      exact ih hnd (hlater ha h) (hlater ha' h')
    · rw [List.filterMap_cons_some hd, List.nodup_cons] at hnd
      have hlater {e : A} (he : e ∈ l) (hc : f e = some c) : y ≠ c := fun hy ↦
        hnd.1 (List.mem_filterMap.2 ⟨e, he, hy ▸ hc⟩)
      rcases List.mem_cons.1 ha with rfl | hal <;> rcases List.mem_cons.1 ha' with rfl | hal'
      · rfl
      · exact absurd (Option.some.inj (hd.symm.trans h)) (hlater hal' h')
      · exact absurd (Option.some.inj (hd.symm.trans h')) (hlater hal h)
      · exact ih hnd.2 hal hal'

/-- A body that is created under an id is one of a kind, as long as no id is given out twice. -/
theorem eq_of_created {b' : B} (hnd : (createdIds ds).Nodup) (hb : .created id b ∈ ds)
    (hb' : .created id b' ∈ ds) : b = b' :=
  (Deed.created.inj (eq_of_nodup_filterMap hnd hb hb' rfl rfl)).2

namespace Machine

/-- Bodies are created as ids are given out. -/
theorem Tells.createdIds_eq (ht : Tells β m n m' ds) : createdIds ds = issuedIds n := by
  cases ht with
  | nothing hi => exact hi.symm
  | spawned h =>
    obtain ⟨-, ds, tasks, w, rfl, hds, -⟩ := Site.spawn_spec h
    exact congrArg (_ :: ·) (issuedIds_of_destroyed hds).symm
  | entered h =>
    obtain ⟨rfl, -⟩ := Prod.mk.inj h
    rfl
  | began => rfl

/-- The waker that a poll is handed is the one of its id. -/
theorem Tells.waker (ht : Tells β m n m' ds) (hd : .polled id b w ∈ ds) :
    w = m.site.executor.waker id := by
  cases ht with
  | nothing => cases hd
  | spawned => simp at hd
  | entered h =>
    obtain ⟨rfl, -, rfl⟩ : id = _ ∧ b = _ ∧ w = _ := by simpa using hd
    rfl
  | began =>
    obtain ⟨rfl, -, rfl⟩ : id = _ ∧ b = _ ∧ w = _ := by simpa using hd
    rfl

theorem began_notMem_of_leave {site : Site W B} {c : Call W B V} {rest : List (Call W B V)}
    {result : Except Failure (Option V)} (h : leave β site c rest result = (n, m')) :
    ∀ id inPlace, .began id inPlace ∉ n := by
  intro id inPlace hk
  exact forall_of_leave (p := fun k ↦ k ≠ .began id inPlace) h nofun nofun _ hk rfl

theorem Turn.tells (hm : Turn β σ m n m') : ∃ ds, Tells β m n m' ds := by
  -- But for the two ways to begin a poll, a turn begins none and gives out no id.
  have hnothing (hi : issuedIds n = []) (hb : ∀ id inPlace, .began id inPlace ∉ n) :
      ∃ ds, Tells β m n m' ds := ⟨[], .nothing hi hb⟩
  have hleave {site c rest result} {l : List (Note V)} {m' : Machine W B V}
      (h : leave β site c rest result = (l, m')) :
      issuedIds l = [] ∧ ∀ id inPlace, .began id inPlace ∉ l :=
    ⟨(issued_of_leave h).1, began_notMem_of_leave h⟩
  cases hm with
  | entered _ h => exact ⟨_, .entered h⟩
  | began hd hp hg => exact ⟨_, .began hg rfl rfl⟩
  | shifted _ hn => rcases hn with rfl | rfl <;> exact hnothing rfl (by simp)
  | firstFailed _ h => exact hnothing (hleave h).1 (by simpa using (hleave h).2)
  | firstPended _ h =>
    obtain ⟨ds, -, -, rfl, hds, -⟩ := Site.enqueue_spec h
    have hids := issuedIds_of_destroyed hds
    refine hnothing hids fun i ip hk ↦ ?_
    simp only [List.mem_cons, reduceCtorEq, false_or] at hk
    cases hds _ hk
  | firstReturned _ _ h => exact hnothing (hleave h).1 (by simpa using (hleave h).2)
  | firstResolved => exact hnothing rfl (by simp)
  | stale => exact hnothing rfl (by simp)
  | pollFailed _ h => exact hnothing (hleave h).1 (by simpa using (hleave h).2)
  | pollPended _ h =>
    obtain ⟨hds, -⟩ := Site.insert_spec h
    have hids := issuedIds_of_destroyed hds
    refine hnothing hids fun i ip hk ↦ ?_
    simp only [List.mem_cons, reduceCtorEq, false_or] at hk
    cases hds _ hk
  | pollResolved => exact hnothing rfl (by simp)
  | finished _ _ h => exact hnothing (hleave h).1 (hleave h).2
  | announceFailed _ h => exact hnothing (hleave h).1 (hleave h).2

/-- **Every step tells what it does with bodies.** -/
theorem Move.tells (hm : Move β σ m n m') : ∃ ds, Tells β m n m' ds := by
  cases hm with
  | quiet => exact ⟨[], .nothing rfl (by simp)⟩
  | woke => exact ⟨[], .nothing rfl (by simp)⟩
  | spawned h hc => exact ⟨_, .spawned h hc⟩
  | turned h => exact h.tells

end Machine

end

/-! ### How polls end -/

theorem Act.Ends.mono {R : Type} {Q Q' : R → Prop} {p : Act W B V R} (hp : p.Ends Q)
    (hQ : ∀ r, Q r → Q' r) : p.Ends Q' := by
  have h : (p.bind Act.done).Ends Q' := hp.bind hQ
  rwa [Act.bind_done] at h

/-- A program that gets the result of a run to completion ends as it would have ended. -/
theorem Act.Ends.answered {R : Type} {Q : R → Prop} {p : Act W B V R} (hp : p.Ends Q)
    (result : Except Failure (Option V)) : (Doing.answered result p).Ends Q := by
  cases p with
  | blockOn b k => exact hp result
  | _ => exact hp

section

variable {m m' : Machine W B V} {n : List (Note V)} {es : List (Deed B)} {id : TaskId} {b : B}
  {c : Call W B V} {calls calls' rest : List (Call W B V)} {Q Q' : TaskId → Polled V × B → Prop}

namespace Call

/-- **The polls of some calls will end as is said** of their tasks. -/
def AllEnd (Q : TaskId → Polled V × B → Prop) (calls : List (Call W B V)) : Prop :=
  ∀ c ∈ calls, ∀ x p, c.polls? = some x → c.program? = some p → p.Ends (Q x.1)

theorem AllEnd.mono (h : AllEnd Q calls) (hQ : ∀ i r, Q i r → Q' i r) : AllEnd Q' calls :=
  fun c hc x p hx hp ↦ (h c hc x p hx hp).mono (hQ x.1)

/-- One more call. -/
theorem AllEnd.cons (h : AllEnd Q rest)
    (hc : ∀ x p, c.polls? = some x → c.program? = some p → p.Ends (Q x.1)) :
    AllEnd Q (c :: rest) := by
  intro d hd
  rcases List.mem_cons.1 hd with rfl | hd
  · exact hc
  · exact h d hd

theorem AllEnd.tail (h : AllEnd Q (c :: rest)) : AllEnd Q rest :=
  fun d hd ↦ h d (List.mem_cons_of_mem _ hd)

/-- A call that polls nothing. -/
theorem AllEnd.idle (h : AllEnd Q rest) (hc : c.polls? = none) : AllEnd Q (c :: rest) := by
  refine h.cons fun x p hx ↦ ?_
  rw [hc] at hx
  cases hx

theorem AllEnd.advance (h : AllEnd Q calls) (ha : Advance calls calls') : AllEnd Q calls' := by
  cases ha with
  | same => exact h
  | @head c rest _ wrap p p' hw hd hl =>
    refine h.tail.cons fun x q hx hq ↦ ?_
    obtain ⟨i, held, slot, d⟩ := c
    obtain rfl : d = _ := hd
    cases hw with
    | first =>
      obtain rfl := Option.some.inj hq
      exact (h _ List.mem_cons_self x p hx rfl).leads hl
    | poll j =>
      obtain rfl := Option.some.inj hq
      exact (h _ List.mem_cons_self x p hx rfl).leads hl
    | announce => cases hx
    | asleep => cases hx

theorem AllEnd.resumed (h : AllEnd Q rest) (result : Except Failure (Option V)) :
    AllEnd Q (Machine.resumed result rest) := by
  cases rest with
  | nil => exact h
  | cons d rest =>
    refine h.tail.cons fun x q hx hq ↦ ?_
    obtain ⟨i, held, slot, d⟩ := d
    cases d with
    | first p =>
      obtain rfl := Option.some.inj hq
      exact (h _ List.mem_cons_self x p hx rfl).answered result
    | poll j p =>
      obtain rfl := Option.some.inj hq
      exact (h _ List.mem_cons_self x p hx rfl).answered result
    | _ => cases hx

theorem AllEnd.fill (h : AllEnd Q calls) (i : TaskId) (v : V) :
    AllEnd Q (Machine.fill i v calls) := by
  intro d hd x p hx hp
  obtain ⟨c, hc, rfl⟩ := List.mem_map.1 hd
  by_cases hi : c.id = i
  · rw [if_pos hi] at hx hp
    exact h c hc x p hx hp
  · rw [if_neg hi] at hx hp
    exact h c hc x p hx hp

end Call

namespace Machine

/-- **A poll has come to its end**: the active call is at its answer. -/
def AtEnd (m : Machine W B V) (id : TaskId) (r : Polled V) (b : B) : Prop :=
  ∃ c rest inPlace, m.calls = c :: rest ∧ c.polls? = some (id, inPlace) ∧
    c.program? = some (.done (r, b))

theorem AtEnd.of_allEnd {r : Polled V} (he : m.AtEnd id r b) (hc : Call.AllEnd Q m.calls) :
    Q id (r, b) := by
  obtain ⟨c, rest, inPlace, hcalls, hi, hp⟩ := he
  rw [hcalls] at hc
  exact hc c List.mem_cons_self _ _ hi hp

/-- A call that ends leaves the polls below it to end as before. -/
theorem allEnd_of_leave {site : Site W B} {result : Except Failure (Option V)}
    (hc : Call.AllEnd Q (c :: rest)) {c' : Call W B V}
    (h : leave β site c' rest result = (n, m')) : Call.AllEnd Q m'.calls := by
  obtain ⟨-, -, -, -, -, hcalls⟩ := leave_spec h
  rw [hcalls]
  exact hc.tail.resumed result

/-- **A turn that begins no poll** leaves all polls to end as before. -/
theorem Turn.allEnd (hm : Turn β σ m n m') (hn : ∀ id inPlace, .began id inPlace ∉ n)
    (hc : Call.AllEnd Q m.calls) : Call.AllEnd Q m'.calls := by
  cases hm with
  | entered _ h =>
    obtain ⟨rfl, -⟩ := Prod.mk.inj h
    exact absurd (List.mem_cons_of_mem _ List.mem_cons_self) (hn _ true)
  | @shifted _ _ _ _ c rest _ _ _ _ hd =>
    exact hc.tail.idle (hd.polls?_eq c.id c.held c.slot).2
  | firstFailed _ h => exact allEnd_of_leave hc h
  | firstPended => exact hc.tail.idle rfl
  | firstReturned _ _ h => exact allEnd_of_leave hc h
  | firstResolved => exact hc.tail.idle rfl
  | stale => exact hc
  | began => exact absurd (List.mem_singleton_self _) (hn _ false)
  | pollFailed _ h => exact allEnd_of_leave hc h
  | pollPended => exact hc.tail.idle rfl
  | @pollResolved _ c rest _ i b v =>
    exact (hc.tail.idle (c := { c with doing := .pop }) rfl).fill i v
  | finished _ _ h => exact allEnd_of_leave hc h
  | announceFailed _ h => exact allEnd_of_leave hc h

/-- **A step leaves all polls to end as before**, and begins at most one poll. -/
theorem Move.allEnd (hm : Move β σ m n m') (ht : Tells β m n m' es) (hc : Call.AllEnd Q m.calls) :
    (∀ id b w, .polled id b w ∉ es) ∧ Call.AllEnd Q m'.calls ∨
      ∃ id b c rest inPlace, .polled id b (m.site.executor.waker id) ∈ es ∧
        m'.calls = c :: rest ∧ c.polls? = some (id, inPlace) ∧
        c.program? = some (β.poll b (m.site.executor.waker id)) ∧ Call.AllEnd Q rest := by
  cases ht with
  | nothing _ hb =>
    refine .inl ⟨by simp, ?_⟩
    cases hm with
    | quiet _ _ ha => exact hc.advance ha
    | woke _ ha => exact hc.advance ha
    | spawned _ ha => exact hc.advance ha
    | turned h => exact h.allEnd hb hc
  | spawned _ ha => exact .inl ⟨by simp, hc.advance ha⟩
  | entered h =>
    obtain ⟨-, rfl⟩ := Prod.mk.inj h
    exact .inr ⟨_, _, _, _, true, by simp, rfl, rfl, rfl, hc⟩
  | @began _ _ id b c rest hb hcalls hd =>
    refine .inr ⟨id, b, c, rest, false, by simp, hcalls, Call.polls?_poll hd,
      by rw [Call.program?, hd], ?_⟩
    -- The call that begins to poll is the active one.
    cases hm with
    | spawned h =>
      obtain ⟨-, ds, tasks, w, hn, -⟩ := Site.spawn_spec h
      cases hn
    | turned h =>
      cases h with
      | entered _ h =>
        obtain ⟨hn, -⟩ := Prod.mk.inj h
        cases hn
      | began _ _ _ =>
        obtain ⟨-, rfl⟩ := List.cons.inj hcalls
        exact hc.tail
      | shifted _ hn => rcases hn with hn | hn <;> cases hn
      | finished _ _ h =>
        have hnone := (began_notMem_of_leave h) id false
        exact absurd (List.mem_singleton_self _) hnone
      | announceFailed _ h =>
        have hnone := (began_notMem_of_leave h) id false
        exact absurd (List.mem_singleton_self _) hnone

end Machine

end

/-! ### Where bodies come from -/

section

variable {site site' : Site W B} {m m' : Machine W B V} {n : List (Note V)} {es : List (Deed B)}
  {i id : TaskId} {b b' : B} {w : Waker}

/-- What is in the table after a body has been put in was there before, or is the body. -/
theorem Site.of_get?_insert (h : site.insert β i b' = (n, site'))
    (hg : site'.executor.tasks.get? id = some b) :
    site.executor.tasks.get? id = some b ∨ id = i ∧ b = b' := by
  unfold Site.insert at h
  split at h
  · obtain ⟨-, rfl⟩ := Prod.mk.inj h
    exact .inl hg
  · obtain ⟨-, rfl⟩ := Prod.mk.inj h
    rw [Table.get?_insert] at hg
    split at hg
    · next hi => exact .inr ⟨hi.symm, (Option.some.inj hg).symm⟩
    · exact .inl hg

theorem Site.of_get?_enqueue (h : site.enqueue β i b' = (n, site'))
    (hg : site'.executor.tasks.get? id = some b) :
    site.executor.tasks.get? id = some b ∨ id = i ∧ b = b' := by
  rcases hi : site.insert (V := V) β i b' with ⟨ns, site₁⟩
  simp only [Site.enqueue, hi] at h
  obtain ⟨-, rfl⟩ := Prod.mk.inj h
  exact Site.of_get?_insert hi hg

theorem Site.of_get?_spawn (h : site.spawn β b' = (i, n, site'))
    (hg : site'.executor.tasks.get? id = some b) :
    site.executor.tasks.get? id = some b ∨ id = i ∧ b = b' := by
  obtain ⟨x, s, w⟩ := site
  rcases he : (⟨{ x with nextId := x.nextId + 1 }, s, w⟩ : Site W B).enqueue β x.nextId b' with
    ⟨ns, site₁⟩
  obtain ⟨rfl, -, rfl⟩ : x.nextId = i ∧ .issued x.nextId :: ns = n ∧ site₁ = site' := by
    simpa [Site.spawn, Executor.allocate, he] using h
  have henqueue := Site.of_get?_enqueue he hg
  exact henqueue

namespace Machine

/-- A turn puts into the table only what a poll has left pending. -/
theorem Turn.source (hm : Turn β σ m n m') (hb : m'.body? id = some b) :
    m.body? id = some b ∨ m.AtEnd id (.ok .pending) b := by
  cases hm with
  | entered _ h =>
    obtain ⟨-, rfl⟩ := Prod.mk.inj h
    exact .inl hb
  | firstFailed _ h => exact .inl ((body?_of_leave h).symm.trans hb)
  | firstPended hd h =>
    refine (Site.of_get?_enqueue h hb).imp_right ?_
    rintro ⟨rfl, rfl⟩
    exact ⟨_, _, _, rfl, Call.polls?_first hd, by rw [Call.program?, hd]⟩
  | firstReturned _ _ h => exact .inl ((body?_of_leave h).symm.trans hb)
  | began =>
    refine .inl ?_
    rw [body?, Table.get?_erase] at hb
    split at hb
    · cases hb
    · exact hb
  | pollFailed _ h => exact .inl ((body?_of_leave h).symm.trans hb)
  | pollPended hd h =>
    refine (Site.of_get?_insert h hb).imp_right ?_
    rintro ⟨rfl, rfl⟩
    exact ⟨_, _, _, rfl, Call.polls?_poll hd, by rw [Call.program?, hd]⟩
  | finished _ _ h => exact .inl ((body?_of_leave h).symm.trans hb)
  | announceFailed _ h => exact .inl ((body?_of_leave h).symm.trans hb)
  | _ => exact .inl hb

/-- **A body in the table** was there before, or its task has just been created with it, or a poll
has left it pending. -/
theorem Move.source (hm : Move β σ m n m') (ht : Tells β m n m' es) (hb : m'.body? id = some b) :
    m.body? id = some b ∨ .created id b ∈ es ∨ m.AtEnd id (.ok .pending) b := by
  cases ht with
  | spawned h _ =>
    refine (Site.of_get?_spawn h hb).imp_right ?_
    rintro ⟨rfl, rfl⟩
    exact .inl List.mem_cons_self
  | nothing hi =>
    cases hm with
    | quiet => exact .inl hb
    | woke => exact .inl hb
    | spawned h =>
      obtain ⟨-, ds, tasks, w, rfl, -⟩ := Site.spawn_spec h
      cases hi
    | turned h => exact (h.source hb).imp_right .inr
  | entered h =>
    obtain ⟨-, rfl⟩ := Prod.mk.inj h
    exact .inl hb
  | began =>
    cases hm with
    | spawned h =>
      obtain ⟨-, ds, tasks, w, hn, -⟩ := Site.spawn_spec h
      cases hn
    | turned h => exact (h.source hb).imp_right .inr

/-- A poll is handed a body from the table, or the one with which its task is created. -/
theorem Tells.handed (ht : Tells β m n m' es) (hd : .polled id b w ∈ es) :
    m.body? id = some b ∨ .created id b ∈ es := by
  cases ht with
  | nothing => cases hd
  | spawned => simp at hd
  | entered h =>
    obtain ⟨rfl, rfl, -⟩ : id = _ ∧ b = _ ∧ w = _ := by simpa using hd
    exact .inr List.mem_cons_self
  | began hb =>
    obtain ⟨rfl, rfl, -⟩ : id = _ ∧ b = _ ∧ w = _ := by simpa using hd
    exact .inl hb

end Machine

end

/-! ### Marks -/

/-- Polls leave behind what bodies carry with them. -/
def Behaviour.Keeps (β : Behaviour W B V) (mark : B → L) : Prop :=
  ∀ b w, (β.poll b w).Ends fun r ↦ mark r.2 = mark b

/-- A task has been created under an id with a body that carries a mark. -/
def Marked (mark : B → L) (ds : List (Deed B)) (id : TaskId) (l : L) : Prop :=
  ∃ b, .created id b ∈ ds ∧ mark b = l

/-- **Every body carries the mark of its task.** -/
structure Machine.Marks (mark : B → L) (ds : List (Deed B)) (m : Machine W B V) : Prop where
  /-- The bodies in the table do. -/
  tabled : ∀ id b, m.body? id = some b → Marked mark ds id (mark b)
  /-- What polls leave behind will do. -/
  polled : Call.AllEnd (fun id r ↦ Marked mark ds id (mark r.2)) m.calls

section

variable {mark : B → L} {ds es : List (Deed B)} {id : TaskId} {l : L} {m m' : Machine W B V}
  {n : List (Note V)}

theorem Marked.append (hl : Marked mark ds id l) (es : List (Deed B)) :
    Marked mark (ds ++ es) id l := by
  obtain ⟨b, hb, hmark⟩ := hl
  exact ⟨b, List.mem_append_left _ hb, hmark⟩

/-- **Every step keeps the marks**, and hands polls bodies that carry the marks of their tasks. -/
theorem Machine.Marks.move (hβ : β.Keeps mark) (hk : m.Marks mark ds) (hm : Move β σ m n m')
    (ht : Tells β m n m' es) :
    m'.Marks mark (ds ++ es) ∧
      ∀ id b w, .polled id b w ∈ es → Marked mark (ds ++ es) id (mark b) := by
  have hcreated {id : TaskId} {b : B} (hb : .created id b ∈ es) :
      Marked mark (ds ++ es) id (mark b) := ⟨b, List.mem_append_right _ hb, rfl⟩
  have hhanded {id : TaskId} {b : B} {w : Waker} (hd : .polled id b w ∈ es) :
      Marked mark (ds ++ es) id (mark b) :=
    (ht.handed hd).elim (fun hb ↦ (hk.tabled id b hb).append es) hcreated
  have hlater {calls : List (Call W B V)}
      (hc : Call.AllEnd (fun id r ↦ Marked mark ds id (mark r.2)) calls) :
      Call.AllEnd (fun id r ↦ Marked mark (ds ++ es) id (mark r.2)) calls :=
    hc.mono fun _ _ hr ↦ hr.append es
  refine ⟨⟨fun id b hb ↦ ?_, ?_⟩, fun id b w ↦ hhanded⟩
  · rcases hm.source ht hb with hb | hb | he
    · exact (hk.tabled id b hb).append es
    · exact hcreated hb
    · exact (he.of_allEnd hk.polled).append es
  · rcases hm.allEnd ht hk.polled with ⟨-, hc⟩ | ⟨id, b, c, rest, inPlace, hd, hcalls, hi, hp, hc⟩
    · exact hlater hc
    · rw [hcalls]
      refine (hlater hc).cons fun x p hx hpx ↦ ?_
      obtain rfl := Option.some.inj (hx.symm.trans hi)
      obtain rfl := Option.some.inj (hpx.symm.trans hp)
      refine (hβ b _).mono fun r hr ↦ ?_
      rw [hr]
      exact hhanded hd

end

/-! ### Putting a body into the table -/

/-- A body is put into the table under an id. -/
def Note.Inserts (id : TaskId) : Note V → Prop
  | .entered i => i = id
  | .ended i _ (.ok .pending) => i = id
  | _ => False

section

variable {site site' : Site W B} {m m' : Machine W B V} {n h : List (Note V)} {i id : TaskId}
  {b : B}

/-- Under a free id, a body is put in, and none is destroyed. -/
theorem Site.insert_of_free (hi : ¬ site.executor.tasks.contains i = true)
    (h : site.insert β i b = (n, site')) : n = [] := by
  rw [Site.insert, if_neg hi] at h
  exact (Prod.mk.inj h).1.symm

theorem Site.enqueue_of_free (hi : ¬ site.executor.tasks.contains i = true)
    (h : site.enqueue β i b = (n, site')) : n = [.entered i] := by
  rcases hins : site.insert (V := V) β i b with ⟨ds, site₁⟩
  obtain rfl := Site.insert_of_free hi hins
  simp only [Site.enqueue, hins] at h
  exact (Prod.mk.inj h).1.symm

theorem Site.spawn_of_free (hi : ¬ site.executor.tasks.contains site.executor.nextId = true)
    (h : site.spawn β b = (i, n, site')) : n = [.issued i, .entered i] := by
  obtain ⟨x, s, w⟩ := site
  rcases he : (⟨{ x with nextId := x.nextId + 1 }, s, w⟩ : Site W B).enqueue β x.nextId b with
    ⟨ns, site₁⟩
  obtain ⟨rfl, rfl, -⟩ : x.nextId = i ∧ .issued x.nextId :: ns = n ∧ site₁ = site' := by
    simpa [Site.spawn, Executor.allocate, he] using h
  rw [Site.enqueue_of_free (by exact hi) he]

namespace Machine

theorem inserts_of_leave {site : Site W B} {c : Call W B V} {rest : List (Call W B V)}
    {result : Except Failure (Option V)} (h : leave β site c rest result = (n, m')) :
    ∀ k ∈ n, ¬ k.Inserts id := forall_of_leave h not_false not_false

/-- A turn that puts a body into the table has polled it before. -/
theorem Turn.free (hm : Turn β σ m n m') (hb : Books m.Tabled m.polled h)
    (hn : ∃ k ∈ n, k.Inserts id) : ¬ m.Tabled id ∧ m'.Tabled id ∧ .destroyed id ∉ n := by
  obtain ⟨k, hk, hi⟩ := hn
  have hnone {p : Prop} (hs : ∀ k ∈ n, ¬ k.Inserts id) : p := absurd hi (hs k hk)
  cases hm with
  | entered _ h =>
    obtain ⟨rfl, -⟩ := Prod.mk.inj h
    exact hnone (by simp [Note.Inserts])
  | shifted _ hs => exact hnone (by rcases hs with rfl | rfl <;> simp [Note.Inserts])
  | firstFailed _ h => exact hnone (by simpa [Note.Inserts] using inserts_of_leave h)
  | @firstPended site _ c rest _ b n hd h =>
    have hfree : ¬ site.executor.tasks.contains c.id = true := by
      refine hb.not_tabled_of_polled (?_ : (c.id, true) ∈ _)
      rw [polled_cons (Call.polls?_first hd)]
      exact List.mem_cons_self
    obtain rfl := Site.enqueue_of_free hfree h
    obtain ⟨-, tasks, w, -, -, rfl, htasks⟩ := Site.enqueue_spec h
    obtain rfl : c.id = id := by
      simp only [List.mem_cons, List.not_mem_nil, or_false] at hk
      rcases hk with rfl | rfl <;> exact hi
    exact ⟨hfree, (htasks _).2 (.inl rfl), by simp⟩
  | firstReturned _ _ h => exact hnone (by simpa [Note.Inserts] using inserts_of_leave h)
  | firstResolved => exact hnone (by simp [Note.Inserts])
  | stale => exact hnone (by simp [Note.Inserts])
  | began => exact hnone (by simp [Note.Inserts])
  | pollFailed _ h => exact hnone (by simpa [Note.Inserts] using inserts_of_leave h)
  | @pollPended site _ c rest _ i b n hd h =>
    obtain ⟨-, tasks, w, rfl, htasks⟩ := Site.insert_spec h
    have hfree : ¬ site.executor.tasks.contains i = true := by
      refine hb.not_tabled_of_polled (?_ : (i, false) ∈ _)
      rw [polled_cons (Call.polls?_poll hd)]
      exact List.mem_cons_self
    obtain rfl := Site.insert_of_free hfree h
    obtain rfl : i = id := by
      obtain rfl := List.mem_singleton.1 hk
      exact hi
    exact ⟨hfree, (htasks _).2 (.inl rfl), by simp⟩
  | pollResolved => exact hnone (by simp [Note.Inserts])
  | finished _ _ h => exact hnone (inserts_of_leave h)
  | announceFailed _ h => exact hnone (inserts_of_leave h)

/-- **A body that is put into the table finds its id free**, and none is destroyed, as long as no id
is given out twice. -/
theorem Move.free (hm : Move β σ m n m') (hb : Books m.Tabled m.polled h)
    (hnd : (issuedIds (h ++ n)).Nodup) (hn : ∃ k ∈ n, k.Inserts id) :
    ¬ m.Tabled id ∧ m'.Tabled id ∧ .destroyed id ∉ n := by
  cases hm with
  | quiet =>
    obtain ⟨k, hk, -⟩ := hn
    cases hk
  | woke =>
    obtain ⟨k, hk, hi⟩ := hn
    obtain rfl := List.mem_singleton.1 hk
    exact hi.elim
  | @spawned site _ i _ b _ _ _ h =>
    have hissued : .issued site.executor.nextId ∈ n := by
      obtain ⟨rfl, -, -, -, rfl, -⟩ := Site.spawn_spec h
      exact List.mem_cons_self
    have hfree : ¬ site.executor.tasks.contains site.executor.nextId = true :=
      hb.not_tabled_of_unborn (hb.unborn (not_issued_of_nodup hnd hissued))
    obtain rfl := Site.spawn_of_free hfree h
    obtain ⟨rfl, -, tasks, w, -, -, rfl, htasks⟩ := Site.spawn_spec h
    obtain ⟨k, hk, hi⟩ := hn
    obtain rfl : site.executor.nextId = id := by
      simp only [List.mem_cons, List.not_mem_nil, or_false] at hk
      rcases hk with rfl | rfl
      · exact hi.elim
      · exact hi
    exact ⟨hfree, (htasks _).2 (.inl rfl), by simp⟩
  | turned h => exact h.free hb hn

end Machine

end

end TaskRuntime
