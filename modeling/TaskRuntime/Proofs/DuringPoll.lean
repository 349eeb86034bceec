import TaskRuntime.Proofs.Phases
import TaskRuntime.Proofs.Queued

/-!
# Following one task

What a step does to one task, depending on where the task is: a task in the table stays there with
its body until the loop begins to poll it (`Machine.Move.body`), and a task that is being polled by
the active call goes on with its program until the poll ends (`Machine.Move.of_polls`).

What a history tells of the last poll of a task tells where the task can be: one whose last poll has
left it pending is waiting (`phase_of_paused`), and one that has been resolved is neither waiting
nor being polled (`phase_of_settled`).
-/

namespace TaskRuntime

variable {W B V R : Type} {β : Behaviour W B V} {σ : Surroundings W B V} {m m' : Machine W B V}
  {n h : List (Note V)} {id : TaskId}

/-! ### The program of a poll -/

namespace Call

/-- What is left of the program of the poll that a call is making. -/
def program? (c : Call W B V) : Option (Act W B V (Polled V × B)) :=
  match c.doing with
  | .first p => some p
  | .poll _ p => some p
  | _ => none

/-- A call goes on with a poll by a program. -/
def proceed (c : Call W B V) (p : Act W B V (Polled V × B)) : Call W B V where
  id := c.id
  held := c.held
  slot := c.slot
  doing :=
    match c.doing with
    | .first _ => .first p
    | .poll id _ => .poll id p
    | d => d

variable {c : Call W B V} {p : Act W B V (Polled V × B)}

@[simp] theorem polls?_proceed (c : Call W B V) (p : Act W B V (Polled V × B)) :
    (c.proceed p).polls? = c.polls? := by
  obtain ⟨i, held, slot, d⟩ := c
  cases d <;> rfl

theorem program?_proceed {x : TaskId × Bool} (hc : c.polls? = some x) :
    (c.proceed p).program? = some p := by
  obtain ⟨i, held, slot, d⟩ := c
  cases d with
  | first q => rfl
  | poll j q => rfl
  | _ => cases hc

/-- A call that polls is polling in place, or by the loop. -/
theorem doing_of_polls {x : TaskId × Bool} (hc : c.polls? = some x) (hp : c.program? = some p) :
    x = (c.id, true) ∧ c.doing = .first p ∨ ∃ i, x = (i, false) ∧ c.doing = .poll i p := by
  obtain ⟨i, held, slot, d⟩ := c
  cases d with
  | first q =>
    obtain rfl := Option.some.inj hp
    exact .inl ⟨(Option.some.inj hc).symm, rfl⟩
  | poll j q =>
    obtain rfl := Option.some.inj hp
    exact .inr ⟨j, (Option.some.inj hc).symm, rfl⟩
  | _ => cases hc

/-- The active call goes on with its poll by one request, or nothing has happened to the calls. -/
theorem Advance.of_polls {rest calls' : List (Call W B V)} {x : TaskId × Bool}
    (ha : Advance (c :: rest) calls') (hc : c.polls? = some x) (hp : c.program? = some p) :
    calls' = c :: rest ∨ ∃ p', p.Leads p' ∧ calls' = c.proceed p' :: rest := by
  cases ha with
  | same => exact .inl rfl
  | @head _ _ _ _ q q' hw hd hl =>
    obtain ⟨i, held, slot, d⟩ := c
    obtain rfl : d = _ := hd
    cases hw with
    | first =>
      obtain rfl := Option.some.inj hp
      exact .inr ⟨q', hl, rfl⟩
    | poll =>
      obtain rfl := Option.some.inj hp
      exact .inr ⟨q', hl, rfl⟩
    | announce => cases hc
    | asleep => cases hc

end Call

/-! ### A task in the table -/

section Operations

variable {site site' : Site W B} {i : TaskId} {b b' : B}

/-- A body in the table stays there, and one that is put in under a free id is there. -/
theorem Site.get?_of_insert (h : site.insert β i b' = (n, site')) :
    (∀ id b, site.executor.tasks.get? id = some b → site'.executor.tasks.get? id = some b) ∧
      (¬ site.executor.tasks.contains i = true → site'.executor.tasks.get? i = some b') := by
  unfold Site.insert at h
  split at h
  · next hi =>
    obtain ⟨rfl, rfl⟩ := Prod.mk.inj h
    exact ⟨fun _ _ hg ↦ hg, fun hno ↦ absurd hi hno⟩
  · next hi =>
    obtain ⟨rfl, rfl⟩ := Prod.mk.inj h
    refine ⟨fun id b hg ↦ ?_, fun _ ↦ by simp⟩
    have hne : i ≠ id := fun e ↦ hi (Table.contains_of_get? (e ▸ hg))
    rw [Table.get?_insert, if_neg hne]
    exact hg

theorem Site.get?_of_enqueue (h : site.enqueue β i b' = (n, site')) :
    (∀ id b, site.executor.tasks.get? id = some b → site'.executor.tasks.get? id = some b) ∧
      (¬ site.executor.tasks.contains i = true → site'.executor.tasks.get? i = some b') := by
  rcases hi : site.insert (V := V) β i b' with ⟨ds, site₁⟩
  simp only [Site.enqueue, hi] at h
  obtain ⟨rfl, rfl⟩ := Prod.mk.inj h
  have hinsert := Site.get?_of_insert hi
  exact hinsert

theorem Site.get?_of_spawn (h : site.spawn β b' = (i, n, site'))
    (hg : site.executor.tasks.get? id = some b) : site'.executor.tasks.get? id = some b := by
  obtain ⟨x, s, w⟩ := site
  rcases he : (⟨{ x with nextId := x.nextId + 1 }, s, w⟩ : Site W B).enqueue β x.nextId b' with
    ⟨ds, site₁⟩
  obtain ⟨-, -, rfl⟩ : x.nextId = i ∧ .issued x.nextId :: ds = n ∧ site₁ = site' := by
    simpa [Site.spawn, Executor.allocate, he] using h
  exact (Site.get?_of_enqueue he).1 id b hg

end Operations

namespace Machine

variable {b : B}

/-- The body of a task in the table. -/
def body? (m : Machine W B V) (id : TaskId) : Option B := m.site.executor.tasks.get? id

theorem tabled_of_body? (hb : m.body? id = some b) : m.Tabled id := Table.contains_of_get? hb

theorem body?_of_leave {site : Site W B} {c : Call W B V} {rest : List (Call W B V)}
    {result : Except Failure (Option V)} (h : leave β site c rest result = (n, m')) :
    m'.body? id = site.executor.tasks.get? id := by
  rw [body?, (of_leave h).1]

/-- A turn leaves a body in the table, unless it begins to poll it. -/
theorem Turn.body (hm : Turn β σ m n m') (hb : m.body? id = some b) (hn : .began id false ∉ n) :
    m'.body? id = some b := by
  cases hm with
  | entered _ h =>
    obtain ⟨rfl, rfl⟩ := Prod.mk.inj h
    exact hb
  | shifted => exact hb
  | firstFailed _ h => exact (body?_of_leave h).trans hb
  | firstPended _ h => exact (Site.get?_of_enqueue h).1 _ _ hb
  | firstReturned _ _ h => exact (body?_of_leave h).trans hb
  | firstResolved => exact hb
  | stale => exact hb
  | @began x _ _ _ _ _ _ i =>
    have hne : i ≠ id := fun e ↦ hn (e ▸ List.mem_singleton_self _)
    show (x.tasks.erase i).get? id = some b
    rw [Table.get?_erase, if_neg hne]
    exact hb
  | pollFailed _ h => exact (body?_of_leave h).trans hb
  | pollPended _ h => exact (Site.get?_of_insert h).1 _ _ hb
  | pollResolved => exact hb
  | finished _ _ h => exact (body?_of_leave h).trans hb
  | announceFailed _ h => exact (body?_of_leave h).trans hb

/-- **A body in the table stays there** until the loop begins to poll it. -/
theorem Move.body (hm : Move β σ m n m') (hb : m.body? id = some b) (hn : .began id false ∉ n) :
    m'.body? id = some b := by
  cases hm with
  | quiet => exact hb
  | woke => exact hb
  | spawned h _ => exact Site.get?_of_spawn h hb
  | turned h => exact h.body hb hn

theorem Turn.of_began (hm : Turn β σ m n m') (hn : .began id false ∈ n) :
    ∃ b c rest, m.body? id = some b ∧ m'.calls = c :: rest ∧
      c.doing = .poll id (β.poll b (m.site.executor.waker id)) ∧
      m'.site.world = m.site.world := by
  -- All turns but the two pops are silent.
  have hloud (hs : ∀ k ∈ n, k.Silent) {p : Prop} : p := (hs _ hn).elim
  cases hm with
  | began _ _ hg =>
    obtain rfl : id = _ := by simpa using hn
    exact ⟨_, _, _, hg, rfl, rfl, rfl⟩
  | stale => simp at hn
  | entered _ h =>
    obtain ⟨rfl, rfl⟩ := Prod.mk.inj h
    exact hloud (by simp [Note.Silent])
  | shifted _ hs => exact hloud (by rcases hs with rfl | rfl <;> simp [Note.Silent])
  | firstFailed _ h => exact hloud (by simpa [Note.Silent] using silent_of_leave h)
  | firstPended _ h =>
    obtain ⟨ds, -, -, rfl, hds, -⟩ := Site.enqueue_spec h
    simp only [List.mem_cons, reduceCtorEq, false_or] at hn
    cases hds _ hn
  | firstReturned _ _ h => exact hloud (by simpa [Note.Silent] using silent_of_leave h)
  | firstResolved => exact hloud (by simp [Note.Silent])
  | pollFailed _ h => exact hloud (by simpa [Note.Silent] using silent_of_leave h)
  | pollPended _ h =>
    obtain ⟨hds, -⟩ := Site.insert_spec h
    exact hloud (by simpa [Note.Silent] using Note.forall_of_destroyed hds trivial)
  | pollResolved => exact hloud (by simp [Note.Silent])
  | finished _ _ h => exact hloud (silent_of_leave h)
  | announceFailed _ h => exact hloud (silent_of_leave h)

/-- **The loop begins to poll a task** by handing its body a waker; nothing happens to the world. -/
theorem Move.of_began (hm : Move β σ m n m') (hn : .began id false ∈ n) :
    ∃ b c rest, m.body? id = some b ∧ m'.calls = c :: rest ∧
      c.doing = .poll id (β.poll b (m.site.executor.waker id)) ∧
      m'.site.world = m.site.world := by
  cases hm with
  | quiet => cases hn
  | woke => simp at hn
  | spawned h _ =>
    obtain ⟨-, ds, -, -, rfl, hds, -⟩ := Site.spawn_spec h
    simp only [List.mem_cons, reduceCtorEq, false_or] at hn
    cases hds _ hn
  | turned h => exact h.of_began hn

/-! ### A task that is being polled -/

variable {c : Call W B V} {rest : List (Call W B V)} {inPlace : Bool}
  {p : Act W B V (Polled V × B)}

/-- **A task that the active call is polling** goes on with its program, until the poll ends; one
that is pending then is in the table. -/
theorem Turn.of_polls {site : Site W B} {o : Option (Except Failure (Option V))}
    (hm : Turn β σ ⟨site, c :: rest, o⟩ n m') (hi : c.polls? = some (id, inPlace))
    (hp : c.program? = some p) :
    (∃ r b, p = .done (r, b) ∧ .ended id inPlace r ∈ n ∧
      (r = .ok .pending → ¬ site.executor.tasks.contains id = true → m'.body? id = some b)) ∨
      ∃ b k, p = .blockOn b k := by
  -- What is known of the call, in terms of where it is.
  have hdoing := Call.doing_of_polls hi hp
  have hfirst {q : Act W B V (Polled V × B)} (hd : c.doing = .first q) :
      p = q ∧ id = c.id ∧ inPlace = true := by
    obtain ⟨hx, hd'⟩ | ⟨i, -, hd'⟩ := hdoing
    · obtain ⟨rfl, rfl⟩ := Prod.mk.inj hx
      exact ⟨Doing.first.inj (hd'.symm.trans hd), rfl, rfl⟩
    · cases hd'.symm.trans hd
  have hpoll {i : TaskId} {q : Act W B V (Polled V × B)} (hd : c.doing = .poll i q) :
      p = q ∧ id = i ∧ inPlace = false := by
    obtain ⟨-, hd'⟩ | ⟨j, hx, hd'⟩ := hdoing
    · cases hd'.symm.trans hd
    · obtain ⟨rfl, rfl⟩ := Prod.mk.inj hx
      obtain ⟨rfl, rfl⟩ := Doing.poll.inj (hd'.symm.trans hd)
      exact ⟨rfl, rfl, rfl⟩
  have helse {q : Prop} (hd : c.polls? = none) : q := by
    rw [hd] at hi
    cases hi
  cases hm with
  | entered hwait _ =>
    obtain ⟨R, wrap, k, hw, hd⟩ := hwait c rfl
    cases hw with
    | first => exact .inr ⟨_, _, (hfirst hd).1⟩
    | poll => exact .inr ⟨_, _, (hpoll hd).1⟩
    | announce => exact helse (by rw [Call.polls?, hd])
    | asleep => exact helse (by rw [Call.polls?, hd])
  | shifted hd => exact helse (hd.polls?_eq c.id c.held c.slot).1
  | firstFailed hd =>
    obtain ⟨rfl, rfl, rfl⟩ := hfirst hd
    exact .inl ⟨_, _, rfl, List.mem_cons_self, fun hr ↦ by cases hr⟩
  | firstPended hd h =>
    obtain ⟨rfl, rfl, rfl⟩ := hfirst hd
    exact .inl ⟨_, _, rfl, List.mem_cons_self, fun _ ↦ (Site.get?_of_enqueue h).2⟩
  | firstReturned hd =>
    obtain ⟨rfl, rfl, rfl⟩ := hfirst hd
    exact .inl ⟨_, _, rfl, List.mem_cons_self, fun hr ↦ by cases hr⟩
  | firstResolved hd =>
    obtain ⟨rfl, rfl, rfl⟩ := hfirst hd
    exact .inl ⟨_, _, rfl, List.mem_cons_self, fun hr ↦ by cases hr⟩
  | stale hd => exact helse (by rw [Call.polls?, hd])
  | began hd => exact helse (by rw [Call.polls?, hd])
  | pollFailed hd =>
    obtain ⟨rfl, rfl, rfl⟩ := hpoll hd
    exact .inl ⟨_, _, rfl, List.mem_cons_self, fun hr ↦ by cases hr⟩
  | pollPended hd h =>
    obtain ⟨rfl, rfl, rfl⟩ := hpoll hd
    exact .inl ⟨_, _, rfl, List.mem_cons_self, fun _ ↦ (Site.get?_of_insert h).2⟩
  | pollResolved hd =>
    obtain ⟨rfl, rfl, rfl⟩ := hpoll hd
    exact .inl ⟨_, _, rfl, List.mem_cons_self, fun hr ↦ by cases hr⟩
  | finished hd => exact helse (by rw [Call.polls?, hd])
  | announceFailed hd => exact helse (by rw [Call.polls?, hd])

/-- **A task that the active call is polling** goes on with its program, until the poll ends; one
that is pending then is in the table. -/
theorem Move.of_polls (hm : Move β σ m n m') (hc : m.calls = c :: rest)
    (hi : c.polls? = some (id, inPlace)) (hp : c.program? = some p) :
    m'.calls = c :: rest ∨ (∃ p', p.Leads p' ∧ m'.calls = c.proceed p' :: rest) ∨
      (∃ r b, p = .done (r, b) ∧ .ended id inPlace r ∈ n ∧
        (r = .ok .pending → ¬ m.Tabled id → m'.body? id = some b)) ∨
      ∃ b k, p = .blockOn b k := by
  obtain ⟨site, calls, o⟩ := m
  obtain rfl : calls = c :: rest := hc
  cases hm with
  | quiet _ _ ha => exact (ha.of_polls hi hp).imp_right .inl
  | woke _ ha => exact (ha.of_polls hi hp).imp_right .inl
  | spawned _ ha => exact (ha.of_polls hi hp).imp_right .inl
  | turned h => exact .inr (.inr (h.of_polls hi hp))

end Machine

/-! ### The last poll of a task -/

/-- **The last poll of a task has left it pending**, and no other poll has begun since. -/
def Paused (id : TaskId) (h : List (Note V)) : Prop :=
  Since (fun k ↦ ∃ inPlace, k = .ended id inPlace (.ok .pending))
    (fun k ↦ ∃ inPlace, k = .began id inPlace) h

namespace Phase

/-- The task has been polled and left pending, and no other poll has begun. -/
def Resting : Phase V → Prop
  | named => True
  | waiting => True
  | spoilt => True
  | _ => False

/-- The task will not be polled any more. -/
def Over : Phase V → Prop
  | resolved _ => True
  | failed => True
  | spoilt => True
  | _ => False

variable {s : Phase V} {k : Note V}

theorem Resting.next (hs : s.Resting) (hk : ∀ i inPlace, k ≠ .began i inPlace) :
    (s.next k).Resting := by
  cases k with
  | began i inPlace => exact absurd rfl (hk i inPlace)
  | _ => cases s <;> first | exact hs.elim | trivial

theorem Resting.after (hs : s.Resting) (hn : ∀ k ∈ n, ¬ ∃ inPlace, k = .began id inPlace) :
    (s.after id n).Resting := by
  induction n generalizing s with
  | nil => exact hs
  | cons k n ih =>
    have hrest : ∀ k ∈ n, ¬ ∃ inPlace, k = .began id inPlace := fun k hk ↦
      hn k (List.mem_cons_of_mem _ hk)
    rw [Phase.after]
    split
    · next hsub =>
      refine ih (hs.next ?_) hrest
      rintro i inPlace rfl
      obtain rfl := Option.some.inj hsub
      exact hn _ List.mem_cons_self ⟨inPlace, rfl⟩
    · exact ih hs hrest

theorem Over.next (hs : s.Over) (k : Note V) : (s.next k).Over := by
  cases s <;> first | exact hs.elim | (cases k <;> trivial)

theorem Over.after (hs : s.Over) (n : List (Note V)) : (s.after id n).Over := by
  induction n generalizing s with
  | nil => exact hs
  | cons k n ih =>
    rw [Phase.after]
    split
    · exact ih (hs.next k)
    · exact ih hs

end Phase

/-- A task that is paused is on its way into the table, or in it. -/
theorem phase_of_paused (hp : Paused id h) : (phase id h).Resting := by
  obtain ⟨before, k, after, rfl, ⟨inPlace, rfl⟩, hafter⟩ := hp
  rw [phase_append, Phase.after_of_subject rfl]
  refine Phase.Resting.after ?_ hafter
  cases phase id before with
  | polling ip => cases ip <;> cases inPlace <;> trivial
  | _ => trivial

/-- A task that has ended a poll otherwise than pending is not polled any more. -/
theorem phase_of_settled {inPlace : Bool} {r : Polled V} (hr : r ≠ .ok .pending)
    (hh : .ended id inPlace r ∈ h) : (phase id h).Over := by
  obtain ⟨before, after, rfl⟩ := List.append_of_mem hh
  rw [phase_append, Phase.after_of_subject rfl]
  refine Phase.Over.after ?_ after
  rcases r with e | _ | v
  · cases phase id before with
    | polling ip => cases ip <;> cases inPlace <;> trivial
    | _ => trivial
  · exact absurd rfl hr
  · cases phase id before with
    | polling ip => cases ip <;> cases inPlace <;> trivial
    | _ => trivial

section

variable {t t' : TaskId → Prop} {f f' : List (TaskId × Bool)} {inPlace : Bool} {r : Polled V}

theorem Books.tabled_of_paused (hb : Books t f h) (hp : Paused id h) : t id := by
  refine (hb.waiting id).1 ?_
  have hrest := phase_of_paused hp
  obtain ⟨hspoilt, hnamed⟩ := hb.sound id
  revert hrest hspoilt hnamed
  cases phase id h <;> intro hrest hspoilt hnamed <;>
    first | rfl | exact hrest.elim | exact absurd rfl hspoilt | exact absurd rfl hnamed

/-- A task that has been resolved is neither in the table nor being polled. -/
theorem Books.gone_of_settled (hb : Books t f h) (hr : r ≠ .ok .pending)
    (hh : .ended id inPlace r ∈ h) : ¬ t id ∧ ∀ ip, (id, ip) ∉ f := by
  have hover := phase_of_settled hr hh
  refine ⟨fun ht ↦ ?_, fun ip hip ↦ ?_⟩
  · rw [(hb.waiting id).2 ht] at hover
    exact hover
  · rw [(hb.polling id ip).2 hip] at hover
    exact hover

/-- A poll that ends has been going on. -/
theorem Passage.polled_of_ended (hp : Passage V t f n t' f') (hn : .ended id inPlace r ∈ n) :
    (id, inPlace) ∈ f := by
  have hidle {ds : List (Note V)} (hds : ∀ k ∈ ds, k.Idle) : .ended id inPlace r ∉ ds :=
    fun hk ↦ hds _ hk
  have hdestroyed {i : TaskId} {ds : List (Note V)} (hds : ∀ k ∈ ds, k = .destroyed i) :
      .ended id inPlace r ∉ ds := fun hk ↦ nomatch hds _ hk
  cases hp with
  | still hds _ => exact absurd hn (hidle hds)
  | spawned i hds _ =>
    simp only [List.mem_cons, reduceCtorEq, false_or] at hn
    exact absurd hn (hdestroyed hds)
  | opened => simp at hn
  | began => simp at hn
  | admitted i hds _ =>
    simp only [List.mem_cons, Note.ended.injEq, reduceCtorEq, false_or] at hn
    rcases hn with ⟨rfl, rfl, -⟩ | hn
    · exact List.mem_cons_self
    · exact absurd hn (hdestroyed hds)
  | pended i hds _ =>
    simp only [List.mem_cons, Note.ended.injEq] at hn
    rcases hn with ⟨rfl, rfl, -⟩ | hn
    · exact List.mem_cons_self
    · exact absurd hn (hdestroyed hds)
  | resolved i ip v hds _ =>
    simp only [List.mem_cons, Note.ended.injEq] at hn
    rcases hn with ⟨rfl, rfl, -⟩ | hn
    · exact List.mem_cons_self
    · exact absurd hn (hidle hds)
  | failed i ip e hds _ =>
    simp only [List.mem_cons, Note.ended.injEq] at hn
    rcases hn with ⟨rfl, rfl, -⟩ | hn
    · exact List.mem_cons_self
    · exact absurd hn (hidle hds)

/-- A task that is in the table has not been paused by this step. -/
theorem Passage.paused (hp : Passage V t f n t' f') (hb : Books t f h) (hid : t id)
    (hh : Paused id (h ++ n)) : Paused id h := by
  rcases since_append.1 hh with hn | ⟨hh, -⟩
  · obtain ⟨k, hk, inPlace, rfl⟩ := hn.exists_mem
    exact absurd hid (hb.not_tabled_of_polled (hp.polled_of_ended hk))
  · exact hh

end

end TaskRuntime
