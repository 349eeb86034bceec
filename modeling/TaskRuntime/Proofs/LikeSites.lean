import TaskRuntime.Proofs.Likeness

/-!
# Sites that are alike

`Site.Like` compares two sites as far as the scheduling loop and the tasks can see them: the tables,
in order, the ids on the ready queue, in order, the token, all figures, and the worlds. Each
operation on sites has one lemma here: it leads to sites that are alike again, and what it tells is
the same.

The next ids stand for each other as well. They go on doing so when an id is given out, provided
that the ids after them stand for each other (`Likeness.Follows`); a permutation of all ids that
fixes those that are in use and moves the others up does this until it wraps around.
-/

namespace TaskRuntime

variable {W B V R : Type} {κ : Likeness W B}

/-! ### Tables -/

/-- **Two tables are alike**: entry by entry, in the same order. -/
def Likeness.Tables (κ : Likeness W B) (t t' : Table TaskId B) : Prop :=
  List.Forall₂ (fun e e' ↦ e'.1 = κ.ids e.1 ∧ κ.body e.2 e'.2) t.entries t'.entries

namespace Likeness.Tables

variable {t t' : Table TaskId B} {b b' : B}

theorem symm (h : κ.Tables t t') : κ.symm.Tables t' t := by
  refine List.Forall₂.flip (h.imp fun e e' he ↦ ⟨?_, he.2⟩)
  show e.1 = κ.ids.symm e'.1
  rw [he.1, Equiv.symm_apply_apply]

/-- A table without an id that has not been given out is like itself. -/
theorem refl (h : ∀ id b, t.get? id = some b → κ.ids id = id ∧ κ.body b b) : κ.Tables t t := by
  obtain ⟨entries, hd⟩ := t
  refine List.forall₂_same.2 fun e he ↦ ?_
  obtain ⟨hid, hb⟩ := h e.1 e.2 (Table.find_of_mem hd he)
  exact ⟨hid.symm, hb⟩

theorem get? (h : κ.Tables t t') (id : TaskId) :
    Option.Rel κ.body (t.get? id) (t'.get? (κ.ids id)) := by
  rw [Likeness.Tables] at h
  show Option.Rel κ.body (Table.find id t.entries) (Table.find (κ.ids id) t'.entries)
  generalize t.entries = l, t'.entries = l' at h
  induction h with
  | nil => exact .none
  | @cons e e' _ _ he _ ih =>
    by_cases hid : e.1 = id
    · rw [Table.find, if_pos hid, Table.find, if_pos (he.1.trans (congrArg κ.ids hid))]
      exact .some he.2
    · have hid' : e'.1 ≠ κ.ids id := fun hx ↦ hid (κ.ids.injective (he.1.symm.trans hx))
      rw [Table.find, if_neg hid, Table.find, if_neg hid']
      exact ih

theorem contains (h : κ.Tables t t') (id : TaskId) :
    t'.contains (κ.ids id) = t.contains id := by
  have hget := h.get? id
  rw [Table.contains, Table.contains]
  generalize t.get? id = o, t'.get? (κ.ids id) = o' at hget
  cases hget <;> rfl

theorem size (h : κ.Tables t t') : t'.size = t.size := h.length_eq.symm

theorem isEmpty (h : κ.Tables t t') : t'.isEmpty = t.isEmpty := by
  rw [Likeness.Tables] at h
  show t'.entries.isEmpty = t.entries.isEmpty
  generalize t.entries = l, t'.entries = l' at h
  cases h with
  | nil => rfl
  | cons => rfl

theorem erase (h : κ.Tables t t') (id : TaskId) : κ.Tables (t.erase id) (t'.erase (κ.ids id)) := by
  rw [Likeness.Tables] at h
  show List.Forall₂ _ (Table.without id t.entries) (Table.without (κ.ids id) t'.entries)
  generalize t.entries = l, t'.entries = l' at h
  induction h with
  | nil => exact .nil
  | @cons e e' _ _ he hrest ih =>
    by_cases hid : e.1 = id
    · rw [Table.without, if_pos hid, Table.without, if_pos (he.1.trans (congrArg κ.ids hid))]
      exact hrest
    · have hid' : e'.1 ≠ κ.ids id := fun hx ↦ hid (κ.ids.injective (he.1.symm.trans hx))
      rw [Table.without, if_neg hid, Table.without, if_neg hid']
      exact .cons he ih

theorem insert (h : κ.Tables t t') (id : TaskId) (hb : κ.body b b') :
    κ.Tables (t.insert id b) (t'.insert (κ.ids id) b') := by
  rw [Likeness.Tables] at h
  show List.Forall₂ _ (Table.put id b t.entries) (Table.put (κ.ids id) b' t'.entries)
  generalize t.entries = l, t'.entries = l' at h
  induction h with
  | nil => exact .cons ⟨rfl, hb⟩ .nil
  | @cons e e' _ _ he hrest ih =>
    by_cases hid : e.1 = id
    · rw [Table.put, if_pos hid, Table.put, if_pos (he.1.trans (congrArg κ.ids hid))]
      exact .cons ⟨rfl, hb⟩ hrest
    · have hid' : e'.1 ≠ κ.ids id := fun hx ↦ hid (κ.ids.injective (he.1.symm.trans hx))
      rw [Table.put, if_neg hid, Table.put, if_neg hid']
      exact .cons he ih

end Likeness.Tables

/-! ### Signals -/

theorem ReadyQueue.Synced.ids_push {q : ReadyQueue} (h : q.Synced) (id : TaskId) :
    (q.push id).2.ids = if id ∈ q.ids then q.ids else id :: q.ids := by
  unfold ReadyQueue.push
  by_cases hid : id ∈ q.ids
  · rw [if_pos ((h.mem_iff id).2 hid), if_pos hid]
  · rw [if_neg fun hq ↦ hid ((h.mem_iff id).1 hq), if_neg hid]

/-- **Signals are alike** as far as the executor is concerned: the ids on its ready queue, in order,
and its token. -/
structure Likeness.Signs (κ : Likeness W B) (s s' : Signals) : Prop where
  /-- The queue is in order on the one side. -/
  queue : s.Queue κ.queue
  /-- The queue is in order on the other side. -/
  queue' : s'.Queue κ.queue
  /-- The ids on the queue stand for each other. -/
  ids : (s'.queue κ.queue).ids = (s.queue κ.queue).ids.map κ.ids
  /-- The parker exists on the one side. -/
  parker : κ.parker.index < s.parkers.length
  /-- The parker exists on the other side. -/
  parker' : κ.parker.index < s'.parkers.length
  /-- The token is the same. -/
  token : s'.token κ.parker = s.token κ.parker

namespace Likeness.Signs

variable {s s' : Signals}

theorem symm (h : κ.Signs s s') : κ.symm.Signs s' s where
  queue := h.queue'
  queue' := h.queue
  ids := by
    show (s.queue κ.queue).ids = (s'.queue κ.queue).ids.map κ.ids.symm
    rw [h.ids, List.map_map]
    simp
  parker := h.parker'
  parker' := h.parker
  token := h.token.symm

/-- Signals are like themselves if the queued ids stand for themselves. -/
theorem refl (hq : s.Queue κ.queue) (hp : κ.parker.index < s.parkers.length)
    (hids : ∀ id ∈ (s.queue κ.queue).ids, κ.ids id = id) : κ.Signs s s where
  queue := hq
  queue' := hq
  ids := by
    conv_lhs => rw [← List.map_id (s.queue κ.queue).ids]
    exact List.map_congr_left fun id hid ↦ (hids id hid).symm
  parker := hp
  parker' := hp
  token := rfl

theorem push (h : κ.Signs s s') (id : TaskId) :
    κ.Signs (s.push κ.queue id).2 (s'.push κ.queue (κ.ids id)).2 where
  queue := h.queue.push κ.queue id
  queue' := h.queue'.push κ.queue _
  ids := by
    rw [Signals.queue_push h.queue.lt, Signals.queue_push h.queue'.lt, if_pos rfl, if_pos rfl,
      h.queue.synced.ids_push, h.queue'.synced.ids_push, h.ids]
    by_cases hid : id ∈ (s.queue κ.queue).ids
    · rw [if_pos hid, if_pos (List.mem_map_of_mem hid)]
    · rw [if_neg hid, if_neg fun hm ↦ hid ((List.mem_map_of_injective κ.ids.injective).1 hm)]
      rfl
  parker := h.parker
  parker' := h.parker'
  token := h.token

/-- Somebody pushes for a wake. -/
theorem pushFor (h : κ.Signs s s') (w : Waker) :
    κ.Signs (s.pushFor w) (s'.pushFor (κ.waker w)) := by
  by_cases hq : w.queue = some κ.queue
  · cases hp : w.parker with
    | none =>
      have hs (x : Signals) (u : Waker) (hu : u.parker = none) : x.pushFor u = x := by
        cases hq : u.queue <;> simp [Signals.pushFor, hu, hq]
      rw [hs s w hp, hs s' _ ((κ.parker_waker w).trans hp)]
      exact h
    | some p =>
      have hs (x : Signals) (u : Waker) (hu : u.parker = some p) (hu' : u.queue = some κ.queue) :
          x.pushFor u = (x.push κ.queue u.id).2 := by
        simp [Signals.pushFor, hu, hu']
      rw [hs s w hp hq, hs s' _ ((κ.parker_waker w).trans hp) ((κ.queue_waker w).trans hq),
        κ.id_waker hq]
      exact h.push w.id
  · -- The waker is that of another executor.
    have hw : κ.waker w = w := if_neg hq
    have hother {x : Signals} (hx : x.Queue κ.queue) :
        (x.pushFor w).queue κ.queue = x.queue κ.queue := by
      unfold Signals.pushFor
      split
      · next r _ hr _ =>
        rw [Signals.queue_push hx.lt, if_neg fun e ↦ hq (hr.trans (congrArg some e))]
      · rfl
    rw [hw]
    refine ⟨h.queue.pushFor w, h.queue'.pushFor w, ?_, ?_, ?_, ?_⟩
    · rw [hother h.queue, hother h.queue', h.ids]
    · rw [Signals.length_parkers_pushFor]
      exact h.parker
    · rw [Signals.length_parkers_pushFor]
      exact h.parker'
    · rw [Signals.token_pushFor, Signals.token_pushFor, h.token]

/-- The parker is replaced on both sides. -/
theorem setParker (h : κ.Signs s s') {p p' : Parker} (hp : p'.token = p.token) :
    κ.Signs (s.setParker κ.parker p) (s'.setParker κ.parker p') where
  queue := ⟨h.queue.lt, h.queue.synced⟩
  queue' := ⟨h.queue'.lt, h.queue'.synced⟩
  ids := h.ids
  parker := by simpa [Signals.setParker] using h.parker
  parker' := by simpa [Signals.setParker] using h.parker'
  token := by
    rw [Signals.token, Signals.parker_setParker _ h.parker', Signals.token,
      Signals.parker_setParker _ h.parker, if_pos rfl, if_pos rfl, hp]

/-- Somebody notifies a thread. -/
theorem unpark (h : κ.Signs s s') (r : ParkerRef) : κ.Signs (s.unpark r) (s'.unpark r) where
  queue := ⟨h.queue.lt, h.queue.synced⟩
  queue' := ⟨h.queue'.lt, h.queue'.synced⟩
  ids := h.ids
  parker := by simpa using h.parker
  parker' := by simpa using h.parker'
  token := by rw [Signals.token_unpark h.parker', Signals.token_unpark h.parker, h.token]

/-- Somebody notifies for a wake. -/
theorem unparkFor (h : κ.Signs s s') (w : Waker) :
    κ.Signs (s.unparkFor w) (s'.unparkFor (κ.waker w)) := by
  unfold Signals.unparkFor
  rw [κ.queue_waker, κ.parker_waker]
  split
  · exact h.unpark _
  · exact h

/-- Others act elsewhere. -/
theorem spares (h : κ.Signs s s') {s₁ : Signals} (hs : s.Spares s₁ κ.queue κ.parker) :
    κ.Signs s₁ s' where
  queue := ⟨Nat.lt_of_lt_of_le h.queue.lt hs.queues, hs.queue ▸ h.queue.synced⟩
  queue' := h.queue'
  ids := hs.queue ▸ h.ids
  parker := Nat.lt_of_lt_of_le h.parker hs.parkers
  parker' := h.parker'
  token := h.token.trans hs.token.symm

theorem isEmpty (h : κ.Signs s s') :
    (s'.queue κ.queue).isEmpty = (s.queue κ.queue).isEmpty := by
  rw [ReadyQueue.isEmpty, ReadyQueue.isEmpty, h.ids, List.isEmpty_map]

theorem size (h : κ.Signs s s') : (s'.queue κ.queue).size = (s.queue κ.queue).size := by
  rw [ReadyQueue.size, ReadyQueue.size, h.ids, List.length_map]

/-- No id is queued. -/
theorem pop?_eq_none (h : κ.Signs s s') (hp : s.pop? κ.queue = none) :
    s'.pop? κ.queue = none := by
  have hnone {x : Signals} : x.pop? κ.queue = none ↔ (x.queue κ.queue).ids = [] := by
    rw [Signals.pop?, Option.map_eq_none_iff, ReadyQueue.pop?]
    split <;> simp_all
  rw [hnone] at hp ⊢
  rw [h.ids, hp]
  rfl

/-- The popped ids stand for each other. -/
theorem pop?_eq_some (h : κ.Signs s s') {id : TaskId} {s₁ : Signals}
    (hp : s.pop? κ.queue = some (id, s₁)) :
    ∃ s₁', s'.pop? κ.queue = some (κ.ids id, s₁') ∧ κ.Signs s₁ s₁' := by
  obtain ⟨r, hr, rfl⟩ := Signals.pop?_eq_some hp
  have hids := h.ids
  rw [ReadyQueue.ids_of_pop? hr, List.map_cons] at hids
  obtain ⟨r', hr', hrest⟩ : ∃ r', (s'.queue κ.queue).pop? = some (κ.ids id, r') ∧
      r'.ids = r.ids.map κ.ids := by
    rw [ReadyQueue.pop?, hids]
    exact ⟨_, rfl, rfl⟩
  have hp' : s'.pop? κ.queue = some (κ.ids id, s'.setQueue κ.queue r') := by
    rw [Signals.pop?, hr']
    rfl
  refine ⟨_, hp', h.queue.pop hp, h.queue'.pop hp', ?_, h.parker, h.parker', h.token⟩
  rw [Signals.queue_setQueue _ _ _ _ h.queue.lt, Signals.queue_setQueue _ _ _ _ h.queue'.lt,
    if_pos rfl, if_pos rfl, hrest]

/-- Both threads wake up. -/
theorem park? (h : κ.Signs s s') {s₁ : Signals} (hp : s.park? κ.parker = some s₁) :
    ∃ s₁', s'.park? κ.parker = some s₁' ∧ κ.Signs s₁ s₁' := by
  obtain ⟨p, hpark, rfl⟩ := Option.map_eq_some_iff.1 hp
  have htoken : (s.parker κ.parker).token = true := by
    rw [← Parker.park?_isSome, hpark]
    rfl
  have htoken' : (s'.parker κ.parker).token = true := h.token.trans htoken
  rw [Parker.park?, if_pos htoken] at hpark
  obtain rfl := Option.some.inj hpark
  refine ⟨s'.setParker κ.parker { s'.parker κ.parker with token := false }, ?_, h.setParker rfl⟩
  rw [Signals.park?, Parker.park?, if_pos htoken']
  rfl

/-- Both threads sleep for a limited time. -/
theorem parkFor (h : κ.Signs s s') :
    (s'.parkFor κ.parker).1 = (s.parkFor κ.parker).1 ∧
      κ.Signs (s.parkFor κ.parker).2 (s'.parkFor κ.parker).2 :=
  ⟨h.token, h.setParker rfl⟩

end Likeness.Signs

/-! ### Sites -/

/-- **Two sites are alike.** -/
inductive Site.Like (κ : Likeness W B) : Site W B → Site W B → Prop
  /-- Table, next id, signals and world are alike, and all else is the same. -/
  | mk {x tasks nextId s s' w w'} (hq : x.queue = κ.queue) (hp : x.parker = κ.parker)
      (ht : κ.Tables x.tasks tasks) (hn : nextId = κ.ids x.nextId) (hs : κ.Signs s s')
      (hw : κ.world w w') : Like κ ⟨x, s, w⟩ ⟨{ x with tasks, nextId }, s', w'⟩

/-- The next id on the one side stands for the next id on the other also after one more id has been
given out. -/
def Likeness.Follows (κ : Likeness W B) (s : Site W B) : Prop :=
  κ.ids (s.executor.nextId + 1) = κ.ids s.executor.nextId + 1

namespace Site.Like

variable {β : Behaviour W B V} {s s' : Site W B} {b b' : B}

theorem symm (h : s.Like κ s') : s'.Like κ.symm s := by
  obtain @⟨x, tasks, nextId, s, s', w, w', hq, hp, ht, rfl, hs, hw⟩ := h
  exact .mk (x := { x with tasks, nextId := κ.ids x.nextId }) hq hp ht.symm
    (Equiv.symm_apply_apply ..).symm hs.symm hw

theorem blind (h : s.Like κ s') : s.Like κ.blind s' := by
  obtain ⟨hq, hp, ht, hn, hs, -⟩ := h
  exact .mk hq hp ht hn ⟨hs.queue, hs.queue', hs.ids, hs.parker, hs.parker', hs.token⟩ trivial

theorem queue (h : s.Like κ s') : s.executor.queue = κ.queue ∧ s'.executor.queue = κ.queue := by
  obtain ⟨hq, -⟩ := h
  exact ⟨hq, hq⟩

theorem parker (h : s.Like κ s') :
    s.executor.parker = κ.parker ∧ s'.executor.parker = κ.parker := by
  obtain ⟨-, hp, -⟩ := h
  exact ⟨hp, hp⟩

theorem signals (h : s.Like κ s') : κ.Signs s.signals s'.signals := by
  obtain ⟨-, -, -, -, hs, -⟩ := h
  exact hs

theorem world (h : s.Like κ s') : κ.world s.world s'.world := by
  obtain ⟨-, -, -, -, -, hw⟩ := h
  exact hw

theorem nextId (h : s.Like κ s') : s'.executor.nextId = κ.ids s.executor.nextId := by
  obtain ⟨-, -, -, hn, -, -⟩ := h
  exact hn

theorem isEmpty (h : s.Like κ s') :
    s'.executor.tasks.isEmpty = s.executor.tasks.isEmpty := by
  obtain ⟨-, -, ht, -, -, -⟩ := h
  exact ht.isEmpty

/-- The executors hand out wakers that stand for each other. -/
theorem waker (h : s.Like κ s') (id : TaskId) :
    s'.executor.waker (κ.ids id) = κ.waker (s.executor.waker id) := by
  obtain @⟨x, _, _, _, _, _, _, hq, -⟩ := h
  show (⟨some x.parker, κ.ids id, some x.queue⟩ : Waker) = κ.waker ⟨some x.parker, id, some x.queue⟩
  rw [Likeness.waker, if_pos (congrArg some hq)]

/-- The executors tell the same about themselves. -/
theorem figures (h : s.Like κ s') : s'.figures = s.figures := by
  obtain @⟨x, tasks, _, s, s', _, _, hq, -, ht, -, hs, -⟩ := h
  simp only [Site.figures, ht.size, hq, hs.size]

/-- The signals change alike. -/
theorem onSignals (h : s.Like κ s') {u u' : Signals}
    (hu : κ.Signs s.signals s'.signals → κ.Signs u u') :
    Like κ { s with signals := u } { s' with signals := u' } := by
  obtain ⟨hq, hp, ht, hn, hs, hw⟩ := h
  exact .mk hq hp ht hn (hu hs) hw

/-- The worlds change alike. -/
theorem onWorld (h : s.Like κ s') {w w' : W} (hw : κ.world w w') :
    Like κ { s with world := w } { s' with world := w' } := by
  obtain ⟨hq, hp, ht, hn, hs, -⟩ := h
  exact .mk hq hp ht hn hs hw

/-- Bodies are destroyed. -/
theorem destroy (h : s.Like κ s') (hβ : β.Respects κ) (hb : κ.body b b') (id : TaskId) :
    κ.Tells (s.destroy (V := V) β id b).1 (s'.destroy (V := V) β (κ.ids id) b').1 ∧
      (s.destroy (V := V) β id b).2.Like κ (s'.destroy (V := V) β (κ.ids id) b').2 :=
  ⟨.cons .nil, h.onWorld (hβ.drop b b' _ _ hb h.world)⟩

/-- Bodies are put into the tables. -/
theorem insert (h : s.Like κ s') (hβ : β.Respects κ) (hb : κ.body b b') (id : TaskId) :
    κ.Tells (s.insert (V := V) β id b).1 (s'.insert (V := V) β (κ.ids id) b').1 ∧
      (s.insert (V := V) β id b).2.Like κ (s'.insert (V := V) β (κ.ids id) b').2 := by
  have hcontains : s'.executor.tasks.contains (κ.ids id) = s.executor.tasks.contains id := by
    obtain ⟨-, -, ht, -⟩ := h
    exact ht.contains id
  unfold Site.insert
  rw [hcontains]
  split
  · exact h.destroy hβ hb id
  · obtain ⟨hq, hp, ht, hn, hs, hw⟩ := h
    exact ⟨.nil, .mk hq hp (ht.insert id hb) hn hs hw⟩

/-- New tasks are put into the tables, and their ids are queued. -/
theorem enqueue (h : s.Like κ s') (hβ : β.Respects κ) (hb : κ.body b b') (id : TaskId) :
    κ.Tells (s.enqueue (V := V) β id b).1 (s'.enqueue (V := V) β (κ.ids id) b').1 ∧
      (s.enqueue (V := V) β id b).2.Like κ (s'.enqueue (V := V) β (κ.ids id) b').2 := by
  obtain ⟨hnotes, hsite⟩ := h.insert hβ hb id
  rcases hi : s.insert (V := V) β id b with ⟨n, t⟩
  rcases hi' : s'.insert (V := V) β (κ.ids id) b' with ⟨n', t'⟩
  rw [hi, hi'] at hnotes hsite
  simp only [Site.enqueue, hi, hi']
  refine ⟨.cons hnotes, ?_⟩
  obtain @⟨x, tasks, nextId, _, _, _, _, hq, hp, ht, hn, hs, hw⟩ := hsite
  have hs := hs.push id
  rw [← hq] at hs
  exact .mk (x := { x with spawned := x.spawned + 1 }) hq hp ht hn hs hw

/-- Ids are given out. -/
theorem allocate (h : s.Like κ s') (hf : κ.Follows s) :
    Like κ { s with executor := s.executor.allocate.2 }
      { s' with executor := s'.executor.allocate.2 } := by
  obtain @⟨x, tasks, nextId, _, _, _, _, hq, hp, ht, rfl, hs, hw⟩ := h
  exact .mk (x := { x with nextId := x.nextId + 1 }) hq hp ht hf.symm hs hw

/-- Tasks are spawned. -/
theorem spawn (h : s.Like κ s') (hβ : β.Respects κ) (hf : κ.Follows s) (hb : κ.body b b') :
    (s'.spawn (V := V) β b').1 = κ.ids (s.spawn (V := V) β b).1 ∧
      κ.Tells (s.spawn (V := V) β b).2.1 (s'.spawn (V := V) β b').2.1 ∧
      (s.spawn (V := V) β b).2.2.Like κ (s'.spawn (V := V) β b').2.2 := by
  obtain ⟨hnotes, hsite⟩ := (h.allocate hf).enqueue (V := V) hβ hb s.executor.nextId
  rw [← h.nextId] at hnotes hsite
  refine ⟨h.nextId, ?_, hsite⟩
  have hissued : (.issued s'.executor.nextId : Note V) = κ.note (.issued s.executor.nextId) :=
    congrArg Note.issued h.nextId
  show κ.Tells (.issued s.executor.nextId :: _) (.issued s'.executor.nextId :: _)
  rw [hissued]
  exact .cons hnotes

/-- **Requests are answered alike.** -/
theorem request? (h : s.Like κ s') (hβ : β.Respects κ) (hf : κ.Follows s) {Q : R → R → Prop}
    {p p' p₁ : Act W B V R} (hp : p.Like κ Q p') {n : List (Note V)} {s₁ : Site W B}
    (hr : p.request? β s = some (n, p₁, s₁)) :
    ∃ n' p₁' s₁', p'.request? β s' = some (n', p₁', s₁') ∧ κ.Tells n n' ∧ p₁.Like κ Q p₁' ∧
      s₁.Like κ s₁' := by
  cases hp with
  | done hr' => simp [Act.request?] at hr
  | wake hk => simp [Act.request?] at hr
  | blockOn hb hk => simp [Act.request?] at hr
  | look hk =>
    obtain ⟨rfl, rfl, rfl⟩ : [] = n ∧ _ ∧ s = s₁ := by simpa [Act.request?] using hr
    exact ⟨_, _, _, rfl, .nil, hk _ _ h.world, h⟩
  | put hw hk =>
    obtain ⟨rfl, rfl, rfl⟩ : [] = n ∧ _ ∧ _ := by simpa [Act.request?] using hr
    exact ⟨_, _, _, rfl, .nil, hk, h.onWorld hw⟩
  | unpark hk =>
    obtain ⟨rfl, rfl, rfl⟩ : [] = n ∧ _ ∧ _ := by simpa [Act.request?] using hr
    refine ⟨_, _, _, rfl, .nil, hk, h.onSignals fun hs ↦ ?_⟩
    rw [h.parker.1, h.parker.2]
    exact hs.unpark κ.parker
  | @parkFor k k' hk =>
    obtain ⟨rfl, rfl, rfl⟩ : [] = n ∧ _ ∧ _ := by simpa [Act.request?] using hr
    have htoken : (s'.signals.parkFor s'.executor.parker).1 =
        (s.signals.parkFor s.executor.parker).1 := by
      rw [h.parker.1, h.parker.2]
      exact h.signals.parkFor.1
    refine ⟨_, _, _, rfl, .nil, ?_, h.onSignals fun hs ↦ ?_⟩
    · show Act.Like κ Q (k _) (k' (s'.signals.parkFor s'.executor.parker).1)
      rw [htoken]
      exact hk _
    · rw [h.parker.1, h.parker.2]
      exact hs.parkFor.2
  | figures hk =>
    obtain ⟨rfl, rfl, rfl⟩ : [] = n ∧ _ ∧ s = s₁ := by simpa [Act.request?] using hr
    refine ⟨_, _, _, rfl, .nil, ?_, h⟩
    rw [h.figures]
    exact hk _
  | @spawn b b' k k' hb he hk =>
    obtain ⟨rfl, rfl, rfl⟩ : _ ∧ _ ∧ _ := by simpa [Act.request?] using hr
    obtain ⟨hid, hnotes, hsite⟩ := h.spawn (V := V) hβ hf hb
    refine ⟨_, _, _, rfl, hnotes, ?_, hsite⟩
    show Act.Like κ Q (k _) (k' (.ok (s'.spawn (V := V) β b').1))
    rw [hid]
    exact hk _

end Site.Like

end TaskRuntime
