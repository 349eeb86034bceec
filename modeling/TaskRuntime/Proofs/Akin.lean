import TaskRuntime.Proofs.LikeSites
import TaskRuntime.Proofs.Observed

/-!
# Akin ensembles

Two ensembles are akin, for the notes that have been seen of both, if nobody who sees only sights
can tell them apart: they have the same tasks, next id and calls, and the same ids on the ready
queue once those of tasks that have come to their ends are left out. Tokens, wakes that have yet to
notify, the counts of parkings and stale ids, and what tasks cannot tell of the world may differ,
and so may the position of the active call as long as both are in the scheduling loop
(`Doing.Looping`). A loop that has found both queue and table empty has left it, and only an
ensemble that has done the same is akin.

## What keeps ensembles akin

* A step that is not seen, and noise, of either of them (`Ensemble.Akin.unseen`,
  `Ensemble.Akin.noise`).
* The same thing done by others to both, or the next step of both if neither loop goes round: these
  steps tell the same (`Ensemble.Akin.seen`, `Ensemble.Akin.next?`).

There is one lemma for each operation on sites and for each function of the loop, as for sites that
are alike. Ids and bodies are the same on both sides here, but the queues are not.
-/

namespace TaskRuntime

variable {W B V R : Type} {ω : Setoid W} {β : Behaviour W B V} {σ : Surroundings W B V}
  {h n : List (Note V)}

/-! ### Signals -/

theorem unspent_append {ids ids' : List TaskId}
    (he : ∀ id, (phase id h).ended = true → (phase id (h ++ n)).ended = true)
    (hu : unspent h ids' = unspent h ids) : unspent (h ++ n) ids' = unspent (h ++ n) ids := by
  have hfilter (l : List TaskId) : unspent (h ++ n) l = unspent (h ++ n) (unspent h l) := by
    rw [unspent, unspent, unspent, List.filter_filter]
    refine List.filter_congr fun id _ ↦ ?_
    cases hid : (phase id h).ended with
    | false => simp
    | true => simp [he id hid]
  rw [hfilter ids', hu, ← hfilter]

/-- What a push does to the ids of tasks that have not come to their ends depends on these alone. -/
theorem ReadyQueue.Synced.unspent_push {q : ReadyQueue} (hq : q.Synced) (id : TaskId) :
    unspent h (q.push id).2.ids =
      if (phase id h).ended = true ∨ id ∈ unspent h q.ids then unspent h q.ids
      else id :: unspent h q.ids := by
  rw [hq.ids_push]
  have hmem : id ∈ unspent h q.ids ↔ id ∈ q.ids ∧ (phase id h).ended = false := by
    simp [unspent]
  simp only [hmem]
  by_cases hid : id ∈ q.ids <;> cases he : (phase id h).ended <;> simp [unspent, hid, he]

/-- **Signals are akin** as far as one executor is concerned: leaving out tasks that have come to
their ends, the same ids are queued, in the same order. -/
structure Signals.Akin (q : QueueRef) (h : List (Note V)) (u u' : Signals) : Prop where
  /-- The queue is in order on the one side. -/
  queue : u.Queue q
  /-- The queue is in order on the other side. -/
  queue' : u'.Queue q
  /-- The same ids are queued. -/
  ids : unspent h (u'.queue q).ids = unspent h (u.queue q).ids

namespace Signals.Akin

variable {q : QueueRef} {u u' v v' : Signals}

theorem symm (ha : u.Akin q h u') : u'.Akin q h u := ⟨ha.queue', ha.queue, ha.ids.symm⟩

/-- Something happens to the one side that leaves the queue as it is, up to tasks that have come to
their ends. -/
theorem left (ha : u.Akin q h u') (hv : v.Queue q)
    (hu : unspent h (v.queue q).ids = unspent h (u.queue q).ids) : v.Akin q h u' :=
  ⟨hv, ha.queue', ha.ids.trans hu.symm⟩

/-- The same happens to both sides, and leaves the queues as they are. -/
theorem both (ha : u.Akin q h u') (hv : v.queue q = u.queue q) (hv' : v'.queue q = u'.queue q)
    (hl : v.queues.length = u.queues.length) (hl' : v'.queues.length = u'.queues.length) :
    v.Akin q h v' where
  queue := ⟨hl ▸ ha.queue.lt, hv ▸ ha.queue.synced⟩
  queue' := ⟨hl' ▸ ha.queue'.lt, hv' ▸ ha.queue'.synced⟩
  ids := by rw [hv, hv', ha.ids]

theorem append (ha : u.Akin q h u')
    (he : ∀ id, (phase id h).ended = true → (phase id (h ++ n)).ended = true) :
    u.Akin q (h ++ n) u' :=
  ⟨ha.queue, ha.queue', unspent_append he ha.ids⟩

theorem push (ha : u.Akin q h u') (r : QueueRef) (id : TaskId) :
    (u.push r id).2.Akin q h (u'.push r id).2 where
  queue := ha.queue.push r id
  queue' := ha.queue'.push r id
  ids := by
    rw [queue_push ha.queue.lt, queue_push ha.queue'.lt]
    split
    · rw [ha.queue.synced.unspent_push, ha.queue'.synced.unspent_push, ha.ids]
    · exact ha.ids

theorem pushFor (ha : u.Akin q h u') (w : Waker) : (u.pushFor w).Akin q h (u'.pushFor w) := by
  unfold Signals.pushFor
  split
  · exact ha.push _ _
  · exact ha

theorem unparkFor (ha : u.Akin q h u') (w : Waker) : (u.unparkFor w).Akin q h (u'.unparkFor w) :=
  ha.both (queue_unparkFor _ _ _) (queue_unparkFor _ _ _) (by simp) (by simp)

/-- The ids of tasks that have not come to their ends are popped on both sides. -/
theorem pop (ha : u.Akin q h u') {id id' : TaskId} (hp : u.pop? q = some (id, v))
    (hp' : u'.pop? q = some (id', v')) (hid : (phase id h).ended = false)
    (hid' : (phase id' h).ended = false) : id' = id ∧ v.Akin q h v' := by
  have hids := ha.ids
  rw [ha.queue.ids_of_pop? hp, ha.queue'.ids_of_pop? hp'] at hids
  have hcons {i : TaskId} {l : List TaskId} (hi : (phase i h).ended = false) :
      unspent h (i :: l) = i :: unspent h l := by simp [unspent, hi]
  rw [hcons hid, hcons hid'] at hids
  obtain ⟨rfl, hrest⟩ := List.cons.inj hids
  exact ⟨rfl, ha.queue.pop hp, ha.queue'.pop hp', hrest⟩

end Signals.Akin

/-- A push for a wake of a task that has come to its end, or for one of another executor. -/
theorem Signals.Queue.unspent_pushFor {u : Signals} {q : QueueRef} (hq : u.Queue q) {w : Waker}
    (hw : w.queue = some q → (phase w.id h).ended = true) :
    unspent h ((u.pushFor w).queue q).ids = unspent h (u.queue q).ids := by
  unfold Signals.pushFor
  split
  · next r p hr hp =>
    rw [queue_push hq.lt]
    split
    · next hrq => rw [hq.synced.unspent_push, if_pos (Or.inl (hw (hr.trans (congrArg some hrq))))]
    · rfl
  · rfl

/-! ### Sites -/

/-- **Two sites are akin**: all but signals, worlds, and the counts of parkings and stale ids is the
same. -/
inductive Site.Akin (ω : Setoid W) (h : List (Note V)) : Site W B → Site W B → Prop
  | mk {x : Executor B} {u u' : Signals} {w w' : W} {k l : Nat} (hs : u.Akin x.queue h u')
      (hw : ω w w') : Akin ω h ⟨x, u, w⟩ ⟨{ x with parks := k, stale := l }, u', w'⟩

namespace Site.Akin

variable {s s' : Site W B}

theorem symm (ha : s.Akin ω h s') : s'.Akin ω h s := by
  obtain @⟨x, u, u', w, w', k, l, hs, hw⟩ := ha
  exact .mk (x := { x with parks := k, stale := l }) (k := x.parks) (l := x.stale) hs.symm
    (ω.symm hw)

theorem world (ha : s.Akin ω h s') : ω s.world s'.world := by
  obtain ⟨-, hw⟩ := ha
  exact hw

theorem tasks (ha : s.Akin ω h s') : s'.executor.tasks = s.executor.tasks := by
  obtain ⟨-, -⟩ := ha
  rfl

theorem refs (ha : s.Akin ω h s') : s'.executor.refs = s.executor.refs := by
  obtain ⟨-, -⟩ := ha
  rfl

theorem signals (ha : s.Akin ω h s') : s.signals.Akin s.executor.queue h s'.signals := by
  obtain ⟨hs, -⟩ := ha
  exact hs

theorem append (ha : s.Akin ω h s')
    (he : ∀ id, (phase id h).ended = true → (phase id (h ++ n)).ended = true) :
    s.Akin ω (h ++ n) s' := by
  obtain ⟨hs, hw⟩ := ha
  exact .mk (hs.append he) hw

/-- Something happens on the one side that nobody can tell. -/
theorem left {x : Executor B} {u v : Signals} {w w' : W} {k l : Nat}
    (ha : Akin ω h ⟨x, u, w⟩ s') (hv : v.Queue x.queue)
    (hu : unspent h (v.queue x.queue).ids = unspent h (u.queue x.queue).ids) (hw : ω w w') :
    Akin ω h ⟨{ x with parks := k, stale := l }, v, w'⟩ s' := by
  obtain @⟨_, _, u', _, w'', k', l', hs, hw'⟩ := ha
  exact .mk (x := { x with parks := k, stale := l }) (k := k') (l := l') (hs.left hv hu)
    (ω.trans (ω.symm hw) hw')

theorem onWorld (ha : s.Akin ω h s') {w w' : W} (hw : ω w w') :
    Akin ω h { s with world := w } { s' with world := w' } := by
  obtain ⟨hs, -⟩ := ha
  exact .mk hs hw

theorem onSignals (ha : s.Akin ω h s') {u u' : Signals}
    (hu : s.signals.Akin s.executor.queue h s'.signals → u.Akin s.executor.queue h u') :
    Akin ω h { s with signals := u } { s' with signals := u' } := by
  obtain ⟨hs, hw⟩ := ha
  exact .mk (hu hs) hw

/-- A body is destroyed on both sides. -/
theorem destroy (ha : s.Akin ω h s') (hβ : β.Respects (.plain ω)) (id : TaskId) (b : B) :
    (s'.destroy (V := V) β id b).1 = (s.destroy (V := V) β id b).1 ∧
      (s.destroy (V := V) β id b).2.Akin ω h (s'.destroy (V := V) β id b).2 :=
  ⟨rfl, ha.onWorld (hβ.drop b b _ _ rfl ha.world)⟩

/-- A body is put into both tables. -/
theorem insert (ha : s.Akin ω h s') (hβ : β.Respects (.plain ω)) (id : TaskId) (b : B) :
    (s'.insert (V := V) β id b).1 = (s.insert (V := V) β id b).1 ∧
      (s.insert (V := V) β id b).2.Akin ω h (s'.insert (V := V) β id b).2 := by
  unfold Site.insert
  rw [ha.tasks]
  split
  · exact ha.destroy hβ id b
  · obtain @⟨x, _, _, _, _, _, _, hs, hw⟩ := ha
    exact ⟨rfl, .mk (x := { x with tasks := x.tasks.insert id b }) hs hw⟩

/-- A new task is put into both tables, and its id is queued. -/
theorem enqueue (ha : s.Akin ω h s') (hβ : β.Respects (.plain ω)) (id : TaskId) (b : B) :
    (s'.enqueue (V := V) β id b).1 = (s.enqueue (V := V) β id b).1 ∧
      (s.enqueue (V := V) β id b).2.Akin ω h (s'.enqueue (V := V) β id b).2 := by
  obtain ⟨hnotes, hsite⟩ := ha.insert (V := V) hβ id b
  rcases hi : s.insert (V := V) β id b with ⟨l, t⟩
  rcases hi' : s'.insert (V := V) β id b with ⟨l', t'⟩
  rw [hi, hi'] at hnotes hsite
  simp only [Site.enqueue, hi, hi', hnotes, true_and]
  obtain @⟨x, _, _, _, _, _, _, hs, hw⟩ := hsite
  exact .mk (x := { x with spawned := x.spawned + 1 }) (hs.push _ _) hw

theorem nextId (ha : s.Akin ω h s') : s'.executor.nextId = s.executor.nextId := by
  obtain ⟨-, -⟩ := ha
  rfl

/-- An id is given out on both sides. -/
theorem allocate (ha : s.Akin ω h s') :
    Akin ω h { s with executor := s.executor.allocate.2 }
      { s' with executor := s'.executor.allocate.2 } := by
  obtain @⟨x, _, _, _, _, _, _, hs, hw⟩ := ha
  exact .mk (x := { x with nextId := x.nextId + 1 }) hs hw

theorem waker (ha : s.Akin ω h s') (id : TaskId) :
    s'.executor.waker id = s.executor.waker id := by
  obtain ⟨-, -⟩ := ha
  rfl

/-- A task is spawned on both sides. -/
theorem spawn (ha : s.Akin ω h s') (hβ : β.Respects (.plain ω)) (b : B) :
    (s'.spawn (V := V) β b).1 = (s.spawn (V := V) β b).1 ∧
      (s'.spawn (V := V) β b).2.1 = (s.spawn (V := V) β b).2.1 ∧
      (s.spawn (V := V) β b).2.2.Akin ω h (s'.spawn (V := V) β b).2.2 := by
  obtain ⟨hnotes, hsite⟩ := ha.allocate.enqueue (V := V) hβ s.executor.nextId b
  obtain @⟨x, u, u', w, w', k, l, hs, hw⟩ := ha
  exact ⟨rfl, congrArg (Note.issued x.nextId :: ·) hnotes, hsite⟩

/-- **A seemly request is answered alike on both sides.** -/
theorem request? (ha : s.Akin ω h s') (hβ : β.Respects (.plain ω)) {Q : R → R → Prop}
    {p p' p₁ : Act W B V R} (hp : p.Like (.plain ω) Q p') (hq : p.Seemly) {s₁ : Site W B}
    (hr : p.request? β s = some (n, p₁, s₁)) :
    ∃ p₁' s₁', p'.request? β s' = some (n, p₁', s₁') ∧ p₁.Like (.plain ω) Q p₁' ∧
      s₁.Akin ω h s₁' := by
  cases hp with
  | done hr' => simp [Act.request?] at hr
  | wake hk => simp [Act.request?] at hr
  | blockOn hb hk => simp [Act.request?] at hr
  | parkFor hk => exact hq.elim
  | figures hk => exact hq.elim
  | look hk =>
    obtain ⟨rfl, rfl, rfl⟩ : [] = n ∧ _ ∧ s = s₁ := by simpa [Act.request?] using hr
    exact ⟨_, _, rfl, hk _ _ ha.world, ha⟩
  | put hw hk =>
    obtain ⟨rfl, rfl, rfl⟩ : [] = n ∧ _ ∧ _ := by simpa [Act.request?] using hr
    exact ⟨_, _, rfl, hk, ha.onWorld hw⟩
  | unpark hk =>
    obtain ⟨rfl, rfl, rfl⟩ : [] = n ∧ _ ∧ _ := by simpa [Act.request?] using hr
    exact ⟨_, _, rfl, hk, ha.onSignals fun hs ↦ hs.both rfl rfl rfl rfl⟩
  | @spawn b b' k k' hb he hk =>
    obtain rfl : b = b' := hb
    obtain ⟨rfl, rfl, rfl⟩ : _ ∧ _ ∧ _ := by simpa [Act.request?] using hr
    obtain ⟨hid, hnotes, hsite⟩ := ha.spawn (V := V) hβ b
    refine ⟨k' (.ok (s'.spawn (V := V) β b).1), _, by rw [← hnotes]; rfl, ?_, hsite⟩
    rw [hid]
    exact hk _

end Site.Akin

/-! ### Calls -/

/-- Two calls poll the same task, with programs that are alike. -/
inductive Doing.Together (ω : Setoid W) : Doing W B V → Doing W B V → Prop
  /-- They poll their own task in place. -/
  | first {p p'} (hp : p.Like (.plain ω) (Likeness.plain ω).Ends p') :
      Together ω (.first p) (.first p')
  /-- They poll a task that was popped. -/
  | poll {id p p'} (hp : p.Like (.plain ω) (Likeness.plain ω).Ends p') :
      Together ω (.poll id p) (.poll id p')

/-- **Two active calls are akin**: both poll, both are in the loop, or both have left it. -/
inductive Doing.Akin (ω : Setoid W) (σ : Surroundings W B V) (tasks : Table TaskId B) :
    Doing W B V → Doing W B V → Prop
  /-- Both poll. -/
  | polling {d d'} (h : d.Together ω d') : Akin ω σ tasks d d'
  /-- Both are in the loop. -/
  | looping {d d'} (hd : d.Looping σ tasks) (hd' : d'.Looping σ tasks) : Akin ω σ tasks d d'
  /-- Both are about to find that no task is left. -/
  | leaving (ht : tasks.isEmpty = true) : Akin ω σ tasks .check .check

theorem Act.Like.plain_symm {Q : R → R → Prop} {p p' : Act W B V R} (h : p.Like (.plain ω) Q p') :
    p'.Like (.plain ω) (fun r r' ↦ Q r' r) p := by
  have hsymm := h.symm
  rwa [Likeness.plain_symm] at hsymm

theorem Likeness.ends_plain_symm :
    (fun r r' : Polled V × B ↦ (plain ω).Ends r' r) = (plain ω).Ends :=
  funext fun _ ↦ funext fun _ ↦ propext <| by rw [ends_plain, ends_plain, eq_comm]

namespace Doing

variable {tasks : Table TaskId B} {d d' : Doing W B V}

theorem Together.symm (h : d.Together ω d') : d'.Together ω d := by
  cases h with
  | first hp => exact .first (Likeness.ends_plain_symm ▸ hp.plain_symm)
  | poll hp => exact .poll (Likeness.ends_plain_symm ▸ hp.plain_symm)

/-- Both calls get the same result. -/
theorem Together.resume (h : d.Together ω d') (result : Except Failure (Option V)) :
    (d.resume result).Together ω (d'.resume result) := by
  cases h with
  | first hp => exact .first (hp.answered result)
  | poll hp => exact .poll (hp.answered result)

theorem Akin.symm (h : d.Akin ω σ tasks d') : d'.Akin ω σ tasks d := by
  cases h with
  | polling h => exact .polling h.symm
  | looping hd hd' => exact .looping hd' hd
  | leaving ht => exact .leaving ht

/-- What is akin to a call in the loop is in the loop. -/
theorem Akin.looping_right (h : d.Akin ω σ tasks d') (hd : d.Looping σ tasks) :
    d'.Looping σ tasks := by
  cases h with
  | polling h => cases h <;> cases hd
  | looping _ hd' => exact hd'
  | leaving ht =>
    cases hd with
    | check ht' => simp [ht] at ht'

end Doing

/-- Two calls of the same task are akin, with positions that are related. -/
structure Call.Akin (D : Doing W B V → Doing W B V → Prop) (c c' : Call W B V) : Prop where
  /-- They have the same task. -/
  id : c'.id = c.id
  /-- They hold the same body. -/
  held : c'.held = c.held
  /-- They have the same value. -/
  slot : c'.slot = c.slot
  /-- Their positions are related. -/
  doing : D c.doing c'.doing

theorem Call.Akin.symm {D D' : Doing W B V → Doing W B V → Prop} {c c' : Call W B V}
    (h : c.Akin D c') (hD : ∀ d d', D d d' → D' d' d) : c'.Akin D' c :=
  ⟨h.id.symm, h.held.symm, h.slot.symm, hD _ _ h.doing⟩

/-- The slots of calls that are akin are filled. -/
theorem Call.Akin.fill {D : Doing W B V → Doing W B V → Prop} {c c' : Call W B V}
    (h : c.Akin D c') (id : TaskId) (v : V) :
    Call.Akin D (if c.id = id then { c with slot := some v } else c)
      (if c'.id = id then { c' with slot := some v } else c') := by
  by_cases hid : c.id = id
  · rw [if_pos hid, if_pos (h.id.trans hid)]
    exact ⟨h.id, h.held, rfl, h.doing⟩
  · rw [if_neg hid, if_neg fun e ↦ hid (h.id.symm.trans e)]
    exact h

/-- Calls that wait for the ones above them are akin. -/
abbrev Waiting (ω : Setoid W) : List (Call W B V) → List (Call W B V) → Prop :=
  List.Forall₂ (Call.Akin (Doing.Together ω))

/-- **Two stacks of calls are akin.** -/
inductive Calls (ω : Setoid W) (σ : Surroundings W B V) (tasks : Table TaskId B) :
    List (Call W B V) → List (Call W B V) → Prop
  /-- No call is running. -/
  | nil : Calls ω σ tasks [] []
  /-- The active calls are akin, and so are those that wait. -/
  | cons {c c' rest rest'} (hc : c.Akin (Doing.Akin ω σ tasks) c') (hr : Waiting ω rest rest') :
      Calls ω σ tasks (c :: rest) (c' :: rest')

namespace Calls

variable {tasks : Table TaskId B} {calls calls' rest rest' : List (Call W B V)}
  {c c' : Call W B V}

theorem symm (h : Calls ω σ tasks calls calls') : Calls ω σ tasks calls' calls := by
  cases h with
  | nil => exact .nil
  | cons hc hr =>
    refine .cons (hc.symm fun _ _ ↦ .symm) ?_
    exact hr.flip.imp fun c c' h ↦ h.symm fun _ _ ↦ .symm

/-- The active call on the one side gets to another position in the loop. -/
theorem looping {d : Doing W B V} (h : Calls ω σ tasks (c :: rest) calls')
    (hd : c.doing.Looping σ tasks) (hd' : d.Looping σ tasks) :
    Calls ω σ tasks ({ c with doing := d } :: rest) calls' := by
  cases h with
  | cons hc hr =>
    exact .cons ⟨hc.id, hc.held, hc.slot, .looping hd' (hc.doing.looping_right hd)⟩ hr

/-- The calls of which the first has got a result. -/
theorem resumed (h : Waiting ω rest rest') (result : Except Failure (Option V)) :
    Calls ω σ tasks (Machine.resumed result rest) (Machine.resumed result rest') := by
  cases h with
  | nil => exact .nil
  | cons hc hr => exact .cons ⟨hc.id, hc.held, hc.slot, .polling (hc.doing.resume result)⟩ hr

theorem fill (h : Waiting ω rest rest') (id : TaskId) (v : V) :
    Waiting ω (Machine.fill id v rest) (Machine.fill id v rest') := by
  simp only [Waiting, Machine.fill, List.forall₂_map_left_iff, List.forall₂_map_right_iff]
  exact h.imp fun c c' hc ↦ hc.fill id v

end Calls

/-! ### Machines -/

/-- **Two machines are akin.** -/
structure Machine.Akin (ω : Setoid W) (σ : Surroundings W B V) (h : List (Note V))
    (m m' : Machine W B V) : Prop where
  /-- The sites are akin. -/
  site : m.site.Akin ω h m'.site
  /-- The calls are akin. -/
  calls : Calls ω σ m.site.executor.tasks m.calls m'.calls
  /-- Between the runs, the last one has ended in the same way. -/
  outcome : m.calls = [] → m'.outcome = m.outcome

/-- Two steps of machines are akin: they tell the same, and lead to machines that are akin. -/
def StepsAkin (ω : Setoid W) (σ : Surroundings W B V) (h : List (Note V))
    (r r' : List (Note V) × Machine W B V) : Prop :=
  r'.1 = r.1 ∧ r.2.Akin ω σ h r'.2

theorem StepsAkin.prepend {r r' : List (Note V) × Machine W B V} {n l : List (Note V)}
    (hs : StepsAkin ω σ h r r') (hn : l = n) :
    StepsAkin ω σ h (n ++ r.1, r.2) (l ++ r'.1, r'.2) :=
  ⟨by rw [hn, hs.1], hs.2⟩

namespace Machine

variable {site site' : Site W B} {c c' : Call W B V} {rest rest' calls calls' : List (Call W B V)}
  {D : Doing W B V → Doing W B V → Prop}

theorem Akin.symm {m m' : Machine W B V} (ha : m.Akin ω σ h m') : m'.Akin ω σ h m where
  site := ha.site.symm
  calls := by
    rw [ha.site.tasks]
    exact ha.calls.symm
  outcome hc := by
    have hcalls := ha.calls
    rw [hc] at hcalls
    generalize hm : m.calls = l at hcalls
    cases hcalls
    exact (ha.outcome hm).symm

/-- Between the runs of the one machine, the other is between runs, too. -/
theorem Akin.calls_nil {m m' : Machine W B V} (ha : m.Akin ω σ h m') (hc : m.calls = []) :
    m'.calls = [] := by
  have hcalls := ha.calls
  rw [hc] at hcalls
  generalize m'.calls = calls at hcalls
  cases hcalls
  rfl

/-- A run to completion begins on both sides. -/
theorem enter_akin (hs : site.Akin ω h site') (hβ : β.Respects (.plain ω))
    (hr : Waiting ω calls calls') (b : B) :
    StepsAkin ω σ h (enter β site calls b) (enter β site' calls' b) := by
  have hpoll := hβ.poll b b (site.executor.waker site.executor.nextId) rfl
  rw [Likeness.plain_waker] at hpoll
  refine ⟨?_, hs.allocate, .cons ⟨hs.nextId, rfl, rfl, .polling ?_⟩ hr, nofun⟩
  · show [Note.issued site'.executor.nextId, Note.began site'.executor.nextId true] = _
    rw [hs.nextId]
    rfl
  · show Doing.Together ω _ (.first (β.poll b (site'.executor.waker site'.executor.nextId)))
    rw [hs.nextId, hs.waker]
    exact .first hpoll

/-- A call ends on both sides. -/
theorem leave_akin (hs : site.Akin ω h site') (hβ : β.Respects (.plain ω)) (hc : c.Akin D c')
    (hr : Waiting ω rest rest') (result : Except Failure (Option V)) :
    StepsAkin ω σ h (leave β site c rest result) (leave β site' c' rest' result) := by
  obtain ⟨id, held, slot, doing⟩ := c
  obtain ⟨id', held', slot', doing'⟩ := c'
  obtain ⟨rfl, rfl, rfl, -⟩ : id' = id ∧ held' = held ∧ slot' = slot ∧ _ :=
    ⟨hc.id, hc.held, hc.slot, trivial⟩
  -- What is held is destroyed first.
  have hdestroy : (held'.elim ([], site') (site'.destroy (V := V) β id')).1 =
        (held'.elim ([], site) (site.destroy (V := V) β id')).1 ∧
      (held'.elim ([], site) (site.destroy (V := V) β id')).2.Akin ω h
        (held'.elim ([], site') (site'.destroy (V := V) β id')).2 := by
    cases held' with
    | none => exact ⟨rfl, hs⟩
    | some b => exact hs.destroy hβ id' b
  refine ⟨congrArg (· ++ [Note.returned id' result]) hdestroy.1, ?_⟩
  have hcalls : Calls ω σ (held'.elim ([], site) (site.destroy (V := V) β id')).2.executor.tasks
      (resumed result rest) (resumed result rest') := .resumed hr result
  cases hr with
  | nil => exact ⟨hdestroy.2, hcalls, fun _ ↦ rfl⟩
  | cons => exact ⟨hdestroy.2, hcalls, nofun⟩

/-- A poll in place ends on both sides. -/
theorem afterFirst_akin (hs : site.Akin ω h site') (hβ : β.Respects (.plain ω)) (hc : c.Akin D c')
    (hr : Waiting ω rest rest') (b : B) (result : Polled V) :
    StepsAkin ω σ h (afterFirst β site c rest b result) (afterFirst β site' c' rest' b result) := by
  match result with
  | .error e =>
    obtain ⟨hn, hsite⟩ := hs.destroy (V := V) hβ c.id b
    simp only [afterFirst, hc.id]
    exact (leave_akin hsite hβ hc hr _).prepend hn
  | .ok .pending =>
    obtain ⟨hn, hsite⟩ := hs.enqueue (V := V) hβ c.id b
    simp only [afterFirst, hc.id]
    exact ⟨hn, hsite, .cons ⟨rfl, hc.held, hc.slot, .looping .pop .pop⟩ hr, (by simp)⟩
  | .ok (.ready v) =>
    have hc' : Call.Akin (Doing.Akin ω σ site.executor.tasks)
        { c with held := some b, slot := some v, doing := .pop }
        { c' with held := some b, slot := some v, doing := .pop } :=
      ⟨hc.id, rfl, rfl, .looping .pop .pop⟩
    simp only [afterFirst, hs.tasks]
    split
    · exact leave_akin hs hβ hc' hr _
    · exact ⟨rfl, hs, .cons hc' hr, (by simp)⟩

/-- A poll by the loop ends on both sides. -/
theorem afterPoll_akin (hs : site.Akin ω h site') (hβ : β.Respects (.plain ω)) (hc : c.Akin D c')
    (hr : Waiting ω rest rest') (id : TaskId) (b : B) (result : Polled V) :
    StepsAkin ω σ h (afterPoll β site c rest id b result)
      (afterPoll β site' c' rest' id b result) := by
  match result with
  | .error e =>
    obtain ⟨hn, hsite⟩ := hs.destroy (V := V) hβ id b
    exact (leave_akin hsite hβ hc hr _).prepend hn
  | .ok .pending =>
    obtain ⟨hn, hsite⟩ := hs.insert (V := V) hβ id b
    exact ⟨hn, hsite, .cons ⟨hc.id, hc.held, hc.slot, .looping .pop .pop⟩ hr, nofun⟩
  | .ok (.ready v) =>
    obtain ⟨hn, hsite⟩ := hs.destroy (V := V) hβ id b
    have hpop : Call.Akin (Doing.Akin ω σ site.executor.tasks) { c with doing := .pop }
        { c' with doing := .pop } := ⟨hc.id, hc.held, hc.slot, .looping .pop .pop⟩
    exact ⟨hn, hsite, .cons (hpop.fill id v) (Calls.fill hr id v), nofun⟩

/-- At the end of a program, and at a run to completion, both sides go on alike. -/
theorem stepAct_akin (hs : site.Akin ω h site') (hβ : β.Respects (.plain ω))
    {p p' : Act W B V (Polled V × B)} (hp : p.Like (.plain ω) (Likeness.plain ω).Ends p')
    (hset : p.Settled) {wrap : Act W B V (Polled V × B) → Doing W B V}
    (hw : ∀ q q', q.Like (.plain ω) (Likeness.plain ω).Ends q' → (wrap q).Together ω (wrap q'))
    (hc : c.Akin D c') (hr : Waiting ω rest rest')
    {after after' : Site W B → Polled V × B → List (Note V) × Machine W B V}
    (hafter : ∀ r, StepsAkin ω σ h (after site r) (after' site' r)) :
    StepsAkin ω σ h (stepAct β site c rest p wrap after)
      (stepAct β site' c' rest' p' wrap after') := by
  cases hp with
  | done hr' =>
    obtain rfl := Likeness.ends_plain.1 hr'
    exact hafter _
  | @blockOn b b' k k' hb hk =>
    obtain rfl : b = b' := hb
    have hwaits : Waiting ω ({ c with doing := wrap (.blockOn b k) } :: rest)
        ({ c' with doing := wrap (.blockOn b k') } :: rest') :=
      .cons ⟨hc.id, hc.held, hc.slot, hw _ _ (.blockOn rfl hk)⟩ hr
    exact enter_akin hs hβ hwaits b
  | _ => exact hset.elim

end Machine

/-! ### Ensembles -/

namespace Ensemble

/-- **Two ensembles are akin**, for the notes that have been seen of both. -/
structure Akin (ω : Setoid W) (σ : Surroundings W B V) (h : List (Note V))
    (s s' : Ensemble W B V) : Prop where
  /-- The machines are akin. -/
  machine : s.machine.Akin ω σ h s'.machine
  /-- The thread is in the middle of the same wake, or of none. -/
  own : s'.own = s.own

variable {s s' : Ensemble W B V} {m m' : Machine W B V} {fl fl' : List Waker}

theorem Akin.symm (ha : s.Akin ω σ h s') : s'.Akin ω σ h s := ⟨ha.machine.symm, ha.own.symm⟩

/-- Both machines make a step. -/
theorem akin_of_step? (m m' : Machine W B V)
    (hm : ∀ r', m.step? β σ = some r' → ∃ r'', m'.step? β σ = some r'' ∧ StepsAkin ω σ h r' r'')
    (hn : ((m.step? β σ).map fun (n, m) ↦ (n, (⟨m, fl, none⟩ : Ensemble W B V))) = some (n, s)) :
    ∃ s', ((m'.step? β σ).map fun (n, m) ↦ (n, (⟨m, fl', none⟩ : Ensemble W B V))) = some (n, s') ∧
      s.Akin ω σ h s' := by
  obtain ⟨r', hstep, he⟩ := Option.map_eq_some_iff.1 hn
  obtain ⟨rfl, rfl⟩ := Prod.mk.inj he
  obtain ⟨⟨n', m''⟩, hstep', hnotes, hakin⟩ := hm r' hstep
  obtain rfl : n' = r'.1 := hnotes
  exact ⟨⟨m'', fl', none⟩, by rw [hstep']; rfl, hakin, rfl⟩

/-- Both active calls go on with their programs. -/
theorem akin_of_goOn {c c' : Call W B V} {rest rest' : List (Call W B V)}
    {D : Doing W B V → Doing W B V → Prop} {p p' : Act W B V (Polled V × B)}
    {wrap : Act W B V (Polled V × B) → Doing W B V} (hs : m.site.Akin ω h m'.site)
    (hβ : β.Respects (.plain ω)) (hc : c.Akin D c') (hr : Waiting ω rest rest')
    (hp : p.Like (.plain ω) (Likeness.plain ω).Ends p') (hq : p.Seemly)
    (hw : ∀ q q', q.Like (.plain ω) (Likeness.plain ω).Ends q' → (wrap q).Together ω (wrap q'))
    (hm : p.Settled → ∀ r, m.step? β σ = some r → ∃ r', m'.step? β σ = some r' ∧
      StepsAkin ω σ h r r')
    (hn : goOn β σ ⟨m, fl, none⟩ c rest wrap p = some (n, s)) :
    ∃ s', goOn β σ ⟨m', fl', none⟩ c' rest' wrap p' = some (n, s') ∧ s.Akin ω σ h s' := by
  have hcall {q q' : Act W B V (Polled V × B)}
      (hq : q.Like (.plain ω) (Likeness.plain ω).Ends q') (tasks : Table TaskId B) :
      Calls ω σ tasks ({ c with doing := wrap q } :: rest)
        ({ c' with doing := wrap q' } :: rest') :=
    .cons ⟨hc.id, hc.held, hc.slot, .polling (hw _ _ hq)⟩ hr
  cases hreq : p.request? β m.site with
  | some a =>
    obtain ⟨n', p₁, s₁⟩ := a
    obtain ⟨p₁', s₁', hreq', hp₁, hs₁⟩ := hs.request? hβ hp hq hreq
    rw [goOn_of_request? hreq] at hn
    obtain ⟨rfl, rfl⟩ := Prod.mk.inj (Option.some.inj hn)
    exact ⟨_, goOn_of_request? hreq', ⟨hs₁, hcall hp₁ _, nofun⟩, rfl⟩
  | none =>
    cases hp with
    | @wake w _ _ hk =>
      obtain ⟨rfl, rfl⟩ := Prod.mk.inj (Option.some.inj hn)
      rw [Likeness.plain_waker]
      exact ⟨_, rfl, ⟨hs.onSignals fun hu ↦ hu.pushFor w, hcall hk _, nofun⟩, rfl⟩
    | done hr' => exact akin_of_step? m m' (hm trivial) hn
    | blockOn hb hk => exact akin_of_step? m m' (hm trivial) hn
    | _ => cases hreq

/-- A loop that does not go round is about to pop. -/
theorem skips_of_not_rounds {site : Site W B} {c : Call W B V} {rest : List (Call W B V)}
    {o : Option (Except Failure (Option V))} (hd : c.doing.Looping σ site.executor.tasks)
    (hi : ¬ Rounds σ h ⟨⟨site, c :: rest, o⟩, fl, none⟩) :
    c.doing = .pop ∧ ¬ Skips h (⟨⟨site, c :: rest, o⟩, fl, none⟩ : Ensemble W B V) := by
  by_contra hnot
  exact hi ⟨rfl, c, rest, rfl, hd, fun hp ↦ by_contra fun hs ↦ hnot ⟨hp, hs⟩⟩

theorem cases_of_not_skips (hi : ¬ s.Skips h) :
    s.machine.site.ready = [] ∧ s.machine.site.executor.tasks.isEmpty = true ∨
      ∃ id ids, s.machine.site.ready = id :: ids ∧ (phase id h).ended = false := by
  cases hids : s.machine.site.ready with
  | nil => exact Or.inl ⟨rfl, by simpa [skips_of_nil hids] using hi⟩
  | cons id ids => exact Or.inr ⟨id, ids, rfl, by simpa [skips_of_cons hids] using hi⟩

/-- **Two loops that do not go round** pop the id of the same task, or find the queue and the table
empty. -/
theorem stepPop_akin {site site' : Site W B} {c c' : Call W B V} {rest rest' : List (Call W B V)}
    {o o' : Option (Except Failure (Option V))} {D : Doing W B V → Doing W B V → Prop}
    (hs : site.Akin ω h site') (hβ : β.Respects (.plain ω)) (hc : c.Akin D c')
    (hd : c.doing = .pop) (hd' : c'.doing = .pop) (hr : Waiting ω rest rest')
    (hi : ¬ Skips h (⟨⟨site, c :: rest, o⟩, fl, none⟩ : Ensemble W B V))
    (hi' : ¬ Skips h (⟨⟨site', c' :: rest', o'⟩, fl', none⟩ : Ensemble W B V)) :
    StepsAkin ω σ h (Machine.stepPop β site c rest) (Machine.stepPop β site' c' rest') := by
  obtain @⟨x, u, u', w, w', k, l, hu, hw⟩ := hs
  unfold Machine.stepPop
  rcases cases_of_not_skips hi with ⟨hids, ht⟩ | ⟨i, ids, hids, hi⟩ <;>
    rcases cases_of_not_skips hi' with ⟨hids', ht'⟩ | ⟨i', ids', hids', hi'⟩ <;>
    simp only [Site.ready] at hids hids'
  · rw [Signals.pop?_eq_none_iff.2 hids, Signals.pop?_eq_none_iff.2 hids']
    exact ⟨rfl, .mk hu hw, .cons ⟨hc.id, hc.held, hc.slot, .leaving ht⟩ hr, (by simp)⟩
  · have hne := hu.ids
    simp [unspent, hids, hids', hi'] at hne
  · have hne := hu.ids
    simp [unspent, hids, hids', hi] at hne
  · obtain ⟨v, hp⟩ := Signals.exists_pop? hids
    obtain ⟨v', hp'⟩ := Signals.exists_pop? hids'
    obtain ⟨rfl, hv⟩ := hu.pop hp hp' hi hi'
    simp only [hp, hp']
    split
    · refine ⟨rfl, .mk (x := { x with stale := x.stale + 1 }) hv hw,
        .cons ⟨hc.id, hc.held, hc.slot, ?_⟩ hr, (by simp)⟩
      rw [hd, hd']
      exact .looping .pop .pop
    · next b hb =>
      have hpoll := hβ.poll b b (x.waker i') rfl
      rw [Likeness.plain_waker] at hpoll
      exact ⟨rfl, .mk (x := { x with tasks := x.tasks.erase i', polls := x.polls + 1 }) hv hw,
        .cons ⟨hc.id, hc.held, hc.slot, .polling (.poll hpoll)⟩ hr, (by simp)⟩

/-- **The next steps of ensembles that are akin** tell the same, if neither loop goes round. -/
theorem Akin.next? {s₁ : Ensemble W B V} (ha : s.Akin ω σ h s') (hβ : β.Respects (.plain ω))
    (hσ : σ.Discreet β ω) (hi : ¬ s.Rounds σ h) (hi' : ¬ s'.Rounds σ h) (hq : s.Seemly)
    (hn : s.next? β σ = some (n, s₁)) :
    ∃ s₁', s'.next? β σ = some (n, s₁') ∧ s₁.Akin ω σ h s₁' := by
  obtain ⟨⟨site, calls, o⟩, fl, own⟩ := s
  obtain ⟨⟨site', calls', o'⟩, fl', own'⟩ := s'
  obtain ⟨⟨hs, hcalls, ho⟩, hown⟩ := ha
  dsimp only at hs hcalls ho hown
  subst hown
  cases own' with
  | some w =>
    obtain ⟨rfl, rfl⟩ := Prod.mk.inj (Option.some.inj hn)
    exact ⟨_, rfl, ⟨hs.onSignals fun hu ↦ hu.unparkFor w, hcalls, ho⟩, rfl⟩
  | none =>
    cases hcalls with
    | nil => cases hn
    | @cons c c' rest rest' hc hr =>
      obtain ⟨id, held, slot, d⟩ := c
      obtain ⟨id', held', slot', d'⟩ := c'
      have hd : Doing.Akin ω σ site.executor.tasks d d' := hc.doing
      cases hd with
      | polling hd =>
        have hq := hq rfl _ rfl
        cases hd with
        | first hp =>
          refine akin_of_goOn hs hβ hc hr hp hq (fun _ _ ↦ .first) (fun hset r hstep ↦ ?_) hn
          obtain rfl := Option.some.inj hstep
          refine ⟨_, rfl, Machine.stepAct_akin hs hβ hp hset (fun _ _ ↦ .first) hc hr
            fun r ↦ ?_⟩
          exact (Machine.afterFirst_akin hs hβ hc hr r.2 r.1).prepend (n := [_]) (l := [_])
            (congrArg (fun i ↦ [Note.ended i true r.1]) hc.id)
        | poll hp =>
          refine akin_of_goOn hs hβ hc hr hp hq (fun _ _ ↦ .poll) (fun hset r hstep ↦ ?_) hn
          obtain rfl := Option.some.inj hstep
          refine ⟨_, rfl, Machine.stepAct_akin hs hβ hp hset (fun _ _ ↦ .poll) hc hr
            fun r ↦ ?_⟩
          exact (Machine.afterPoll_akin hs hβ hc hr _ r.2 r.1).prepend (n := [_]) (l := [_]) rfl
      | looping hd hd' =>
        obtain ⟨hpop, hskip⟩ := skips_of_not_rounds hd hi
        rw [← hs.tasks] at hd'
        obtain ⟨hpop', hskip'⟩ := skips_of_not_rounds hd' hi'
        obtain rfl : d = .pop := hpop
        obtain rfl : d' = .pop := hpop'
        refine akin_of_step? (β := β) ⟨site, ⟨id, held, slot, .pop⟩ :: rest, o⟩
          ⟨site', ⟨id', held', slot', .pop⟩ :: rest', o'⟩ (fun r hstep ↦ ⟨_, rfl, ?_⟩) hn
        obtain rfl := Option.some.inj hstep
        exact stepPop_akin hs hβ hc rfl rfl hr hskip hskip'
      | leaving ht =>
        refine akin_of_step? (β := β) ⟨site, ⟨id, held, slot, .check⟩ :: rest, o⟩
          ⟨site', ⟨id', held', slot', .check⟩ :: rest', o'⟩ (fun r hstep ↦ ⟨_, rfl, ?_⟩) hn
        obtain rfl := Option.some.inj hstep
        obtain rfl : slot' = slot := hc.slot
        simp only [Machine.stepCheck, hs.tasks, ht, if_true]
        exact Machine.leave_akin (hs.onWorld (hσ.finished _ _ hs.world)) hβ hc hr _

/-! ### What is not seen -/

variable {r : Ensemble W B V}

/-- Something happens to the signals of one ensemble that nobody can tell. -/
theorem Akin.onSignals {m : Machine W B V} {fl fl' : List Waker} {own : Option Waker}
    {f : Signals → Signals} (ha : Akin ω σ h ⟨m, fl, own⟩ r)
    (hq : (f m.site.signals).Queue m.site.executor.queue)
    (hu : unspent h ((f m.site.signals).queue m.site.executor.queue).ids =
      unspent h (m.site.signals.queue m.site.executor.queue).ids) :
    Akin ω σ h ⟨m.onSignals f, fl', own⟩ r := by
  obtain ⟨⟨x, u, w⟩, calls, o⟩ := m
  exact ⟨⟨ha.machine.site.left (k := x.parks) (l := x.stale) hq hu (ω.refl w),
    ha.machine.calls, ha.machine.outcome⟩, ha.own⟩

/-- **A step of one ensemble that is not seen.** -/
theorem Akin.unseen (ha : s.Akin ω σ h r) (hσ : σ.Discreet β ω)
    (ht : ∀ id, (phase id h).ended = true → ¬ s.machine.Tabled id) (hs : Unseen β σ h s s') :
    s'.Akin ω σ h r := by
  have hq := ha.machine.site.signals.queue
  cases hs with
  | round hi hn =>
    obtain ⟨hd, hd', hu, hw, -⟩ := hi.rounded hσ ht hn
    obtain ⟨hv, hids⟩ := hu hq
    exact ⟨⟨ha.machine.site.left hv hids hw, ha.machine.calls.looping hd hd', nofun⟩, ha.own⟩
  | notified hw =>
    refine ha.onSignals ⟨?_, ?_⟩ (by rw [Signals.queue_unparkFor])
    · rw [Signals.length_queues_unparkFor]
      exact hq.lt
    · rw [Signals.queue_unparkFor]
      exact hq.synced
  | elsewhere hs =>
    refine ha.onSignals ⟨Nat.lt_of_lt_of_le hq.lt hs.queues, ?_⟩ (by rw [hs.queue])
    rw [hs.queue]
    exact hq.synced
  | slept hc => exact ha.onSignals ⟨hq.lt, hq.synced⟩ rfl

/-- **Noise around one ensemble.** -/
theorem Akin.noise (ha : s.Akin ω σ h r) (hb : Books s.machine.Tabled s.machine.polled h)
    (hs : Noise h s s') : s'.Akin ω σ h r := by
  have hq := ha.machine.site.signals.queue
  cases hs with
  | unpark p => exact ha.onSignals ⟨hq.lt, hq.synced⟩ rfl
  | wake w hw hspent =>
    exact ha.onSignals (hq.pushFor w) (hq.unspent_pushFor fun hwq ↦ hb.ended_iff.2 (hspent hwq))

/-! ### What is seen -/

theorem Akin.append (ha : s.Akin ω σ h r)
    (he : ∀ id, (phase id h).ended = true → (phase id (h ++ n)).ended = true) :
    s.Akin ω σ (h ++ n) r :=
  ⟨⟨ha.machine.site.append he, ha.machine.calls, ha.machine.outcome⟩, ha.own⟩

/-- The next step of the one ensemble is seemly if that of the other is. -/
theorem Akin.seemly (ha : s.Akin ω σ h r) (hq : s.Seemly) : r.Seemly := by
  have hact {R : Type} {Q : R → R → Prop} {p p' : Act W B V R} (hp : p.Like (.plain ω) Q p')
      (hq : p.Seemly) : p'.Seemly := by
    cases hp <;> exact hq
  intro ho c hc
  have hcalls := ha.machine.calls
  generalize r.machine.calls = calls at hc hcalls
  have hq := hq (ha.own ▸ ho)
  generalize s.machine.calls = calls' at hq hcalls
  cases hcalls with
  | nil => cases hc
  | @cons d c' _ _ hcc _ =>
    obtain rfl := Option.mem_some.1 hc
    have hq : d.doing.Seemly := hq d rfl
    have hdoing := hcc.doing
    generalize d.doing = x, c'.doing = y at hq hdoing
    cases hdoing with
    | polling h => cases h with
      | first hp => exact hact hp hq
      | poll hp => exact hact hp hq
    | looping _ hy => cases hy <;> trivial
    | leaving _ => trivial

/-- **The same is done to both ensembles, or both make their next steps**, and the same is seen. -/
theorem Akin.seen {a : Sight W B V} {s₁ : Ensemble W B V} (ha : s.Akin ω σ h r)
    (hβ : β.Respects (.plain ω)) (hσ : σ.Discreet β ω) (hs : Seen β σ ω h s a s₁)
    (hi : a.outside = none → ¬ r.Rounds σ h) :
    ∃ r₁, Seen β σ ω h r a r₁ ∧ s₁.Akin ω σ h r₁ := by
  obtain ⟨m', fl', own'⟩ := r
  have hsite : s.machine.site.Akin ω h m'.site := ha.machine.site
  have hown : own' = s.own := ha.own
  cases hs with
  | own hq hi₀ hn hw =>
    obtain ⟨r₁, hr₁, hakin⟩ := ha.next? hβ hσ hi₀ (hi rfl) hq hn
    have hseen := Seen.own (ω := ω) (ha.seemly hq) (hi rfl) hr₁ fun w hmem ↦
      (hw w hmem).of_refs hsite.refs
    rw [hsite.tasks] at hseen
    exact ⟨r₁, hseen, hakin⟩
  | @wake m _ own w hw =>
    obtain rfl : own' = own := hown
    have htasks : m'.site.executor.tasks = m.site.executor.tasks := hsite.tasks
    have hseen : Seen β σ ω h ⟨m', fl', own'⟩ _ _ := .wake w (hw.of_refs hsite.refs)
    rw [htasks] at hseen
    exact ⟨_, hseen, ⟨hsite.onSignals fun hu ↦ hu.pushFor w, ha.machine.calls,
      ha.machine.outcome⟩, rfl⟩
  | @change m _ own f hf =>
    obtain rfl : own' = own := hown
    have htasks : m'.site.executor.tasks = m.site.executor.tasks := hsite.tasks
    have hseen : Seen β σ ω h ⟨m', fl', own'⟩ _ _ := .change f hf
    rw [htasks] at hseen
    exact ⟨_, hseen, ⟨hsite.onWorld (hf _ _ hsite.world), ha.machine.calls,
      ha.machine.outcome⟩, rfl⟩
  | @spawn m n _ _ _ b hc hs =>
    obtain rfl : own' = none := hown
    have hc' : m'.calls = [] := ha.machine.calls_nil hc
    have htasks : m'.site.executor.tasks = m.site.executor.tasks := hsite.tasks
    obtain ⟨-, hnotes, hakin⟩ := Site.Akin.spawn (V := V) hsite hβ b
    rcases hs' : m'.site.spawn (V := V) β b with ⟨id', n', site'⟩
    rw [hs, hs'] at hnotes hakin
    obtain rfl : n' = n := hnotes
    have hseen : Seen β σ ω h ⟨m', fl', none⟩ _ _ := .spawn b hc' hs'
    rw [htasks] at hseen
    refine ⟨_, hseen, ⟨hakin, ?_, fun _ ↦ ha.machine.outcome hc⟩, rfl⟩
    show Calls ω σ _ m.calls m'.calls
    rw [hc, hc']
    exact .nil
  | @blockOn m _ n _ b hc he =>
    obtain rfl : own' = none := hown
    have hc' : m'.calls = [] := ha.machine.calls_nil hc
    have htasks : m'.site.executor.tasks = m.site.executor.tasks := hsite.tasks
    obtain ⟨hnotes, hakin⟩ := Machine.enter_akin (σ := σ) hsite hβ .nil b
    rcases he' : Machine.enter β m'.site [] b with ⟨n', m''⟩
    rw [he, he'] at hnotes hakin
    obtain rfl : n' = n := hnotes
    have hseen : Seen β σ ω h ⟨m', fl', none⟩ _ _ := .blockOn b hc' he'
    rw [htasks] at hseen
    exact ⟨_, hseen, hakin, rfl⟩

/-- **What is seen of a step is determined** by who makes it and by what others do. -/
theorem Seen.unique {a a' : Sight W B V} {s₁ s₂ : Ensemble W B V} (hs : Seen β σ ω h s a s₁)
    (hs' : Seen β σ ω h s a' s₂) (ho : a.outside = a'.outside) : a = a' ∧ s₁ = s₂ := by
  cases hs with
  | own _ _ hn =>
    cases hs' with
    | own _ _ hn' =>
      obtain ⟨rfl, rfl⟩ := Prod.mk.inj (Option.some.inj (hn.symm.trans hn'))
      exact ⟨rfl, rfl⟩
    | _ => cases ho
  | wake w _ =>
    cases hs' with
    | wake w' _ =>
      obtain rfl := Outside.wake.inj (Option.some.inj ho)
      exact ⟨rfl, rfl⟩
    | _ => cases ho
  | change f _ =>
    cases hs' with
    | change f' _ =>
      obtain rfl := Outside.change.inj (Option.some.inj ho)
      exact ⟨rfl, rfl⟩
    | _ => cases ho
  | spawn b _ hs =>
    cases hs' with
    | spawn b' _ hs' =>
      obtain rfl := Outside.spawn.inj (Option.some.inj ho)
      obtain ⟨rfl, hrest⟩ := Prod.mk.inj (hs.symm.trans hs')
      obtain ⟨rfl, rfl⟩ := Prod.mk.inj hrest
      exact ⟨rfl, rfl⟩
    | _ => cases ho
  | blockOn b _ he =>
    cases hs' with
    | blockOn b' _ he' =>
      obtain rfl := Outside.blockOn.inj (Option.some.inj ho)
      obtain ⟨rfl, rfl⟩ := Prod.mk.inj (he.symm.trans he')
      exact ⟨rfl, rfl⟩
    | _ => cases ho

/-- **Steps of ensembles that are akin**, in which others do the same if anything: the same is seen,
and the ensembles stay akin. -/
theorem Akin.agree {a a' : Sight W B V} {s₁ r₁ : Ensemble W B V} (ha : s.Akin ω σ h r)
    (hβ : β.Respects (.plain ω)) (hσ : σ.Discreet β ω) (hs : Seen β σ ω h s a s₁)
    (hr : Seen β σ ω h r a' r₁) (ho : a.outside = a'.outside) : a = a' ∧ s₁.Akin ω σ h r₁ := by
  have hi : a.outside = none → ¬ r.Rounds σ h := by
    intro hnone
    rw [ho] at hnone
    cases hr with
    | own _ hi _ _ => exact hi
    | _ => cases hnone
  obtain ⟨r₂, hseen, hakin⟩ := ha.seen hβ hσ hs hi
  obtain ⟨rfl, rfl⟩ := hseen.unique hr ho
  exact ⟨rfl, hakin⟩

end Ensemble

end TaskRuntime
