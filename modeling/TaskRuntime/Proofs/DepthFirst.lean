import TaskRuntime.Proofs.Alone
import TaskRuntime.Proofs.Completion
import TaskRuntime.Proofs.Figures
import TaskRuntime.Task.Behaviour

/-!
# Tasks that spawn tasks are polled depth first

A plan is a finite tree of labels: what a task is called, and the plans of the tasks that it spawns
in its only poll, in order. A body follows a plan if it does that and then results in a value
(`Plan.Follows`); what else it does to the world in between does not matter.

The scheduling loop polls the tasks of a forest of plans in preorder, except that of several tasks
that have been spawned one after the other the last one comes first (`Site.blockOn_depthFirst`).
Spawning on an executor object and spawning on the current executor of a thread both come down to
`Site.spawn`, so it does not matter which of them a root or a task uses.

## The stack

The reason is that the ready queue is a stack. While the loop runs, the ids on it are those of the
tasks in the table (`Site.Stacked`). The one on top is polled, and those that it spawns take its
place (`Machine.exists_polled`). So the labels still to come are those of the stacked plans, depth
first, and each poll takes the first of them away (`Machine.ends_stacked`).

Scripts that spawn scripts follow plans, for every plan (`Plan.follows_script`).
-/

namespace TaskRuntime

/-! ### Plans -/

/-- A finite tree of labels. -/
inductive Plan (L : Type)
  /-- A label, and the trees below it, in order. -/
  | node (label : L) (children : List (Plan L))

namespace Plan

variable {L : Type}

mutual

/-- The tree with every list of siblings reversed. -/
def mirror : Plan L → Plan L
  | node l ts => node l (mirrorAll ts)

/-- The forest with every list of siblings reversed. -/
def mirrorAll : List (Plan L) → List (Plan L)
  | [] => []
  | t :: ts => mirrorAll ts ++ [t.mirror]

end

mutual

/-- The labels of a tree, each before those below it. -/
def preorder : Plan L → List L
  | node l ts => l :: preorderAll ts

/-- The labels of a forest, tree by tree. -/
def preorderAll : List (Plan L) → List L
  | [] => []
  | t :: ts => t.preorder ++ preorderAll ts

end

mutual

/-- How many labels a tree has. -/
def size : Plan L → Nat
  | node _ ts => sizeAll ts + 1

/-- How many labels a forest has. -/
def sizeAll : List (Plan L) → Nat
  | [] => 0
  | t :: ts => t.size + sizeAll ts

end

variable {t : Plan L} {ts us : List (Plan L)}

theorem mirrorAll_append : mirrorAll (ts ++ us) = mirrorAll us ++ mirrorAll ts := by
  induction ts with
  | nil => simp [mirrorAll]
  | cons t ts ih => simp [mirrorAll, ih]

theorem preorderAll_append : preorderAll (ts ++ us) = preorderAll ts ++ preorderAll us := by
  induction ts with
  | nil => rfl
  | cons t ts ih => simp [preorderAll, ih]

theorem sizeAll_append : sizeAll (ts ++ us) = sizeAll ts + sizeAll us := by
  induction ts with
  | nil => simp [sizeAll]
  | cons t ts ih => simp [sizeAll, ih, Nat.add_assoc]

theorem length_le_sizeAll (ts : List (Plan L)) : ts.length ≤ sizeAll ts := by
  induction ts with
  | nil => exact Nat.le_refl 0
  | cons t ts ih =>
    obtain ⟨l, us⟩ := t
    simp only [List.length_cons, sizeAll, size]
    omega

/-- **The labels of a forest, depth first**: each before those below it, and those of later trees
first. -/
def depthFirst (ts : List (Plan L)) : List L := preorderAll (mirrorAll ts)

@[simp] theorem depthFirst_nil : depthFirst ([] : List (Plan L)) = [] := rfl

/-- The tree that comes last comes first, and below it the trees below it. -/
theorem depthFirst_concat (l : L) :
    depthFirst (ts ++ [node l us]) = l :: depthFirst (ts ++ us) := by
  simp [depthFirst, mirrorAll_append, mirrorAll, mirror, preorderAll, preorder, preorderAll_append]

theorem sizeAll_concat (l : L) :
    sizeAll (ts ++ [node l us]) = sizeAll ts + sizeAll us + 1 := by
  simp only [sizeAll_append, sizeAll, size]
  omega

end Plan

/-! ### Bodies that follow plans -/

variable {W B V L R : Type}

/-- **A program spawns bodies** with certain properties, one after the other, whatever the world and
the executor are like, and then ends in a certain way. It does nothing else but look at the world
and change it. -/
def Act.Begets (ends : R → Prop) : Act W B V R → List (B → Prop) → Prop
  | .done r, [] => ends r
  | .done _, _ :: _ => False
  | .look k, ps => ∀ w, (k w).Begets ends ps
  | .put _ k, ps => k.Begets ends ps
  | .figures k, ps => ∀ x, (k x).Begets ends ps
  | .spawn _ _, [] => False
  | .spawn b k, p :: ps => p b ∧ ∀ id, (k (.ok id)).Begets ends ps
  | .wake _ _, _ => False
  | .unpark _, _ => False
  | .parkFor _, _ => False
  | .blockOn _ _, _ => False

/-- A poll has resulted in a value. -/
def Resolved (r : Polled V × B) : Prop := ∃ v, r.1 = .ok (.ready v)

mutual

/-- **A body follows a plan**: it has the label, and its only poll spawns bodies that follow the
plans below, in order, and results in a value. -/
def Plan.Follows (β : Behaviour W B V) (name : B → L) : Plan L → B → Prop
  | .node l ts, b => name b = l ∧ ∀ w, (β.poll b w).Begets Resolved (Plan.followers β name ts)

/-- The properties of following some plans. -/
def Plan.followers (β : Behaviour W B V) (name : B → L) : List (Plan L) → List (B → Prop)
  | [] => []
  | t :: ts => t.Follows β name :: Plan.followers β name ts

end

/-! ### Scripts -/

/-- A program goes on without spawning. -/
theorem Act.Begets.bind {S : Type} {ends : R → Prop} {ends' : S → Prop} {p : Act W B V R}
    {f : R → Act W B V S} {ps : List (B → Prop)} (hp : p.Begets ends ps)
    (hf : ∀ r, ends r → (f r).Begets ends' []) : (p.bind f).Begets ends' ps := by
  induction p generalizing ps with
  | done r =>
    cases ps with
    | nil => exact hf r hp
    | cons p ps => exact hp.elim
  | look k ih => exact fun w ↦ ih w (hp w)
  | put w k ih => exact ih hp
  | figures k ih => exact fun x ↦ ih x (hp x)
  | spawn b k ih =>
    cases ps with
    | nil => exact hp.elim
    | cons p ps => exact ⟨hp.1, fun id ↦ ih _ (hp.2 id)⟩
  | wake w k ih => exact hp.elim
  | unpark k ih => exact hp.elim
  | parkFor k ih => exact hp.elim
  | blockOn b k ih => exact hp.elim

mutual

/-- The script that has the label of a plan as its name and as its value, and whose only poll spawns
the scripts of the plans below. -/
def Plan.script : Plan Bytes → Task
  | .node l ts => .script (.mk l (.text l) [.mk (Plan.spawns ts) .ready] 0)

/-- Actions that spawn the scripts of some plans. -/
def Plan.spawns : List (Plan Bytes) → List Action
  | [] => []
  | t :: ts => .spawn t.script :: Plan.spawns ts

end

/-- The name of a script. -/
def Task.label : Task → Bytes
  | .script s => s.name
  | _ => []

section

variable {K : Type} [Kernel K]

mutual

/-- **The script of a plan follows the plan**, whatever the plan is. -/
theorem Plan.follows_script :
    (t : Plan Bytes) → t.Follows (Task.behaviour (K := K)) Task.label t.script
  | .node l ts => by
    refine ⟨rfl, fun w ↦ ?_⟩
    have hpoll : ((Script.mk l (.text l) [.mk (Plan.spawns ts) .ready] 0).poll (K := K) w).Begets
        (fun r ↦ ∃ v, r.1 = .ok (.ready v))
        (Plan.followers (Task.behaviour (K := K)) Task.label ts) := by
      intro world
      refine (Plan.begets_spawns w ts).bind fun r hr ↦ ?_
      obtain rfl : r = .ok () := hr
      exact ⟨_, rfl⟩
    exact hpoll.bind fun r hr ↦ hr

/-- Actions that spawn scripts spawn tasks that follow the plans. -/
theorem Plan.begets_spawns (w : Waker) : (ts : List (Plan Bytes)) →
    (Action.runAll (K := K) w (Plan.spawns ts)).Begets (· = .ok ())
      (Plan.followers (Task.behaviour (K := K)) Task.label ts)
  | [] => rfl
  | t :: ts => ⟨t.follows_script, fun _ _ ↦ Plan.begets_spawns w ts⟩

end

end

/-! ### The stack of ids -/

variable {β : Behaviour W B V} {σ : Surroundings W B V} {name : B → L}

/-- **The tasks of a site are stacked**: those in the table are those on the ready queue, the last
one of the list on top, and follow plans. So many ids have been given out, and so many polls have
been made by the loop. -/
structure Site.Stacked (β : Behaviour W B V) (name : B → L) (used polls : Nat)
    (pile : List (TaskId × Plan L)) (s : Site W B) : Prop where
  /-- The queue is in order. -/
  queue : s.signals.Queue s.executor.queue
  /-- These are the ids on it. -/
  ids : s.ready = (pile.map Prod.fst).reverse
  /-- They have been given out. -/
  old : ∀ id ∈ pile.map Prod.fst, id ∈ firstIds used
  /-- The next id is the next in order. -/
  next : s.executor.nextId = Executor.firstId + UInt64.ofNat used
  /-- Each has a body in the table that follows its plan. -/
  tasks : ∀ x ∈ pile, ∃ b, s.executor.tasks.get? x.1 = some b ∧ x.2.Follows β name b
  /-- There are no other bodies in the table. -/
  keys : ∀ id, s.executor.tasks.contains id = true → id ∈ pile.map Prod.fst
  /-- All tasks that have entered the table have been polled, but for these. -/
  spawned : s.executor.spawned = polls + pile.length
  /-- So many polls have been made. -/
  polled : s.executor.polls = polls
  /-- The thread has not parked. -/
  parks : s.executor.parks = 0
  /-- No queued id was without a task. -/
  stale : s.executor.stale = 0

/-- The ids of some tasks and of another one on top. -/
theorem mem_ids_concat {pile : List (TaskId × Plan L)} {i id : TaskId} {t : Plan L} :
    i ∈ (pile ++ [(id, t)]).map Prod.fst ↔ i ∈ pile.map Prod.fst ∨ i = id := by
  simp

namespace Site.Stacked

variable {s : Site W B} {used polls : Nat} {pile : List (TaskId × Plan L)} {id : TaskId}
  {t : Plan L} {ts : List (Plan L)} {b : B}

/-- The world does not matter. -/
theorem onWorld (hs : s.Stacked β name used polls pile) (w : W) :
    { s with world := w }.Stacked β name used polls pile :=
  ⟨hs.queue, hs.ids, hs.old, hs.next, hs.tasks, hs.keys, hs.spawned, hs.polled, hs.parks, hs.stale⟩

/-- An id is given out. -/
theorem allocate (hs : s.Stacked β name used polls pile) :
    { s with executor := s.executor.allocate.2 }.Stacked β name (used + 1) polls pile where
  queue := hs.queue
  ids := hs.ids
  old id hid := by
    rw [firstIds_succ]
    exact List.mem_append_left _ (hs.old id hid)
  next := by
    show s.executor.nextId + 1 = _
    rw [hs.next, UInt64.ofNat_add, ← UInt64.add_assoc]
    rfl
  tasks := hs.tasks
  keys := hs.keys
  spawned := hs.spawned
  polled := hs.polled
  parks := hs.parks
  stale := hs.stale

/-- **A task enters the table** under an id that has been given out before, and comes to lie on
top. -/
theorem enqueue (hs : s.Stacked β name used polls pile) (hold : id ∈ firstIds used)
    (hnew : id ∉ pile.map Prod.fst) (ht : t.Follows β name b) :
    (s.enqueue (V := V) β id b).2.Stacked β name used polls (pile ++ [(id, t)]) := by
  have hfree : ¬ s.executor.tasks.contains id = true := fun hc ↦ hnew (hs.keys id hc)
  have henqueue : (s.enqueue (V := V) β id b).2 =
      { s with
        executor := { s.executor with
                      tasks := s.executor.tasks.insert id b
                      spawned := s.executor.spawned + 1 }
        signals := (s.signals.push s.executor.queue id).2 } := by
    rw [Site.enqueue, Site.insert, if_neg hfree]
  have hqueued : id ∉ (s.signals.queue s.executor.queue).queued := by
    rw [hs.queue.synced.mem_iff]
    show id ∉ s.ready
    rw [hs.ids, List.mem_reverse]
    exact hnew
  rw [henqueue]
  refine ⟨hs.queue.push _ _, ?_, ?_, hs.next, ?_, ?_, ?_, hs.polled, hs.parks, hs.stale⟩
  · show ((s.signals.push s.executor.queue id).2.queue s.executor.queue).ids = _
    rw [Signals.queue_push hs.queue.lt, if_pos rfl, ReadyQueue.push, if_neg hqueued]
    show id :: s.ready = _
    rw [hs.ids]
    simp
  · intro i hi
    obtain hi | rfl := mem_ids_concat.1 hi
    · exact hs.old i hi
    · exact hold
  · intro x hx
    show ∃ b', (s.executor.tasks.insert id b).get? x.1 = some b' ∧ _
    rw [Table.get?_insert]
    obtain hx | rfl := (List.mem_append.1 hx).imp_right List.mem_singleton.1
    · rw [if_neg fun he : id = x.1 ↦ hnew (he ▸ List.mem_map_of_mem hx)]
      exact hs.tasks x hx
    · exact ⟨b, if_pos rfl, ht⟩
  · intro i hi
    exact mem_ids_concat.2 ((Table.contains_insert.1 hi).symm.imp_left (hs.keys i))
  · show s.executor.spawned + 1 = _
    rw [hs.spawned, List.length_append]
    rfl

/-- **A task is spawned** and comes to lie on top. -/
theorem spawn (hs : s.Stacked β name used polls pile) (hroom : used < UInt64.size)
    (ht : t.Follows β name b) :
    (s.spawn (V := V) β b).2.2.Stacked β name (used + 1) polls
      (pile ++ [(s.executor.nextId, t)]) := by
  refine hs.allocate.enqueue ?_ ?_ ht
  · rw [hs.next]
    exact mem_firstIds_of_lt (Nat.lt_succ_self used)
  · intro hmem
    have hold := hs.old _ hmem
    rw [hs.next] at hold
    exact notMem_firstIds hroom hold

/-- Where no task is stacked, none is in the table. -/
theorem isEmpty (hs : s.Stacked β name used polls []) : s.executor.tasks.isEmpty = true := by
  rw [Table.isEmpty, List.isEmpty_iff, List.eq_nil_iff_forall_not_mem]
  intro e he
  exact List.not_mem_nil (hs.keys e.1 (Table.mem_keys_iff.1 (List.mem_map_of_mem he)))

/-- Where tasks are stacked, there are some in the table. -/
theorem not_isEmpty (hs : s.Stacked β name used polls (pile ++ [(id, t)])) :
    ¬ s.executor.tasks.isEmpty = true := by
  intro hempty
  obtain ⟨b, hb, -⟩ := hs.tasks _ (List.mem_append_right _ List.mem_cons_self)
  exact Table.not_contains_of_isEmpty hempty id (Table.contains_of_get? hb)

/-- **The task on top is taken out** of the queue and of the table. -/
theorem pop (hs : s.Stacked β name used polls (pile ++ [(id, t)])) :
    ∃ b signals s', s.signals.pop? s.executor.queue = some (id, signals) ∧
      s.executor.tasks.get? id = some b ∧ t.Follows β name b ∧
      s' = { s with
        signals
        executor := { s.executor with
                      tasks := s.executor.tasks.erase id
                      polls := s.executor.polls + 1 } } ∧
      s'.Stacked β name used (polls + 1) pile := by
  have hids : (s.signals.queue s.executor.queue).ids = id :: (pile.map Prod.fst).reverse := by
    have hready := hs.ids
    rw [List.map_append, List.reverse_append] at hready
    exact hready
  obtain ⟨b, hb, hfollows⟩ := hs.tasks _ (List.mem_append_right _ List.mem_cons_self)
  have hpop : s.signals.pop? s.executor.queue = some (id, s.signals.setQueue s.executor.queue
      ⟨(pile.map Prod.fst).reverse,
        (s.signals.queue s.executor.queue).queued.erase id⟩) := by
    rw [Signals.pop?, ReadyQueue.pop?, hids]
    rfl
  -- No id is stacked twice.
  have hnot : id ∉ pile.map Prod.fst := by
    have hnodup := hs.queue.synced.nodup
    rw [hids, List.nodup_cons, List.mem_reverse] at hnodup
    exact hnodup.1
  refine ⟨b, _, _, hpop, hb, hfollows, rfl, hs.queue.pop hpop, ?_,
    fun i hi ↦ hs.old i (mem_ids_concat.2 (.inl hi)), hs.next, ?_, ?_, ?_,
    congrArg (· + 1) hs.polled, hs.parks, hs.stale⟩
  · show ((s.signals.setQueue s.executor.queue _).queue s.executor.queue).ids = _
    rw [Signals.queue_setQueue _ _ _ _ hs.queue.lt, if_pos rfl]
  · intro x hx
    show ∃ b', (s.executor.tasks.erase id).get? x.1 = some b' ∧ _
    rw [Table.get?_erase, if_neg fun he : id = x.1 ↦ hnot (he ▸ List.mem_map_of_mem hx)]
    exact hs.tasks x (List.mem_append_left _ hx)
  · intro i hi
    obtain ⟨hne, hi⟩ := Table.contains_erase.1 hi
    exact (mem_ids_concat.1 (hs.keys i hi)).resolve_right hne
  · have hspawned := hs.spawned
    rw [List.length_append, List.length_singleton] at hspawned
    show s.executor.spawned = _
    omega

/-- **A task that has been polled in place enters the table**, and comes to lie on top of those that
it has spawned: its id has been taken before theirs, so it is not one of them. -/
theorem enqueue_own {own : TaskId} {new : List (TaskId × Plan L)}
    (hs : s.Stacked β name (used + 1 + new.length) polls (pile ++ new))
    (hold : ∀ id ∈ pile.map Prod.fst, id ∈ firstIds used)
    (hown : own = Executor.firstId + UInt64.ofNat used) (hroom : used < UInt64.size)
    (hnew : ∀ x ∈ new, x.1 ∉ firstIds (used + 1)) (ht : t.Follows β name b) :
    (s.enqueue (V := V) β own b).2.Stacked β name (used + 1 + new.length) polls
      (pile ++ new ++ [(own, t)]) := by
  subst hown
  refine hs.enqueue (mem_firstIds_of_lt (by omega)) ?_ ht
  rw [List.map_append, List.mem_append]
  rintro (hmem | hmem)
  · exact notMem_firstIds hroom (hold _ hmem)
  · obtain ⟨x, hx, he⟩ := List.mem_map.1 hmem
    exact hnew x hx (he ▸ mem_firstIds_of_lt (Nat.lt_succ_self used))

end Site.Stacked

/-! ### Programs that spawn -/

/-- **A program that spawns bodies**, where tasks are stacked, comes to its end by itself, and the
bodies come to lie on top under new ids, in order. -/
theorem Act.Begets.run {ends : R → Prop} {p : Act W B V R} {ts : List (Plan L)}
    (hp : p.Begets ends (Plan.followers β name ts)) {s : Site W B} {used polls : Nat}
    {pile : List (TaskId × Plan L)} (hs : s.Stacked β name used polls pile)
    (hroom : used + ts.length ≤ UInt64.size) :
    ∃ r notes s' new, p.run β s = (.finished r, notes, s') ∧ ends r ∧ new.map Prod.snd = ts ∧
      (∀ x ∈ new, x.1 ∉ firstIds used) ∧
      s'.Stacked β name (used + ts.length) polls (pile ++ new) := by
  induction p generalizing ts s used pile with
  | done r =>
    cases ts with
    | nil => exact ⟨r, [], s, [], rfl, hp, rfl, nofun, by simpa using hs⟩
    | cons t ts => exact hp.elim
  | look k ih => exact ih s.world (hp s.world) hs hroom
  | put w k ih => exact ih hp (hs.onWorld w) hroom
  | figures k ih => exact ih s.figures (hp s.figures) hs hroom
  | spawn b k ih =>
    cases ts with
    | nil => exact hp.elim
    | cons t ts =>
      obtain ⟨hb, hk⟩ := hp
      rw [List.length_cons] at hroom ⊢
      obtain ⟨r, notes, s', new, hrun, hr, rfl, hids, hs'⟩ :=
        ih (.ok s.executor.nextId) (hk _) (hs.spawn (by omega) hb) (by omega)
      refine ⟨r, (s.spawn (V := V) β b).2.1 ++ notes, s', (s.executor.nextId, t) :: new, ?_, hr,
        rfl, ?_, ?_⟩
      · have hspawn : (Act.spawn b k).run β s =
            (((k (.ok s.executor.nextId)).run β (s.spawn β b).2.2).1,
              (s.spawn β b).2.1 ++ ((k (.ok s.executor.nextId)).run β (s.spawn β b).2.2).2.1,
              ((k (.ok s.executor.nextId)).run β (s.spawn β b).2.2).2.2) := rfl
        rw [hspawn, hrun]
      · refine List.forall_mem_cons.2 ⟨?_, fun x hx hmem ↦ hids x hx ?_⟩
        · rw [hs.next]
          exact notMem_firstIds (by omega)
        · rw [firstIds_succ]
          exact List.mem_append_left _ hmem
      · rw [List.append_assoc] at hs'
        rwa [show used + (new.map Prod.snd).length.succ = used + 1 + (new.map Prod.snd).length by
          omega]
  | wake w k ih => exact hp.elim
  | unpark k ih => exact hp.elim
  | parkFor k ih => exact hp.elim
  | blockOn b k ih => exact hp.elim

/-! ### Which bodies the loop polls -/

namespace Machine

variable {m m' m₁ : Machine W B V} {bs : List B} {n : List (Note V)}

/-- The body that the next step takes out of the table to poll it, if the step does that. -/
def next? (m : Machine W B V) : Option B :=
  match m.calls with
  | [] => none
  | c :: _ =>
    match c.doing with
    | .pop => m.site.ready.head?.bind m.site.executor.tasks.get?
    | _ => none

/-- **The bodies that are polled by the loop** in as many steps as there are, up to a limit, in
order. -/
def chosen (β : Behaviour W B V) (σ : Surroundings W B V) : Nat → Machine W B V → List B
  | 0, _ => []
  | limit + 1, m =>
    match m.step? β σ with
    | none => []
    | some (_, m') => m.next?.toList ++ m'.chosen β σ limit

/-- **A run comes to its end** at a machine that does not step, and these bodies are polled by the
loop, in order. -/
inductive Ends (β : Behaviour W B V) (σ : Surroundings W B V) :
    Machine W B V → List B → Machine W B V → Prop
  /-- There is no step. -/
  | stopped {m : Machine W B V} (h : m.step? β σ = none) : Ends β σ m [] m
  /-- There is a step, and the run goes on after it. -/
  | step {m m₁ m' : Machine W B V} {n : List (Note V)} {bs : List B}
      (h : m.step? β σ = some (n, m₁)) (hr : Ends β σ m₁ bs m') :
      Ends β σ m (m.next?.toList ++ bs) m'

/-- A limit that is high enough does not matter. -/
theorem Ends.run (h : Ends β σ m bs m') :
    ∃ n, ∀ limit, n ≤ limit → m.run β σ limit = m' ∧ m.chosen β σ limit = bs := by
  induction h with
  | stopped hnone =>
    refine ⟨0, fun limit _ ↦ ?_⟩
    cases limit with
    | zero => exact ⟨rfl, rfl⟩
    | succ limit => simp only [Machine.run, chosen, hnone, and_self]
  | step hstep _ ih =>
    obtain ⟨n, hn⟩ := ih
    refine ⟨n + 1, fun limit hlimit ↦ ?_⟩
    obtain ⟨limit, rfl⟩ : ∃ i, limit = i + 1 := ⟨limit - 1, by omega⟩
    obtain ⟨hrun, hchosen⟩ := hn limit (by omega)
    simp only [Machine.run, chosen, hstep, hrun, hchosen, and_self]

variable {s : Site W B} {c : Call W B V} {used polls : Nat} {pile : List (TaskId × Plan L)}
  {id : TaskId} {b : B} {l : L} {ts : List (Plan L)}

/-- The only call ends. -/
theorem leave_only (c : Call W B V) (s : Site W B) (r : Except Failure (Option V)) :
    ∃ n w, leave β s c [] r = (n, ⟨{ s with world := w }, [], some r⟩) := by
  obtain ⟨i, held, slot, doing⟩ := c
  cases held with
  | none => exact ⟨_, s.world, rfl⟩
  | some b => exact ⟨_, β.drop b s.world, rfl⟩

/-- An id is popped, and its task is in the table. -/
theorem next?_of_pop? {signals : Signals} {rest : List (Call W B V)}
    {o : Option (Except Failure (Option V))} (hc : c.doing = .pop)
    (hpop : s.signals.pop? s.executor.queue = some (id, signals))
    (hb : s.executor.tasks.get? id = some b) :
    next? (⟨s, c :: rest, o⟩ : Machine W B V) = some b := by
  obtain ⟨q, hq, -⟩ := Signals.pop?_eq_some hpop
  simp only [next?, hc, Site.ready, ReadyQueue.ids_of_pop? hq, List.head?_cons, Option.bind_some,
    hb]

/-- **The task on top is polled**, and those that it spawns come to lie on top in its place. -/
theorem exists_polled (hs : s.Stacked β name used polls (pile ++ [(id, .node l ts)]))
    (hroom : used + ts.length ≤ UInt64.size) (hc : c.doing = .pop) :
    ∃ b v s' new, name b = l ∧ new.map Prod.snd = ts ∧
      s'.Stacked β name (used + ts.length) (polls + 1) (pile ++ new) ∧
      ∀ bs m', Ends β σ ⟨s', [c.filled id v], none⟩ bs m' →
        Ends β σ ⟨s, [c], none⟩ (b :: bs) m' := by
  obtain ⟨b, signals, s₁, hpop, hb, ⟨hname, hbegets⟩, hs₁, hpopped⟩ := hs.pop
  obtain ⟨⟨result, b'⟩, notes, s', new, hrun, ⟨v, hv⟩, hnew, -, hs'⟩ :=
    (hbegets (s.executor.waker id)).run hpopped hroom
  obtain rfl : result = .ok (.ready v) := hv
  refine ⟨b, v, { s' with world := β.drop b' s'.world }, new, hname, hnew, hs'.onWorld _,
    fun bs m' hends ↦ ?_⟩
  have hbegan : step? β σ ⟨s, [c], none⟩ = some ([.began id false],
      ⟨s₁, [{ c with doing := .poll id (β.poll b (s.executor.waker id)) }], none⟩) := by
    simp only [step?, hc, stepPop, hpop, hb, hs₁]
  have hended : step? β σ
      ⟨s₁, [{ c with doing := .poll id (β.poll b (s.executor.waker id)) }], none⟩ =
        some (notes ++ [.ended id false (.ok (.ready v)), .destroyed id],
          ⟨{ s' with world := β.drop b' s'.world }, [c.filled id v], none⟩) := by
    obtain ⟨i, held, slot, doing⟩ := c
    obtain rfl : doing = .pop := hc
    simp only [step?, stepAct, hrun]
    rfl
  have hpolled : Ends β σ ⟨s, [c], none⟩ _ m' := .step hbegan (.step hended hends)
  rw [next?_of_pop? hc hpop hb] at hpolled
  exact hpolled

/-- Where no task is stacked, the loop ends with what has come in for the task of its call. -/
theorem ends_nil (hs : s.Stacked β name used polls []) (hc : c.doing = .pop) :
    ∃ w, Ends β σ ⟨s, [c], none⟩ []
      ⟨{ s with world := w }, [], some (.ok c.slot)⟩ := by
  have hpop : s.signals.pop? s.executor.queue = none := by
    have hids : (s.signals.queue s.executor.queue).ids = [] := hs.ids
    rw [Signals.pop?, ReadyQueue.pop?, hids]
    rfl
  have hchecks : step? β σ ⟨s, [c], none⟩ = some ([], ⟨s, [{ c with doing := .check }], none⟩) := by
    simp only [step?, hc, stepPop, hpop]
  obtain ⟨n, w, hleave⟩ := leave_only (β := β) { c with doing := .check }
    { s with world := σ.finished s.world } (.ok c.slot)
  have hleaves : step? β σ ⟨s, [{ c with doing := .check }], none⟩ =
      some (n, ⟨{ s with world := w }, [], some (.ok c.slot)⟩) := by
    simp only [step?, stepCheck, if_pos hs.isEmpty, hleave]
  have hends : Ends β σ ⟨s, [c], none⟩ _ _ := .step hchecks (.step hleaves (.stopped rfl))
  have hnone : next? (⟨s, [c], none⟩ : Machine W B V) = none := by
    have hready : s.ready = [] := hs.ids
    simp only [next?, hc, hready, List.head?_nil, Option.bind_none]
  rw [hnone] at hends
  exact ⟨w, hends⟩

/-- The task of a call has resulted in a value or is stacked, if that was so before the task on top
was polled. -/
theorem slot_filled {new : List (TaskId × Plan L)} {t : Plan L}
    (hslot : c.slot.isSome = true ∨ c.id ∈ (pile ++ [(id, t)]).map Prod.fst) (v : V) :
    (c.filled id v).slot.isSome = true ∨ (c.filled id v).id ∈ (pile ++ new).map Prod.fst := by
  obtain ⟨hid, -, hfilled⟩ := c.filled_spec id v
  by_cases he : c.id = id
  · rw [hfilled, if_pos he]
    exact .inl rfl
  · rw [hfilled, if_neg he, hid, List.map_append, List.mem_append]
    exact hslot.imp_right fun hmem ↦ .inl ((mem_ids_concat.1 hmem).resolve_right he)

/-- **The loop polls what is stacked depth first**, from the top, and nothing else, if there are
enough ids and the task of its call has resulted in a value or is stacked. -/
theorem ends_stacked (hs : s.Stacked β name used polls pile)
    (hroom : used + Plan.sizeAll (pile.map Prod.snd) ≤ UInt64.size + pile.length)
    (hc : c.doing = .pop) (hslot : c.slot.isSome = true ∨ c.id ∈ pile.map Prod.fst) :
    ∃ bs s' v used', Ends β σ ⟨s, [c], none⟩ bs ⟨s', [], some (.ok (some v))⟩ ∧
      bs.map name = Plan.depthFirst (pile.map Prod.snd) ∧
      s'.Stacked β name used' (polls + Plan.sizeAll (pile.map Prod.snd)) [] := by
  -- Each poll makes the plans smaller by one.
  induction hk : Plan.sizeAll (pile.map Prod.snd) generalizing s c used polls pile with
  | zero =>
    have hlength := Plan.length_le_sizeAll (pile.map Prod.snd)
    rw [hk, List.length_map, Nat.le_zero, List.length_eq_zero_iff] at hlength
    subst hlength
    obtain ⟨w, hends⟩ := ends_nil (σ := σ) hs hc
    obtain ⟨v, hv⟩ := Option.isSome_iff_exists.1 (hslot.resolve_right List.not_mem_nil)
    rw [hv] at hends
    exact ⟨[], _, v, used, hends, rfl, hs.onWorld w⟩
  | succ k ih =>
    rcases List.eq_nil_or_concat pile with rfl | ⟨rest, ⟨id, l, ts⟩, rfl⟩
    · exact absurd hk nofun
    rw [List.concat_eq_append] at *
    have hsize : Plan.sizeAll ((rest ++ [(id, Plan.node l ts)]).map Prod.snd) =
        Plan.sizeAll (rest.map Prod.snd) + Plan.sizeAll ts + 1 := by
      rw [List.map_append]
      exact Plan.sizeAll_concat l
    have hrest := Plan.length_le_sizeAll (rest.map Prod.snd)
    have hts := Plan.length_le_sizeAll ts
    rw [hsize] at hk hroom
    rw [List.length_map] at hrest
    rw [List.length_append, List.length_singleton] at hroom
    obtain ⟨b, v, s', new, hname, rfl, hs', hpolled⟩ :=
      exists_polled (σ := σ) hs (by omega) hc
    have hk' : Plan.sizeAll ((rest ++ new).map Prod.snd) = k := by
      rw [List.map_append, Plan.sizeAll_append]
      omega
    have hroom' : used + (new.map Prod.snd).length + Plan.sizeAll ((rest ++ new).map Prod.snd) ≤
        UInt64.size + (rest ++ new).length := by
      rw [hk', List.length_append, List.length_map]
      omega
    obtain ⟨bs, s'', v', used', hends, hbs, hs''⟩ :=
      ih hs' hroom' ((c.filled_spec id v).2.1.trans hc) (slot_filled hslot v) hk'
    refine ⟨b :: bs, s'', v', used', hpolled _ _ hends, ?_, ?_⟩
    · rw [List.map_cons, hbs, hname, List.map_append, List.map_append]
      exact (Plan.depthFirst_concat l).symm
    · rwa [show polls + (k + 1) = polls + 1 + k by omega]

end Machine

/-! ### Runs to completion -/

/-- How the poll in place may end: with a value, or with a body that follows a plan. -/
def Plan.Settles (β : Behaviour W B V) (name : B → L) : Option (Plan L) → Polled V × B → Prop
  | none, r => Resolved r
  | some t, r => r.1 = .ok .pending ∧ t.Follows β name r.2

/-- Spawns bodies, one after the other. -/
def Site.spawnAll (β : Behaviour W B V) (s : Site W B) (bs : List B) : Site W B :=
  bs.foldl (fun s b ↦ (s.spawn β b).2.2) s

variable {s : Site W B} {used polls : Nat} {pile : List (TaskId × Plan L)} {b : B}
  {roots : List (Plan L × B)} {sprouts : List (Plan L)} {own : Option (Plan L)}

/-- An executor that has just been made, and has counted nothing, has no task. -/
theorem Site.Unused.stacked (hs : s.Unused) (hparks : s.executor.parks = 0) :
    s.Stacked β name 0 0 [] where
  queue := hs.queue
  ids := hs.ids
  old := nofun
  next := hs.nextId
  tasks := nofun
  keys id hid := by
    rw [hs.tasks, Table.contains_empty] at hid
    cases hid
  spawned := hs.spawned
  polled := hs.polls
  parks := hparks
  stale := hs.stale

/-- Tasks are spawned and come to lie on top, in order. -/
theorem Site.Stacked.spawnAll (hs : s.Stacked β name used polls pile)
    (hroots : ∀ x ∈ roots, x.1.Follows β name x.2) (hroom : used + roots.length ≤ UInt64.size) :
    ∃ new, new.map Prod.snd = roots.map Prod.fst ∧
      (s.spawnAll β (roots.map Prod.snd)).Stacked β name (used + roots.length) polls
        (pile ++ new) := by
  induction roots generalizing s used pile with
  | nil => exact ⟨[], rfl, by simpa [Site.spawnAll] using hs⟩
  | cons x roots ih =>
    obtain ⟨hx, hroots⟩ := List.forall_mem_cons.1 hroots
    rw [List.length_cons] at hroom ⊢
    obtain ⟨new, hnew, hs'⟩ := ih (hs.spawn (by omega) hx) hroots (by omega)
    refine ⟨(s.executor.nextId, x.1) :: new, by simp [hnew], ?_⟩
    rw [List.append_assoc] at hs'
    rwa [show used + (roots.length + 1) = used + 1 + roots.length by omega]

/-- What an executor whose tasks are all done tells about itself. -/
theorem Site.Stacked.figures (hs : s.Stacked β name used polls []) :
    s.figures =
      { tasks := 0, ready := 0, spawned := polls, polls := polls, parks := 0, stale := 0 } := by
  have htasks : s.executor.tasks.size = 0 := by
    rw [Table.size, List.isEmpty_iff.1 hs.isEmpty]
    rfl
  have hready : (s.signals.queue s.executor.queue).size = 0 := by
    have hids : (s.signals.queue s.executor.queue).ids = [] := hs.ids
    rw [ReadyQueue.size, hids]
    rfl
  rw [Site.figures, htasks, hready, hs.spawned, hs.polled, hs.parks, hs.stale]
  rfl

/-- The poll in place of a body, if its program comes to an end by itself. -/
theorem Machine.step?_enter {result : Polled V} {b' : B} {notes : List (Note V)} {s' : Site W B}
    (hrun : (β.poll b (s.executor.allocate.2.waker s.executor.nextId)).run β
      { s with executor := s.executor.allocate.2 } = (.finished (result, b'), notes, s')) :
    ∃ n d, step? β σ (enter β s [] b).2 =
      some (n, (afterFirst β s' { id := s.executor.nextId, doing := d } [] b' result).2) := by
  let p := β.poll b (s.executor.allocate.2.waker s.executor.nextId)
  let c : Call W B V := { id := s.executor.nextId, doing := .first p }
  refine ⟨notes ++ .ended c.id true result :: (afterFirst β s' c [] b' result).1, c.doing, ?_⟩
  show some (stepAct β { s with executor := s.executor.allocate.2 } c [] p .first _) = _
  rw [stepAct, hrun]
  rfl

/-- The poll in place has resulted in a value: the call ends at once if nothing is stacked, and
otherwise the loop polls what is. -/
theorem Machine.ends_ready (hs : s.Stacked β name used polls pile)
    (hroom : used + Plan.sizeAll (pile.map Prod.snd) ≤ UInt64.size + pile.length)
    (c : Call W B V) (b : B) (v : V) :
    ∃ bs s' v' used',
      Ends β σ (afterFirst β s c [] b (.ok (.ready v))).2 bs ⟨s', [], some (.ok (some v'))⟩ ∧
      bs.map name = Plan.depthFirst (pile.map Prod.snd) ∧
      s'.Stacked β name used' (polls + Plan.sizeAll (pile.map Prod.snd)) [] := by
  rcases List.eq_nil_or_concat pile with rfl | ⟨rest, ⟨id, t⟩, hconcat⟩
  · obtain ⟨n, w, hleave⟩ := leave_only (β := β)
      { c with held := some b, slot := some v, doing := .pop } s (.ok (some v))
    rw [afterFirst, if_pos hs.isEmpty, hleave]
    exact ⟨[], _, v, used, .stopped rfl, rfl, hs.onWorld w⟩
  · have hfull : ¬ s.executor.tasks.isEmpty = true := by
      rw [hconcat, List.concat_eq_append] at hs
      exact hs.not_isEmpty
    rw [afterFirst, if_neg hfull]
    exact ends_stacked (c := { c with held := some b, slot := some v, doing := .pop }) hs hroom rfl
      (.inl rfl)

/-- The poll in place spawns tasks, and then the loop polls what is stacked. -/
theorem Machine.ends_entered (hs : s.Stacked β name used polls pile)
    (hb : ∀ w, (β.poll b w).Begets (Plan.Settles β name own) (Plan.followers β name sprouts))
    (hroom : used + Plan.sizeAll (pile.map Prod.snd ++ sprouts ++ own.toList) <
      UInt64.size + pile.length) :
    ∃ bs s' v used', Ends β σ (enter β s [] b).2 bs ⟨s', [], some (.ok (some v))⟩ ∧
      bs.map name = Plan.depthFirst (pile.map Prod.snd ++ sprouts ++ own.toList) ∧
      s'.Stacked β name used'
        (polls + Plan.sizeAll (pile.map Prod.snd ++ sprouts ++ own.toList)) [] := by
  have hpile := Plan.length_le_sizeAll (pile.map Prod.snd)
  have hsprouts := Plan.length_le_sizeAll sprouts
  rw [List.length_map] at hpile
  have hsize := hroom
  rw [Plan.sizeAll_append, Plan.sizeAll_append] at hsize
  obtain ⟨⟨result, b'⟩, notes, s', new, hrun, hsettles, rfl, hids, hs'⟩ :=
    (hb (s.executor.allocate.2.waker s.executor.nextId)).run hs.allocate (by omega)
  obtain ⟨n, d, hstep⟩ := step?_enter (σ := σ) hrun
  rw [List.length_map] at hsprouts hs'
  rw [← List.map_append] at hroom ⊢
  cases own with
  | none =>
    obtain ⟨v, rfl⟩ : ∃ v, result = .ok (.ready v) := hsettles
    rw [Option.toList_none, List.append_nil] at hroom ⊢
    have hroom' : used + 1 + new.length + Plan.sizeAll ((pile ++ new).map Prod.snd) ≤
        UInt64.size + (pile ++ new).length := by
      rw [List.length_append]
      omega
    obtain ⟨bs, s'', v', used', hends, hbs, hs''⟩ := ends_ready (σ := σ) hs' hroom' _ b' v
    exact ⟨bs, s'', v', used', .step hstep hends, hbs, hs''⟩
  | some t =>
    obtain ⟨rfl, hfollows⟩ := hsettles
    have hplans : (pile ++ new ++ [(s.executor.nextId, t)]).map Prod.snd =
        (pile ++ new).map Prod.snd ++ [t] := List.map_append
    rw [Option.toList_some, ← hplans] at hroom ⊢
    have hroom' : used + 1 + new.length +
        Plan.sizeAll ((pile ++ new ++ [(s.executor.nextId, t)]).map Prod.snd) ≤
          UInt64.size + (pile ++ new ++ [(s.executor.nextId, t)]).length := by
      rw [List.length_append, List.length_append, List.length_singleton]
      omega
    obtain ⟨bs, s'', v, used', hends, hbs, hs''⟩ :=
      ends_stacked (σ := σ) (c := { id := s.executor.nextId, doing := .pop })
        (hs'.enqueue_own hs.old hs.next (by omega) hids hfollows) hroom' rfl
        (.inr (mem_ids_concat.2 (.inr rfl)))
    exact ⟨bs, s'', v, used', .step hstep hends, hbs, hs''⟩

/-- **Tasks that spawn tasks are polled depth first.** On an executor that has just been made, tasks
are spawned in order, and then a body is run to completion that spawns tasks in order in its poll in
place; if it does not result in a value then, it is a task itself, and the last of them. Each task
follows a plan: its only poll spawns tasks in order and results in a value. The executor has an id
for each of them.

Then the run to completion ends with a value, in finitely many steps, whatever else the polls do to
the world and whatever happens around the loop. The tasks are polled depth first, those that have
been spawned later before those that have been spawned earlier, each once. In the end nothing is in
the table or on the queue, no id has been without a task, and the thread has never parked. -/
theorem Site.blockOn_depthFirst (hs : s.Unused) (hparks : s.executor.parks = 0)
    (hroots : ∀ x ∈ roots, x.1.Follows β name x.2)
    (hb : ∀ w, (β.poll b w).Begets (Plan.Settles β name own) (Plan.followers β name sprouts))
    (hroom : Plan.sizeAll (roots.map Prod.fst ++ sprouts ++ own.toList) < UInt64.size) :
    ∃ n v, ∀ limit, n ≤ limit →
      ((s.spawnAll β (roots.map Prod.snd)).blockOn β σ limit b).1 = .ok (some v) ∧
      ((Machine.enter β (s.spawnAll β (roots.map Prod.snd)) [] b).2.chosen β σ limit).map name =
        Plan.depthFirst (roots.map Prod.fst ++ sprouts ++ own.toList) ∧
      ((s.spawnAll β (roots.map Prod.snd)).blockOn β σ limit b).2.figures =
        { tasks := 0
          ready := 0
          spawned := Plan.sizeAll (roots.map Prod.fst ++ sprouts ++ own.toList)
          polls := Plan.sizeAll (roots.map Prod.fst ++ sprouts ++ own.toList)
          parks := 0
          stale := 0 } := by
  have hsize := Plan.length_le_sizeAll (roots.map Prod.fst)
  rw [List.length_map] at hsize
  have hroots' : 0 + roots.length ≤ UInt64.size := by
    rw [Plan.sizeAll_append, Plan.sizeAll_append] at hroom
    omega
  obtain ⟨new, hnew, hstacked⟩ := (hs.stacked hparks).spawnAll hroots hroots'
  have hlength : new.length = roots.length := by
    rw [← List.length_map (f := Prod.snd), hnew, List.length_map]
  rw [List.nil_append] at hstacked
  rw [← hnew] at hroom ⊢
  obtain ⟨bs, s', v, used, hends, hbs, hs'⟩ :=
    Machine.ends_entered (σ := σ) hstacked hb (by omega)
  obtain ⟨n, hn⟩ := hends.run
  refine ⟨n, v, fun limit hlimit ↦ ?_⟩
  obtain ⟨hrun, hchosen⟩ := hn limit hlimit
  rw [Site.blockOn, hrun, hchosen]
  rw [Nat.zero_add] at hs'
  exact ⟨rfl, hbs, hs'.figures⟩

/-- A tree of four labels. -/
def Plan.copse : List (Plan Bytes) := [.node [1] [.node [2] [], .node [3] [.node [4] []]]]

/-- Two trees of three labels. -/
def Plan.thicket : List (Plan Bytes) := [.node [5] [.node [6] []], .node [7] []]

/-- The script of the one tree is spawned, and a script that spawns those of the other two is run to
completion. -/
theorem Site.blockOn_thicket :
    ∃ n v, ∀ limit, n ≤ limit →
      let s := spawnAll Task.behaviour (blank ({ kernel := default } : World Host))
        (Plan.copse.map Plan.script)
      let b := (Plan.node [8] Plan.thicket).script
      (s.blockOn Task.behaviour World.surroundings limit b).1 = .ok (some v) ∧
        ((Machine.enter Task.behaviour s [] b).2.chosen Task.behaviour World.surroundings
          limit).map Task.label = [[7], [5], [6], [1], [3], [4], [2]] ∧
        (s.blockOn Task.behaviour World.surroundings limit b).2.figures =
          { tasks := 0, ready := 0, spawned := 7, polls := 7, parks := 0, stale := 0 } := by
  have hroots : ∀ x ∈ Plan.copse.map fun t ↦ (t, t.script),
      x.1.Follows (Task.behaviour (K := Host)) Task.label x.2 := by
    intro x hx
    obtain ⟨t, -, rfl⟩ := List.mem_map.1 hx
    exact t.follows_script
  have hb : ∀ w, ((Task.behaviour (K := Host)).poll (Plan.node [8] Plan.thicket).script w).Begets
      (Plan.Settles (Task.behaviour (K := Host)) Task.label none)
      (Plan.followers (Task.behaviour (K := Host)) Task.label Plan.thicket) :=
    (Plan.node [8] Plan.thicket).follows_script.2
  have hroom : Plan.sizeAll ((Plan.copse.map fun t ↦ (t, t.script)).map Prod.fst ++
      Plan.thicket ++ (none : Option (Plan Bytes)).toList) < UInt64.size := by
    decide
  obtain ⟨n, v, hends⟩ := blockOn_depthFirst (σ := World.surroundings)
    (unused_blank ({ kernel := default } : World Host)) rfl hroots hb hroom
  exact ⟨n, v, hends⟩

end TaskRuntime
