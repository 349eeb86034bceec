import TaskRuntime.Proofs.Lineage
import TaskRuntime.Proofs.Reader
import TaskRuntime.Threads

/-!
# Wakers tell tasks apart

Executors come and go on any number of threads, and all use the same signals: a `Fleet`. Each is an
ensemble of its own, for which the others are other threads. Two executors on one thread share their
parker, and each starts its ids with the first. Still a waker stands for one task of one executor
(`Fleet.Run.identified`): every executor has got a ready queue of its own, which is never handed out
again, and an executor gives out no id twice.

Executors live behind objects that can be moved. This changes who owns an executor and not the
executor (`Threads.cores_move`), so a fleet does not know of it.
-/

namespace TaskRuntime

variable {W B V L : Type} {β : Behaviour W B V} {σ : Surroundings W B V}

/-! ### What an executor is made with -/

/-- What an executor on a thread is made with: the parker of the thread, and a new ready queue. -/
def Signals.equip (s : Signals) (thread : ThreadId) : (ParkerRef × QueueRef) × Signals :=
  let (parker, s) := s.current thread
  let (queue, s) := s.newQueue
  ((parker, queue), s)

/-- An executor that has just been made. -/
def Executor.made (refs : ParkerRef × QueueRef) (logParking : Bool) : Executor B where
  parker := refs.1
  queue := refs.2
  logParking := logParking

namespace Signals

theorem queues_current (s : Signals) (thread : ThreadId) :
    (s.current thread).2.queues = s.queues := by
  unfold current
  split <;> rfl

theorem queues_equip (s : Signals) (thread : ThreadId) :
    (s.equip thread).2.queues = s.queues ++ [({} : ReadyQueue)] :=
  congrArg (· ++ [({} : ReadyQueue)]) (queues_current s thread)

/-- The ready queue is new. -/
theorem index_equip (s : Signals) (thread : ThreadId) :
    (s.equip thread).1.2.index = s.queues.length :=
  congrArg List.length (queues_current s thread)

/-- What happens to a ready queue makes none disappear. -/
theorem Change.length_le {s s' : Signals} {q : QueueRef} {n : List (Note V)}
    (hc : s.Change q n s') : s.queues.length ≤ s'.queues.length := by
  cases hc with
  | silent _ hlen => exact hlen
  | entered id => exact Nat.le_of_eq (length_queues_push _ _ _).symm
  | woke w =>
    unfold pushFor
    split
    · exact Nat.le_of_eq (length_queues_push _ _ _).symm
    · exact Nat.le_refl _
  | popped hp =>
    obtain ⟨r, -, rfl⟩ := pop?_eq_some hp
    simp [setQueue]

/-- **Waking** queues the id of the waker on the ready queue of the waker, and does nothing else to
ready queues. -/
theorem queue_wake (s : Signals) (p : ParkerRef) (id : TaskId) {q : QueueRef}
    (hq : q.index < s.queues.length) (r : QueueRef) :
    (s.wake ⟨some p, id, some q⟩).queue r =
      if q = r then ((s.queue r).push id).2 else s.queue r := by
  rw [wake_eq, queue_unparkFor]
  show (s.setQueue q ((s.queue q).push id).2).queue r = _
  rw [queue_setQueue s q r _ hq]
  split
  · next he => rw [he]
  · rfl

end Signals

namespace Threads

variable {K : Type} {p p' : Threads K} {name : Bytes}

/-- The executors of a program are made with the parker of their thread and a new ready queue. -/
theorem construct_eq (h : p.construct name = (.ok (), p')) :
    p'.signals = (p.signals.equip p.thread).2 ∧
      ∃ logParking, p'.cores = p.cores.insert p.nextCore
        (.made (p.signals.equip p.thread).1 logParking) := by
  unfold construct at h
  split at h
  · cases (Prod.mk.inj h).1
  · obtain ⟨-, rfl⟩ := Prod.mk.inj h
    exact ⟨rfl, _, rfl⟩

/-- Moving the object that owns an executor leaves all executors and signals as they are. -/
theorem cores_move (p : Threads K) (source target : Bytes) :
    (p.move source target).cores = p.cores ∧ (p.move source target).signals = p.signals :=
  ⟨rfl, rfl⟩

end Threads

/-! ### Fleets -/

namespace Fleet

/-- One of the executors, with what has happened to it so far. -/
structure Member (W B V : Type) where
  /-- The executor. -/
  executor : Executor B
  /-- The calls that are running on it. -/
  calls : List (Call W B V) := []
  /-- How the last outermost call ended. -/
  outcome : Option (Except Failure (Option V)) := none
  /-- The wake of its thread that has pushed and not yet notified. -/
  own : Option Waker := none
  /-- Whether it has been destroyed. -/
  gone : Bool := false
  /-- What has happened to it. -/
  history : List (Note V) := []
  /-- What has been done with bodies on it. -/
  deeds : List (Deed B) := []

end Fleet

/-- **Executors that have been made one after the other**, and all that they share. -/
structure Fleet (W B V : Type) where
  /-- Ready queues and parkers. -/
  signals : Signals
  /-- The world. -/
  world : W
  /-- The wakes of others that have pushed and not yet notified. -/
  flights : List Waker := []
  /-- The executors, oldest first. -/
  members : List (Fleet.Member W B V) := []

namespace Fleet

/-- A member as an ensemble, for which all others are other threads. -/
def ensemble (x : Fleet W B V) (m : Member W B V) : Ensemble W B V where
  machine := ⟨⟨m.executor, x.signals, x.world⟩, m.calls, m.outcome⟩
  flights := x.flights
  own := m.own

/-- The fleet after a member has made a step. -/
def absorb (x : Fleet W B V) (i : Nat) (m : Member W B V) (n : List (Note V)) (es : List (Deed B))
    (s : Ensemble W B V) : Fleet W B V where
  signals := s.machine.site.signals
  world := s.machine.site.world
  flights := s.flights
  members := x.members.set i
    { m with
      executor := s.machine.site.executor
      calls := s.machine.calls
      outcome := s.machine.outcome
      own := s.own
      history := m.history ++ n
      deeds := m.deeds ++ es }

/-- A member without its tasks. -/
def Member.disposed (m : Member W B V) : Member W B V :=
  { m with executor := { m.executor with tasks := .empty }, calls := [], gone := true }

/-- **One step.** -/
inductive Move (β : Behaviour W B V) (x : Fleet W B V) : Fleet W B V → Prop
  /-- An executor is made on a thread. -/
  | built (thread : ThreadId) (logParking : Bool) :
    Move β x { x with
      signals := (x.signals.equip thread).2
      members := x.members ++ [{ executor := .made (x.signals.equip thread).1 logParking }] }
  /-- A step of a member, or of others as it sees them. -/
  | acted {i m n s es} (σ : Surroundings W B V) (hi : x.members[i]? = some m) (hg : m.gone = false)
      (hs : Ensemble.Step β σ (x.ensemble m) n s)
      (ht : Machine.Tells β (x.ensemble m).machine n s.machine es) :
    Move β x (x.absorb i m n es s)
  /-- An executor is destroyed with its tasks. -/
  | destroyed {i m} (hi : x.members[i]? = some m) :
    Move β x { x with
      world := m.executor.tasks.values.foldl (fun w b ↦ β.drop b w) x.world
      members := x.members.set i m.disposed }

/-- Some steps. -/
inductive Run (β : Behaviour W B V) (x₀ : Fleet W B V) : Fleet W B V → Prop
  /-- No step. -/
  | refl : Run β x₀ x₀
  /-- Another step. -/
  | step {x x' : Fleet W B V} (hr : Run β x₀ x) (hm : Move β x x') : Run β x₀ x'

/-- A member that takes a step can take it in the fleet. -/
theorem Move.exists_acted {x : Fleet W B V} {i : Nat} {m : Member W B V} {n : List (Note V)}
    {s : Ensemble W B V} (hi : x.members[i]? = some m) (hg : m.gone = false)
    (hs : Ensemble.Step β σ (x.ensemble m) n s) : ∃ es, Move β x (x.absorb i m n es s) := by
  obtain ⟨es, ht⟩ := hs.move.tells
  exact ⟨es, .acted σ hi hg hs ht⟩

/-! ### What is known of each member -/

/-- What is known of a member by itself. -/
structure Member.Orderly (β : Behaviour W B V) (x : Fleet W B V) (m : Member W B V) : Prop where
  /-- Its ids have been given out in order. -/
  numbered : Numbered m.executor.nextId m.history
  /-- A task has been created for each. -/
  created : createdIds m.deeds = issuedIds m.history
  /-- Polls have been handed the wakers of their ids. -/
  wakers : ∀ {id b w}, .polled id b w ∈ m.deeds → w = m.executor.waker id
  /-- Phases and places agree. -/
  books : m.gone = false → (issuedIds m.history).length ≤ UInt64.size →
    Books (x.ensemble m).machine.Tabled (x.ensemble m).machine.polled m.history
  /-- Bodies carry the marks of their tasks. -/
  marks : ∀ {L : Type} {mark : B → L}, β.Keeps mark → m.gone = false →
    (x.ensemble m).machine.Marks mark m.deeds
  /-- So have the bodies that polls were handed. -/
  marked : ∀ {L : Type} {mark : B → L}, β.Keeps mark → ∀ {id b w}, .polled id b w ∈ m.deeds →
    Marked mark m.deeds id (mark b)

/-- **A sound fleet**: every executor has a ready queue of its own. -/
structure Sound (β : Behaviour W B V) (x : Fleet W B V) : Prop where
  /-- The ready queues are there. -/
  queues : ∀ {i : Nat} {m : Member W B V}, x.members[i]? = some m →
    m.executor.queue.index < x.signals.queues.length
  /-- No two executors share one. -/
  apart : ∀ {i j : Nat} {m m' : Member W B V}, x.members[i]? = some m → x.members[j]? = some m' →
    m.executor.queue = m'.executor.queue → i = j
  /-- Each of them is in order. -/
  orderly : ∀ {i : Nat} {m : Member W B V}, x.members[i]? = some m → m.Orderly β x

section

variable {x x' x₀ : Fleet W B V} {i j : Nat} {m m' : Member W B V} {n : List (Note V)}
  {es : List (Deed B)} {s : Ensemble W B V} {id id' : TaskId} {b b' : B} {w w' : Waker}

/-- What is known of a member by itself does not depend on the others. -/
theorem Member.Orderly.others (ho : m.Orderly β x) (x' : Fleet W B V) : m.Orderly β x' where
  numbered := ho.numbered
  created := ho.created
  wakers := ho.wakers
  books := ho.books
  marks hβ hg := ⟨(ho.marks hβ hg).tabled, (ho.marks hβ hg).polled⟩
  marked := ho.marked

/-- An executor that has just been made. -/
theorem Member.orderly_made (x : Fleet W B V) (refs : ParkerRef × QueueRef) (logParking : Bool) :
    Member.Orderly β x { executor := .made refs logParking } where
  numbered := ⟨rfl, rfl⟩
  created := rfl
  wakers := nofun
  books _ _ :=
    ⟨fun _ ↦ ⟨nofun, nofun⟩, fun _ _ ↦ ⟨nofun, nofun⟩, List.nodup_nil, fun _ ↦ ⟨nofun, nofun⟩⟩
  marks _ _ := ⟨nofun, nofun⟩
  marked _ := nofun

/-- A member makes a step. -/
theorem Member.Orderly.acted (ho : m.Orderly β x) (hg : m.gone = false)
    (hs : Ensemble.Step β σ (x.ensemble m) n s)
    (ht : Machine.Tells β (x.ensemble m).machine n s.machine es) :
    Member.Orderly β (x.absorb i m n es s)
      { m with
        executor := s.machine.site.executor
        calls := s.machine.calls
        outcome := s.machine.outcome
        own := s.own
        history := m.history ++ n
        deeds := m.deeds ++ es } where
  numbered := hs.move.counts.numbered ho.numbered
  created := by
    rw [createdIds_append, issuedIds_append, ho.created, ht.createdIds_eq]
  wakers {id b w} hd := by
    obtain ⟨hqueue, hparker⟩ := Prod.mk.inj hs.move.refs
    have hw : w = m.executor.waker id := by
      rcases List.mem_append.1 hd with hd | hd
      · exact ho.wakers hd
      · exact ht.waker hd
    rw [hw]
    show Waker.mk (some m.executor.parker) id (some m.executor.queue) = _
    rw [show m.executor.parker = _ from hparker.symm, show m.executor.queue = _ from hqueue.symm]
    rfl
  books _ hlen :=
    hs.move.passage.books
      ((hs.move.counts.numbered ho.numbered).nodup hlen) (ho.books hg (length_issuedIds_le hlen))
  marks hβ _ := ((ho.marks hβ hg).move hβ hs.move ht).1
  marked hβ id b w hd := by
    rcases List.mem_append.1 hd with hd | hd
    · exact (ho.marked hβ hd).append es
    · exact ((ho.marks hβ hg).move hβ hs.move ht).2 id b w hd

/-- A member is destroyed. -/
theorem Member.Orderly.disposed (ho : m.Orderly β x) : m.disposed.Orderly β x where
  numbered := ho.numbered
  created := ho.created
  wakers := ho.wakers
  books := nofun
  marks _ := nofun
  marked := ho.marked

/-- A member of a list in which one has been replaced. -/
theorem of_getElem?_set {A : Type} {l : List A} {a a' c : A} (ha : l[i]? = some a)
    (hc : (l.set i a')[j]? = some c) : (i = j ∧ c = a') ∨ l[j]? = some c := by
  rw [List.getElem?_set] at hc
  split at hc
  · next hij =>
    obtain ⟨hlt, -⟩ := List.getElem?_eq_some_iff.1 ha
    rw [if_pos hlt] at hc
    exact .inl ⟨hij, (Option.some.inj hc).symm⟩
  · exact .inr hc

/-- A member of a list to which one has been added. -/
theorem of_getElem?_concat {A : Type} {l : List A} {a c : A} (hc : (l ++ [a])[j]? = some c) :
    (j = l.length ∧ c = a) ∨ l[j]? = some c := by
  rw [List.getElem?_append] at hc
  split at hc
  · exact .inr hc
  · obtain ⟨hj, rfl⟩ := List.getElem?_eq_some_iff.1 hc
    rw [List.length_singleton] at hj
    exact .inl ⟨by omega, by simp⟩

/-- A member is replaced by one with the same ready queue. -/
theorem Sound.replace (hx : Sound β x) (hi : x.members[i]? = some m)
    (hq : m'.executor.queue = m.executor.queue)
    (hl : x.signals.queues.length ≤ x'.signals.queues.length)
    (hm : x'.members = x.members.set i m') (ho : m'.Orderly β x') : Sound β x' := by
  -- Each member has the ready queue of the one in its place.
  have hold {j : Nat} {a : Member W B V} (ha : x'.members[j]? = some a) :
      ∃ a₀, x.members[j]? = some a₀ ∧ a.executor.queue = a₀.executor.queue ∧ a.Orderly β x' := by
    rw [hm] at ha
    rcases of_getElem?_set hi ha with ⟨rfl, rfl⟩ | ha
    · exact ⟨m, hi, hq, ho⟩
    · exact ⟨a, ha, rfl, (hx.orderly ha).others x'⟩
  refine ⟨fun {j a} ha ↦ ?_, fun {j k a c} ha hc he ↦ ?_, fun {j a} ha ↦ ?_⟩
  · obtain ⟨a₀, ha₀, hqa, -⟩ := hold ha
    rw [hqa]
    exact Nat.lt_of_lt_of_le (hx.queues ha₀) hl
  · obtain ⟨a₀, ha₀, hqa, -⟩ := hold ha
    obtain ⟨c₀, hc₀, hqc, -⟩ := hold hc
    exact hx.apart ha₀ hc₀ (hqa.symm.trans (he.trans hqc))
  · obtain ⟨-, -, -, ho⟩ := hold ha
    exact ho

/-- **Every step keeps a fleet sound.** -/
theorem Move.sound (hm : Move β x x') (hx : Sound β x) : Sound β x' := by
  cases hm with
  | built thread logParking =>
    have hlen : (x.signals.equip thread).2.queues.length = x.signals.queues.length + 1 := by
      rw [Signals.queues_equip, List.length_append, List.length_singleton]
    have hnew := x.signals.index_equip thread
    -- The ready queues of the older executors have smaller numbers.
    have hne {j : Nat} {a : Member W B V} (ha : x.members[j]? = some a) :
        a.executor.queue ≠ (x.signals.equip thread).1.2 := by
      intro he
      have hlt := hx.queues ha
      rw [he, hnew] at hlt
      omega
    refine ⟨fun {j a} ha ↦ ?_, fun {j k a c} ha hc he ↦ ?_, fun {j a} ha ↦ ?_⟩
    · show _ < (x.signals.equip thread).2.queues.length
      rcases of_getElem?_concat ha with ⟨-, rfl⟩ | ha
      · show (x.signals.equip thread).1.2.index < _
        omega
      · exact Nat.lt_of_lt_of_le (hx.queues ha) (by omega)
    · rcases of_getElem?_concat ha with ⟨rfl, rfl⟩ | ha <;>
        rcases of_getElem?_concat hc with ⟨rfl, rfl⟩ | hc
      · rfl
      · exact absurd he.symm (hne hc)
      · exact absurd he (hne ha)
      · exact hx.apart ha hc he
    · rcases of_getElem?_concat ha with ⟨-, rfl⟩ | ha
      · exact Member.orderly_made _ _ _
      · exact (hx.orderly ha).others _
  | acted σ hi hg hs ht =>
    exact hx.replace hi hs.move.queue_eq hs.move.change.length_le rfl
      ((hx.orderly hi).acted hg hs ht)
  | destroyed hi =>
    refine hx.replace hi ?_ (Nat.le_refl _) rfl ((hx.orderly hi).disposed.others _)
    rfl

theorem Run.sound (hr : Run β x₀ x) (h₀ : x₀.members = []) : Sound β x := by
  induction hr with
  | refl =>
    have hnone {j : Nat} {a : Member W B V} (ha : x₀.members[j]? = some a) : False := by
      rw [h₀] at ha
      cases ha
    exact ⟨fun ha ↦ (hnone ha).elim, fun ha ↦ (hnone ha).elim, fun ha ↦ (hnone ha).elim⟩
  | step _ hm ih => exact hm.sound ih

end

/-! ### Identity -/

/-- **A poll that has been made**: an executor has handed a body and a waker to it, under an id. -/
structure Polls (x : Fleet W B V) (i : Nat) (m : Member W B V) (id : TaskId) (b : B) (w : Waker) :
    Prop where
  /-- The executor. -/
  member : x.members[i]? = some m
  /-- The poll. -/
  polled : .polled id b w ∈ m.deeds

/-- The bodies with which tasks have been created carry different marks. -/
def Distinct (mark : B → L) (x : Fleet W B V) : Prop :=
  ∀ {i j : Nat} {m m' : Member W B V} {id id' : TaskId} {b b' : B},
    x.members[i]? = some m → x.members[j]? = some m' →
    .created id b ∈ m.deeds → .created id' b' ∈ m'.deeds → mark b = mark b' → i = j ∧ id = id'

/-- **Wakers tell tasks apart.** A task is known by its executor and its id, or by anything that its
bodies carry with them through their polls. -/
structure Identified (β : Behaviour W B V) (x : Fleet W B V) : Prop where
  /-- No id of an executor is given out twice. -/
  nodup {i : Nat} {m : Member W B V} (hi : x.members[i]? = some m) : (createdIds m.deeds).Nodup
  /-- Only tasks that have been created are polled. -/
  created {i m id b w} (hp : x.Polls i m id b w) : id ∈ createdIds m.deeds
  /-- Two wakers wake the same task exactly if they have been handed to polls under the same id of
  the same executor. -/
  willWake_iff {i j m m' id id' b b' w w'} (hp : x.Polls i m id b w)
    (hp' : x.Polls j m' id' b' w') : w.willWake w' = true ↔ i = j ∧ id = id'
  /-- The bodies that such polls are handed carry the same marks. -/
  mark_eq {L : Type} {mark : B → L} {i j m m' id id' b b' w w'} (hβ : β.Keeps mark)
    (hp : x.Polls i m id b w) (hp' : x.Polls j m' id' b' w') (hw : w.willWake w' = true) :
    mark b = mark b'
  /-- The bodies that other polls are handed do not, if tasks are created with different ones. -/
  willWake_of_mark {L : Type} {mark : B → L} {i j m m' id id' b b' w w'} (hβ : β.Keeps mark)
    (hd : x.Distinct mark) (hp : x.Polls i m id b w) (hp' : x.Polls j m' id' b' w')
    (hm : mark b = mark b') : w.willWake w' = true
  /-- Waking queues the id on the ready queue of the executor, and does nothing else to ready
  queues. -/
  wake {i m id b w} (hp : x.Polls i m id b w) (q : QueueRef) : (x.signals.wake w).queue q =
    if m.executor.queue = q then ((x.signals.queue q).push id).2 else x.signals.queue q
  /-- Whatever is put into a table next finds its id free and gets there, and no task is dropped. -/
  free {i : Nat} {m : Member W B V} {σ : Surroundings W B V} {n : List (Note V)}
    {s : Ensemble W B V} (hi : x.members[i]? = some m) (hg : m.gone = false)
    (hs : Ensemble.Step β σ (x.ensemble m) n s)
    (hlen : (issuedIds (m.history ++ n)).length ≤ UInt64.size) (id : TaskId)
    (hn : ∃ k ∈ n, k.Inserts id) :
    ¬ (x.ensemble m).machine.Tabled id ∧ s.machine.Tabled id ∧ .destroyed id ∉ n

section

variable {x x₀ : Fleet W B V} {i j : Nat} {m m' : Member W B V} {id id' : TaskId} {b b' : B}
  {w w' : Waker}

namespace Sound

variable {mark : B → L}

/-- A poll has been handed the waker of its id. -/
theorem waker_eq (hx : Sound β x) (hp : x.Polls i m id b w) :
    w = ⟨some m.executor.parker, id, some m.executor.queue⟩ :=
  (hx.orderly hp.member).wakers hp.polled

theorem willWake_iff (hx : Sound β x) (hp : x.Polls i m id b w) (hp' : x.Polls j m' id' b' w') :
    w.willWake w' = true ↔ i = j ∧ id = id' := by
  rw [Waker.willWake, decide_eq_true_iff, hx.waker_eq hp, hx.waker_eq hp', Waker.mk.injEq]
  constructor
  · rintro ⟨-, hid, hqueue⟩
    exact ⟨hx.apart hp.member hp'.member (Option.some.inj hqueue), hid⟩
  · rintro ⟨rfl, rfl⟩
    obtain rfl := Option.some.inj (hp.member.symm.trans hp'.member)
    exact ⟨rfl, rfl, rfl⟩

theorem nodup_createdIds (hx : Sound β x) (hi : x.members[i]? = some m)
    (hlen : (issuedIds m.history).length ≤ UInt64.size) : (createdIds m.deeds).Nodup := by
  rw [(hx.orderly hi).created]
  exact (hx.orderly hi).numbered.nodup hlen

/-- A task that is polled has been created. -/
theorem mem_createdIds (hx : Sound β x) (hp : x.Polls i m id b w) : id ∈ createdIds m.deeds := by
  have hβ : β.Keeps fun _ ↦ () := fun b w ↦ .of_forall (fun _ ↦ rfl) _
  obtain ⟨b, hb, -⟩ := (hx.orderly hp.member).marked hβ hp.polled
  exact TaskRuntime.mem_createdIds.2 ⟨b, hb⟩

theorem mark_eq (hx : Sound β x) (hβ : β.Keeps mark)
    (hlen : (issuedIds m.history).length ≤ UInt64.size) (hp : x.Polls i m id b w)
    (hp' : x.Polls j m' id' b' w') (hw : w.willWake w' = true) : mark b = mark b' := by
  obtain ⟨rfl, rfl⟩ := (hx.willWake_iff hp hp').1 hw
  obtain rfl := Option.some.inj (hp.member.symm.trans hp'.member)
  obtain ⟨b₁, hb₁, h₁⟩ := (hx.orderly hp.member).marked hβ hp.polled
  obtain ⟨b₂, hb₂, h₂⟩ := (hx.orderly hp.member).marked hβ hp'.polled
  rw [← h₁, ← h₂, eq_of_created (hx.nodup_createdIds hp.member hlen) hb₁ hb₂]

theorem willWake_of_mark (hx : Sound β x) (hβ : β.Keeps mark) (hd : x.Distinct mark)
    (hp : x.Polls i m id b w) (hp' : x.Polls j m' id' b' w') (hm : mark b = mark b') :
    w.willWake w' = true := by
  obtain ⟨b₁, hb₁, h₁⟩ := (hx.orderly hp.member).marked hβ hp.polled
  obtain ⟨b₂, hb₂, h₂⟩ := (hx.orderly hp'.member).marked hβ hp'.polled
  have hsame := hd hp.member hp'.member hb₁ hb₂ (h₁.trans (hm.trans h₂.symm))
  exact (hx.willWake_iff hp hp').2 hsame

end Sound

/-- **Wakers tell tasks apart**, whatever executors have been made and destroyed on whatever
threads, and whatever they have run, as long as each of them has given out no more than
`UInt64.size` ids. -/
theorem Run.identified (hr : Run β x₀ x) (h₀ : x₀.members = [])
    (hlen : ∀ m ∈ x.members, (issuedIds m.history).length ≤ UInt64.size) : Identified β x :=
  have hx := hr.sound h₀
  have hlen {i : Nat} {m : Member W B V} (hi : x.members[i]? = some m) :
      (issuedIds m.history).length ≤ UInt64.size := hlen m (List.mem_of_getElem? hi)
  { nodup := fun hi ↦ hx.nodup_createdIds hi (hlen hi)
    created := fun hp ↦ hx.mem_createdIds hp
    willWake_iff := fun hp hp' ↦ hx.willWake_iff hp hp'
    mark_eq := fun hβ hp hp' hw ↦ hx.mark_eq hβ (hlen hp.member) hp hp' hw
    willWake_of_mark := fun hβ hd hp hp' hm ↦ hx.willWake_of_mark hβ hd hp hp' hm
    wake := fun hp q ↦ by
      rw [hx.waker_eq hp]
      exact Signals.queue_wake _ _ _ (hx.queues hp.member) q
    free := fun hi hg hs hl id hn ↦ by
      have ho := hx.orderly hi
      exact hs.move.free (ho.books hg (length_issuedIds_le hl))
        ((hs.move.counts.numbered ho.numbered).nodup hl) hn }

end

/-- Bodies that are never resolved, and stay what they are. -/
def patient : Behaviour Unit Nat Unit where
  poll b _ := .done (.ok .pending, b)
  drop _ _ := ()

/-- No executor has been made. -/
def empty : Fleet Unit Nat Unit where
  signals := {}
  world := ()

/-- An executor polls a task in place and then by its loop, and is destroyed. Another one on the
same thread polls its first task: both tasks have the id 1, and the executors share their parker,
but the wakers differ. -/
theorem identified_successor : ∃ x m m' w w', Identified patient x ∧
    m.deeds = [.created 1 7, .polled 1 7 w, .polled 1 7 w] ∧ x.Polls 0 m 1 7 w ∧
    x.Polls 1 m' 1 8 w' ∧ w.parker = w'.parker ∧ w.willWake w' = false := by
  have hstart : Run patient empty empty := .refl
  have hbuilt := hstart.step (.built 0 true)
  have hentered := hbuilt.step (.acted (i := 0) .still rfl rfl (.blockOn 7 rfl rfl) (.entered rfl))
  have hpended := hentered.step (.acted (i := 0) .still rfl rfl
    (.turn (by rintro _ ⟨⟩; trivial) rfl) (.nothing rfl (by rintro _ _ (_ | ⟨_, _ | ⟨_, ⟨⟩⟩⟩))))
  have hbegan := hpended.step (.acted (i := 0) .still rfl rfl
    (.turn (by rintro _ ⟨⟩; trivial) rfl) (.began rfl rfl rfl))
  have hgone := hbegan.step (.destroyed (i := 0) rfl)
  have hrebuilt := hgone.step (.built 0 true)
  have hreentered :=
    hrebuilt.step (.acted (i := 1) .still rfl rfl (.blockOn 8 rfl rfl) (.entered rfl))
  refine ⟨_, _, _, ⟨some ⟨0⟩, 1, some ⟨0⟩⟩, ⟨some ⟨0⟩, 1, some ⟨1⟩⟩, hreentered.identified rfl ?_,
    rfl, ⟨rfl, ?_⟩, ⟨rfl, ?_⟩, rfl, rfl⟩
  · rintro m (_ | ⟨_, _ | ⟨_, ⟨⟩⟩⟩)
    · exact Nat.le_of_ble_eq_true rfl
    · exact Nat.le_of_ble_eq_true rfl
  · exact .tail _ (.head _)
  · exact .tail _ (.head _)

end Fleet

end TaskRuntime
