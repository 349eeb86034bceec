import TaskRuntime.Proofs.Places
import TaskRuntime.Proofs.Quarters

/-!
# What threads can rely on

What follows from who owns what (`Quarters.Sound`), at any moment of any number of threads: each
thread has one executor at most, and spawns there; what fails leaves no trace; the runtime is
initialized once at most, and its reactor stays the one that it is; and nobody can tell whether an
object has been moved (`Quarters.Run.one_each`).

## Ids

A core gives out its ids in order, so the id of a spawned task is new as long as not all ids have
been given out (`Run.counted`).

## Runs to completion

A run to completion that is left alone is the run of its thread that `Threads.blockOnIn` makes
(`run_blockOnIn`).

## Names

Two quarters are alike if they differ only in which names stand for the objects (`Alike`). What
each thread has is then the same, since a thread has what one of its objects owns
(`Sound.current`), so every step that an object makes possible on the one side is made possible by
some object on the other (`Alike.step`).
-/

namespace TaskRuntime

/-- Some name is not in a list. -/
theorem exists_notMem (l : List Bytes) : ∃ name, name ∉ l := by
  obtain ⟨n, hn⟩ : ∃ n, ∀ b ∈ l, b.length < n := by
    induction l with
    | nil => exact ⟨0, nofun⟩
    | cons b rest ih =>
      obtain ⟨n, hn⟩ := ih
      refine ⟨b.length + n + 1, List.forall_mem_cons.2 ⟨by omega, fun c hc ↦ ?_⟩⟩
      have := hn c hc
      omega
  refine ⟨List.replicate n 0, fun h ↦ ?_⟩
  have := hn _ h
  rw [List.length_replicate] at this
  exact Nat.lt_irrefl n this

/-- Some name is free. -/
theorem Table.exists_free {V : Type} (t : Table Bytes V) : ∃ name, t.get? name = none := by
  obtain ⟨name, h⟩ := exists_notMem t.keys
  exact ⟨name, find_eq_none_iff.2 h⟩

/-- The later of two values of a key counts. -/
theorem Table.insert_insert {A V : Type} [DecidableEq A] (t : Table A V) (k : A) (v v' : V) :
    (t.insert k v).insert k v' = t.insert k v' := by
  have hput (l : List (A × V)) : put k v' (put k v l) = put k v' l := by
    induction l with
    | nil => simp [put]
    | cons e rest ih => by_cases he : e.1 = k <;> simp [put, he, ih]
  simp only [Table.insert, hput]

/-! ### Operations and names -/

namespace Threads

variable {K : Type} {p : Threads K} {name other : Bytes} {c : CoreId}

/-- The threads with other names for the objects. -/
def named (p : Threads K) (objects : Table Bytes (Option CoreId)) : Threads K := { p with objects }

variable {o : Table Bytes (Option CoreId)}

/-- Whether an executor is made does not depend on names. -/
theorem construct_named (p : Threads K) (name other : Bytes) (o : Table Bytes (Option CoreId)) :
    ∃ o', (p.named o).construct other = ((p.construct name).1, (p.construct name).2.named o') := by
  cases hc : p.currentCore with
  | none =>
    rw [construct_of_none hc, construct_of_none (p := p.named o) hc]
    exact ⟨_, rfl⟩
  | some c =>
    rw [construct_of_some hc, construct_of_some (p := p.named o) hc]
    exact ⟨_, rfl⟩

variable [Kernel K]

/-- What is destroyed with an object depends on the core that it owns, and not on its name. -/
theorem destroy_named (h : p.coreOf name = some c) (h' : (p.named o).coreOf other = some c) :
    ∃ o', (p.named o).destroy other = (p.destroy name).named o' := by
  rw [destroy, destroy, h, h']
  dsimp only [discard, named]
  split
  · exact ⟨_, rfl⟩
  · exact ⟨_, rfl⟩

theorem startRuntimeUnless_named (refusal : Option Failure) (p : Threads K)
    (o : Table Bytes (Option CoreId)) :
    (p.named o).startRuntimeUnless refusal =
      ((p.startRuntimeUnless refusal).1, (p.startRuntimeUnless refusal).2.named o) := by
  by_cases hi : p.initialized = true
  · rw [startRuntimeUnless_again refusal hi, startRuntimeUnless_again (p := p.named o) refusal hi]
  cases refusal with
  | none =>
    rw [startRuntimeUnless, startRuntimeUnless, startRuntime, startRuntime, if_neg hi,
      if_neg (show ¬(p.named o).initialized = true from hi)]
    dsimp only [named]
    rcases Reactor.create (p.world.toEnvironment.setting Config.eventCapacity).1
      (p.world.toEnvironment.setting Config.eventCapacity).2.toSystem with ⟨x | reactor, s⟩
    · rfl
    · dsimp only
      rcases reactor.start s with ⟨x | u, reactor', s'⟩ <;> rfl
  | some x =>
    rw [startRuntimeUnless, startRuntimeUnless, if_neg hi,
      if_neg (show ¬(p.named o).initialized = true from hi)]
    dsimp only [named]
    rcases Reactor.create (p.world.toEnvironment.setting Config.eventCapacity).1
      (p.world.toEnvironment.setting Config.eventCapacity).2.toSystem with ⟨y | reactor, s⟩ <;> rfl

theorem spawnOn_named (t : Task) :
    (p.named o).spawnOn c t = ((p.spawnOn c t).1, (p.spawnOn c t).2.named o) := by
  unfold spawnOn
  rw [show (p.named o).site? c = p.site? c from rfl]
  cases p.site? c <;> rfl

theorem spawnFree_named (t : Task) :
    (p.named o).spawnFree t = ((p.spawnFree t).1, (p.spawnFree t).2.named o) := by
  unfold spawnFree
  rw [show (p.named o).currentCore = p.currentCore from rfl]
  cases p.currentCore with
  | none => rfl
  | some c => exact spawnOn_named t

/-- How an initialization goes does not depend on names. -/
theorem initUnless_named (refusal : Option Failure) (p : Threads K) (name other : Bytes)
    (o : Table Bytes (Option CoreId)) : ∃ o', (p.named o).initUnless refusal other =
      ((p.initUnless refusal name).1, (p.initUnless refusal name).2.named o') := by
  cases hc : p.currentCore with
  | some c =>
    rw [initUnless, initUnless, construct_of_some hc, construct_of_some (p := p.named o) hc]
    exact ⟨o, rfl⟩
  | none =>
    rw [initUnless, initUnless, construct_of_none hc, construct_of_none (p := p.named o) hc]
    dsimp only
    rw [show (p.named o).housed other = (p.housed name).named (o.insert other (some p.nextCore))
      from rfl, startRuntimeUnless_named]
    have howned {q : Threads K} (h : q.objects = (p.housed name).objects) :
        q.coreOf name = some p.nextCore := by
      simp [coreOf, h, housed]
    have hother (q : Threads K) :
        (q.named (o.insert other (some p.nextCore))).coreOf other = some p.nextCore := by
      simp [coreOf, named]
    rcases startRuntimeUnless_cases refusal (p.housed name) with
      ⟨e, s, hstart⟩ | ⟨-, s, reactor, hstart⟩
    · rw [hstart]
      obtain ⟨o', h⟩ := destroy_named (p := { p.housed name with
        world := { (p.housed name).world with toSystem := s } }) (howned rfl) (hother _)
      exact ⟨o', congrArg (Prod.mk _) h⟩
    · rw [hstart]
      exact ⟨_, rfl⟩

end Threads

/-! ### Ids of a core -/

/-- **Ids are given out in order**: so many have been, and the bodies in all places have such. -/
structure Machine.Counted {W B V : Type} (m : Machine W B V) (count : Nat) : Prop where
  /-- The next id is the next in order. -/
  next : m.site.executor.nextId = Executor.firstId + UInt64.ofNat count
  /-- All bodies have ids that have been given out. -/
  places : ∀ id ∈ m.places, id ∈ firstIds count
  /-- No call has a body of its own in two places. -/
  bare : m.Bare

/-- A run goes on to give out ids in order. -/
theorem Ensemble.Run.counted {W B V : Type} {β : Behaviour W B V} {σ : Surroundings W B V}
    {P : Ensemble W B V → Prop} {s₀ s : Ensemble W B V} {h : List (Note V)}
    (hr : Run β σ P s₀ h s) {count : Nat} (hc : s₀.machine.Counted count) :
    s.machine.Counted (count + (issuedIds h).length) := by
  induction hr with
  | refl => exact hc
  | @step h s n s' hr hs _ ih =>
    have hkeeps := hs.move.keeps ih.bare
    -- The ids of the bodies are those from before, and the one that is given out.
    have hplaces {id : TaskId} (hid : id ∈ s'.machine.places) :
        id ∈ s.machine.places ∨ id ∈ issuedIds n := by
      have hcount := hkeeps id
      have hpos := List.count_pos_iff.2 hid
      by_cases hold : id ∈ s.machine.places
      · exact .inl hold
      · rw [List.count_eq_zero.2 hold] at hcount
        exact .inr (List.count_pos_iff.1 (by omega))
    rw [issuedIds_append, List.length_append]
    rcases hs.move.counts with ⟨hn, hx⟩ | ⟨hn, hx⟩
    · rw [hn] at hplaces ⊢
      exact ⟨hx.trans ih.next, fun id hid ↦ ih.places id ((hplaces hid).resolve_right nofun),
        hs.move.bare ih.bare⟩
    · rw [hn] at hplaces ⊢
      rw [List.length_singleton, ← Nat.add_assoc]
      refine ⟨?_, fun id hid ↦ ?_, hs.move.bare ih.bare⟩
      · rw [hx, ih.next, UInt64.ofNat_add (count + (issuedIds h).length) 1]
        exact UInt64.add_assoc _ _ _
      · rw [firstIds_succ, List.mem_append, List.mem_singleton, ← ih.next]
        exact (hplaces hid).imp (ih.places id) List.mem_singleton.1

namespace Quarters

variable {K : Type} {x x' y : Quarters K} {i : ThreadId} {tag name : Bytes} {c : CoreId}

/-- The ids that an event tells of. -/
def Event.issued : Event K → Nat
  | .spawned _ _ (.ok _) => 1
  | .spawnedFree _ _ (.ok _) => 1
  | .entered _ _ n => (issuedIds n).length
  | .stepped _ n => (issuedIds n).length
  | _ => 0

/-- How many ids have been given out, on all threads together. -/
def issued : List (Event K) → Nat
  | [] => 0
  | e :: h => e.issued + issued h

theorem issued_append (h n : List (Event K)) : issued (h ++ n) = issued h + issued n := by
  induction h with
  | nil => exact (Nat.zero_add _).symm
  | cons e h ih => rw [List.cons_append, issued, issued, ih, Nat.add_assoc]

/-- The calls that are under way on a core, if any. -/
def Under (x : Quarters K) (c : CoreId) (calls : List (Call (World K) Task Value)) : Prop :=
  calls = [] ∨ ∃ i e, x.errands i = some e ∧ e.core = c ∧ e.calls = calls

/-- **Each core gives out its ids in order**, and not more than have been given out altogether. -/
def Counted (x : Quarters K) (total : Nat) : Prop :=
  ∀ ⦃c a⦄, x.threads.cores.get? c = some a → ∃ count ≤ total, ∀ ⦃calls⦄, x.Under c calls →
    (Machine.mk ⟨a, x.threads.signals, x.threads.world⟩ calls none).Counted count

/-- What goes on without changing executors goes on counting. -/
theorem Counted.of_cores {total more : Nat} (hx : x.Counted total) (hmore : total ≤ more)
    (he : x'.errands = x.errands)
    (hc : ∀ c a, x'.threads.cores.get? c = some a → x.threads.cores.get? c = some a) :
    x'.Counted more := by
  intro c a ha
  obtain ⟨count, hle, h⟩ := hx (hc c a ha)
  refine ⟨count, Nat.le_trans hle hmore, fun calls hu ↦ ?_⟩
  rw [Under, he] at hu
  obtain ⟨hnext, hplaces, hbare⟩ := h hu
  exact ⟨hnext, hplaces, hbare⟩

/-- A new core begins with the first id. -/
theorem Counted.housed {total : Nat} {w : World K} {b : Bool} (hx : x.Counted total)
    (hs : x.Sound) : (x.housed i tag name w b).Counted total := by
  intro d a ha
  rw [show (x.housed i tag name w b).threads.cores = x.threads.cores.insert x.threads.nextCore
    (.made (x.threads.signals.equip i).1 _) from rfl, Table.get?_insert] at ha
  split at ha
  · next hd =>
    subst hd
    obtain rfl := Option.some.inj ha
    refine ⟨0, Nat.zero_le _, fun calls hu ↦ ?_⟩
    rcases hu with rfl | ⟨j, e, he, hcore, -⟩
    · exact ⟨rfl, List.forall_mem_nil _, List.forall_mem_nil _⟩
    -- Nobody is under way on a core that there has not been.
    · have he : x.errands j = some e := he
      obtain ⟨a, ha⟩ := hs.core (hs.errand he)
      rw [hcore, hs.fresh (Nat.le_refl _)] at ha
      cases ha
  · obtain ⟨count, hle, h⟩ := hx ha
    refine ⟨count, hle, fun calls hu ↦ ?_⟩
    obtain ⟨hnext, hplaces, hbare⟩ := h hu
    exact ⟨hnext, hplaces, hbare⟩

/-- A spawned task gets the next id. -/
theorem Counted.spawned {total : Nat} {p : Threads K} {a : Executor Task} {t : Task}
    (hx : x.Counted total) (ha : x.threads.cores.get? c = some a)
    (hs : (x.onThread i tag).Spawned p c a t) : Counted { x with threads := p } (total + 1) := by
  intro d b hb
  by_cases hd : d = c
  · subst hd
    rw [show Table.get? _ _ = _ from hs.core] at hb
    obtain rfl := Option.some.inj hb
    obtain ⟨count, hle, h⟩ := hx ha
    refine ⟨count + 1, Nat.succ_le_succ hle, fun calls hu ↦ ?_⟩
    obtain ⟨hnext, hplaces, hbare⟩ := h hu
    refine ⟨?_, fun id hid ↦ ?_, hbare⟩
    · rw [UInt64.ofNat_add, ← UInt64.add_assoc]
      exact congrArg (· + 1) hnext
    · rw [firstIds_succ, List.mem_append, List.mem_singleton, ← hnext]
      -- The table has got the new id at most.
      have hkeys {k : TaskId} (hk : k ∈ (if a.tasks.contains a.nextId then a.tasks else
          a.tasks.insert a.nextId t).keys) : k ∈ a.tasks.keys ∨ k = a.nextId := by
        split at hk
        · exact .inl hk
        · next hnew =>
          rw [Table.keys_insert hnew, List.mem_append, List.mem_singleton] at hk
          exact hk
      rcases List.mem_append.1 hid with hid | hid
      · exact (hkeys hid).imp_left fun hid ↦ hplaces id (List.mem_append.2 (.inl hid))
      · exact .inl (hplaces id (List.mem_append.2 (.inr hid)))
  · obtain ⟨count, hle, h⟩ := hx ((hs.others d hd).symm.trans hb)
    refine ⟨count, Nat.le_succ_of_le hle, fun calls hu ↦ ?_⟩
    obtain ⟨hnext, hplaces, hbare⟩ := h hu
    exact ⟨hnext, hplaces, hbare⟩

/-- A run to completion goes on. -/
theorem Counted.sent {total count : Nat} {m : Machine (World K) Task Value} {e : Option (Errand K)}
    (hx : x.Counted total) (hs : x.Sound) (hc : x.Holds i c) (hm : m.Counted count)
    (hle : count ≤ total) (he : m.calls = [] ∧ e = none ∨ e = some ⟨c, m.calls⟩) :
    Counted { x with
      threads := (x.onThread i tag).putSite c m.site, errands := x.sent i e } total := by
  intro d b hb
  replace hb : (x.threads.cores.insert c m.site.executor).get? d = some b := hb
  rw [Table.get?_insert] at hb
  split at hb
  · next hd =>
    subst hd
    obtain rfl := Option.some.inj hb
    refine ⟨count, hle, fun calls hu ↦ ?_⟩
    obtain ⟨hnext, hplaces, hbare⟩ := hm
    -- The calls are those of the machine, since nobody else holds the core.
    have hcalls : calls = [] ∨ calls = m.calls := by
      rcases hu with hu | ⟨j, f, hf, hcore, rfl⟩
      · exact .inl hu
      have hf : x.sent i e j = some f := hf
      rw [Quarters.sent] at hf
      split at hf
      · subst hf
        rcases he with ⟨-, he⟩ | he
        · cases he
        · cases he
          exact .inr rfl
      · next hj =>
        obtain ⟨n, ho⟩ := hs.errand hf
        obtain ⟨n', ho'⟩ := hc
        rw [hcore] at ho
        obtain rfl := hs.apart ho ho'
        exact absurd (ho.1.symm.trans ho'.1) hj
    rcases hcalls with rfl | rfl
    · exact ⟨hnext, fun id hid ↦ hplaces id (List.mem_append.2
        (.inl ((List.mem_append.1 hid).resolve_right List.not_mem_nil))), List.forall_mem_nil _⟩
    · exact ⟨hnext, hplaces, hbare⟩
  · next hd =>
    obtain ⟨count, hle, h⟩ := hx hb
    refine ⟨count, hle, fun calls hu ↦ ?_⟩
    have hu : x.Under d calls := by
      rcases hu with hu | ⟨j, f, hf, hcore, hcalls⟩
      · exact .inl hu
      have hf : x.sent i e j = some f := hf
      rw [Quarters.sent] at hf
      split at hf
      · subst hf
        rcases he with ⟨-, he⟩ | he
        · cases he
        · cases he
          exact absurd hcore hd
      · exact .inr ⟨j, f, hf, hcore, hcalls⟩
    obtain ⟨hnext, hplaces, hbare⟩ := h hu
    exact ⟨hnext, hplaces, hbare⟩

/-! ### A run to completion, left alone -/

/-- The quarters while a thread runs a task to completion. -/
def running (x : Quarters K) (i : ThreadId) (c : CoreId) (m : Machine (World K) Task Value) :
    Quarters K :=
  { x with
    threads := (x.onThread i m.site.world.tag).putSite c m.site
    errands := x.sent i (match m.calls with | [] => none | calls => some ⟨c, calls⟩) }

/-! ### Names -/

/-- **Quarters that differ in names only.** -/
structure Alike (x y : Quarters K) : Prop where
  /-- The threads are the same but for the names of objects. -/
  threads : y.threads = x.threads.named y.threads.objects
  /-- So are the runs to completion that are under way. -/
  errands : y.errands = x.errands

namespace Alike

theorem symm (ha : x.Alike y) : y.Alike x where
  threads := by
    rw [ha.threads]
    rfl
  errands := ha.errands.symm

theorem onThread (ha : x.Alike y) (i : ThreadId) (tag : Bytes) :
    y.onThread i tag = (x.onThread i tag).named y.threads.objects := by
  rw [Quarters.onThread, ha.threads]
  rfl

theorem sent (ha : x.Alike y) (i : ThreadId) (e : Option (Errand K)) :
    y.sent i e = x.sent i e := by
  funext j
  rw [Quarters.sent, Quarters.sent, ha.errands]

/-- A thread owns the same core under some name. -/
theorem owner (ha : x.Alike y) (hx : x.Sound) (hy : y.Sound) (ho : x.Owns i name c) :
    ∃ other, y.Owns i other c := by
  have hc : x.threads.current.get? i = some c := hx.current.2 ⟨name, ho⟩
  have hcurrent : y.threads.current = x.threads.current := by
    rw [ha.threads]
    rfl
  exact hy.current.1 (hcurrent ▸ hc)

end Alike

/-! ### Steps -/

variable [Kernel K] {σ : Surroundings (World K) Task Value} {h n : List (Event K)}

/-- A step goes on counting. -/
theorem Counted.step {total : Nat} (hx : x.Counted total) (hs : x.Sound) (hm : Move σ x n x') :
    x'.Counted (total + issued n) := by
  cases hm with
  | @construct i tag name r p hn h =>
    cases hc : x.threads.current.get? i with
    | none =>
      rw [Threads.construct_of_none (p := x.onThread i tag) hc] at h
      cases h
      exact hx.housed hs
    | some c =>
      rw [Threads.construct_of_some (p := x.onThread i tag) hc] at h
      cases h
      exact hx.of_cores (Nat.le_add_right _ _) rfl fun _ _ ↦ id
  | move => exact hx.of_cores (Nat.le_add_right _ _) rfl fun _ _ ↦ id
  | @destroy i tag name c ho hi =>
    obtain ⟨a, ha⟩ := hs.core ⟨name, ho⟩
    have hc : x.threads.current.get? i = some c := hs.current.2 ⟨name, ho⟩
    rw [Threads.destroy_of_some (p := x.onThread i tag) ho.2 ha hc]
    refine hx.of_cores (Nat.le_add_right _ _) rfl fun d b hb ↦ ?_
    replace hb : (x.threads.cores.erase c).get? d = some b := hb
    rw [Table.get?_erase] at hb
    split at hb
    · cases hb
    · exact hb
  | @shed name ho =>
    have hnone : x.threads.coreOf name = none := by rw [Threads.coreOf, ho]; rfl
    rw [Threads.destroy_of_none hnone]
    exact hx.of_cores (Nat.le_add_right _ _) rfl fun _ _ ↦ id
  | @spawn i tag name t c r p ho h =>
    obtain ⟨a, ha⟩ := hs.core ⟨name, ho⟩
    have hspawn : (x.onThread i tag).spawn name t = (x.onThread i tag).spawnOn c t := by
      rw [Threads.spawn, show (x.onThread i tag).coreOf name = some c from ho.2]
    obtain ⟨hr, hspawned⟩ := Threads.spawnOn_spec (p := x.onThread i tag) ha t
    rw [← hspawn, h] at hr hspawned
    rw [show r = .ok a.nextId from hr]
    exact hx.spawned ha hspawned
  | @spawnFree i tag t r p h =>
    cases hc : x.threads.current.get? i with
    | none =>
      rw [Threads.spawnFree, show (x.onThread i tag).currentCore = none from hc] at h
      cases h
      exact hx.of_cores (Nat.le_add_right _ _) rfl fun _ _ ↦ id
    | some c =>
      obtain ⟨a, ha⟩ := hs.core (hs.current.1 hc)
      have hspawn : (x.onThread i tag).spawnFree t = (x.onThread i tag).spawnOn c t := by
        rw [Threads.spawnFree, show (x.onThread i tag).currentCore = some c from hc]
      obtain ⟨hr, hspawned⟩ := Threads.spawnOn_spec (p := x.onThread i tag) ha t
      rw [← hspawn, h] at hr hspawned
      rw [show r = .ok a.nextId from hr]
      exact hx.spawned ha hspawned
  | @enter i tag name t c s n m ho hi hsite h =>
    obtain ⟨a, ha, rfl⟩ := Option.map_eq_some_iff.1 hsite
    obtain ⟨count, hle, hcount⟩ := hx ha
    obtain ⟨hnext, hplaces, hbare⟩ := hcount (.inl rfl)
    have hr : Ensemble.Run Task.behaviour σ (fun _ ↦ True)
        ⟨⟨⟨a, x.threads.signals, (x.onThread i tag).world⟩, [], none⟩, [], none⟩ n ⟨m, [], none⟩ :=
      .single (.blockOn t rfl h) trivial
    have hm := hr.counted (show Machine.Counted _ count from ⟨hnext, hplaces, hbare⟩)
    have hle : count + (issuedIds n).length ≤ total + (issuedIds n).length := by omega
    exact (hx.of_cores (Nat.le_add_right _ _) rfl fun _ _ ↦ id).sent hs ⟨name, ho⟩ hm hle (.inr rfl)
  | @step i tag e s n m he hsite h =>
    obtain ⟨a, ha, rfl⟩ := Option.map_eq_some_iff.1 hsite
    obtain ⟨count, hle, hcount⟩ := hx ha
    obtain ⟨hnext, hplaces, hbare⟩ := hcount (.inr ⟨i, e, he, rfl, rfl⟩)
    have hr := Machine.run_step? (f := []) h (Nat.le_max_left _ _) (Nat.le_max_right _ _)
    have hm := hr.counted (show Machine.Counted _ count from ⟨hnext, hplaces, hbare⟩)
    have hle : count + (issuedIds n).length ≤ total + (issuedIds n).length := by omega
    refine (hx.of_cores (Nat.le_add_right _ _) rfl fun _ _ ↦ id).sent hs (hs.errand he) hm hle ?_
    split
    · next hcalls => exact .inl ⟨hcalls, rfl⟩
    · exact .inr rfl
  | @init i tag name refusal r p hn h =>
    have hfresh : (x.onThread i tag).cores.get? (x.onThread i tag).nextCore = none :=
      hs.fresh (Nat.le_refl _)
    rcases Threads.initUnless_cases (p := x.onThread i tag) refusal hn hfresh with
      ⟨c, hc, hinit⟩ | ⟨hc, ⟨e, p', hinit, hu⟩ | ⟨hi, s, reactor, hinit⟩⟩
    · rw [hinit] at h
      cases h
      exact hx.of_cores (Nat.le_add_right _ _) rfl fun _ _ ↦ id
    · rw [hinit] at h
      cases h
      exact hx.of_cores (Nat.le_add_right _ _) rfl fun d _ hb ↦ (hu.cores d).symm.trans hb
    · rw [hinit] at h
      cases h
      exact hx.housed hs
  | others w s hw hsignals => exact hx.of_cores (Nat.le_add_right _ _) rfl fun _ _ ↦ id

/-! ### Runs -/

theorem Run.trans {h' : List (Event K)} (hr : Run σ x h x') (hr' : Run σ x' h' y) :
    Run σ x (h ++ h') y := by
  induction hr' with
  | refl =>
    rw [List.append_nil]
    exact hr
  | step _ hm ih =>
    rw [← List.append_assoc]
    exact ih.step hm

/-- **Who owns what is clear at each moment**, and the runtime is initialized by the one
initialization that succeeds. -/
theorem Run.sound (hσ : σ.Steady World.reactorIdentity) (hx : x.Sound) (hr : Run σ x h x') :
    x'.Sound ∧ x.SameRuntime x' ∧
      (h.filter Event.Starts).length + (if x.threads.initialized then 1 else 0) =
        if x'.threads.initialized then 1 else 0 := by
  induction hr with
  | refl => exact ⟨hx, fun hi ↦ ⟨hi, rfl⟩, Nat.zero_add _⟩
  | step _ hm ih =>
    obtain ⟨hs, hsame, hcount⟩ := ih
    obtain ⟨hs', hsame', hcount'⟩ := hs.step hσ hm
    refine ⟨hs', fun hi ↦ ?_, ?_⟩
    · obtain ⟨hi, hr⟩ := hsame hi
      obtain ⟨hi, hr'⟩ := hsame' hi
      exact ⟨hi, hr'.trans hr⟩
    · rw [List.filter_append, List.length_append]
      omega

/-- A step of the machine is a step of its thread. -/
theorem Move.running {m m' : Machine (World K) Task Value} {k : List (Note Value)}
    (h : m.step? Task.behaviour σ = some (k, m')) :
    Move σ (x.running i c m) [.stepped i k] (x.running i c m') := by
  have hcalls : m.calls ≠ [] := by
    intro hnil
    rw [Machine.step?, hnil] at h
    cases h
  have he : (x.running i c m).errands i = some ⟨c, m.calls⟩ := by
    show x.sent i _ i = _
    rw [Quarters.sent, if_pos rfl]
    split
    · contradiction
    · rfl
  have hsite : ((x.running i c m).onThread i m.site.world.tag).site? c = some m.site := by
    show ((x.threads.cores.insert c m.site.executor).get? c).map _ = _
    rw [Table.get?_insert, if_pos rfl]
    rfl
  have hstep := Move.step (σ := σ) i m.site.world.tag he hsite h
  -- The new site takes the place of the old one.
  have hthreads : ((x.running i c m).onThread i m.site.world.tag).putSite c m'.site =
      (x.running i c m').threads := by
    show Threads.mk m'.site.world m'.site.signals
      ((x.threads.cores.insert c m.site.executor).insert c m'.site.executor) _ _ _ _ _ _ = _
    rw [Table.insert_insert]
    rfl
  have herrands (e : Option (Errand K)) : (x.running i c m).sent i e = x.sent i e := by
    funext j
    rw [Quarters.sent, Quarters.sent]
    split
    · rfl
    · next hj => exact if_neg hj
  rw [hthreads, herrands] at hstep
  exact hstep

/-- So are any number of them. -/
theorem Run.running (limit : Nat) (m : Machine (World K) Task Value) :
    ∃ h, Run σ (x.running i c m) h (x.running i c (m.run Task.behaviour σ limit)) := by
  induction limit generalizing m with
  | zero => exact ⟨[], .refl⟩
  | succ limit ih =>
    cases hs : m.step? Task.behaviour σ with
    | none =>
      simp only [Machine.run, hs]
      exact ⟨[], .refl⟩
    | some r =>
      obtain ⟨k, m'⟩ := r
      obtain ⟨h, hr⟩ := ih m'
      simp only [Machine.run, hs]
      exact ⟨_, Run.trans (.step .refl (.running hs)) hr⟩

/-- **Running a task to completion** is a run of its thread, as long as nobody else does anything.
-/
theorem run_blockOnIn (hx : x.Sound) (ho : x.Owns i name c) (hi : x.errands i = none)
    (tag : Bytes) (t : Task) : ∃ h m, Run σ x h (x.running i c m) ∧
      (x.onThread i tag).blockOnIn σ name t =
        (m.outcome.getD (.error .stalled), (x.running i c m).threads) := by
  obtain ⟨a, ha⟩ := hx.core ⟨name, ho⟩
  have hsite : (x.onThread i tag).site? c =
      some ⟨a, x.threads.signals, (x.onThread i tag).world⟩ :=
    congrArg (Option.map fun e ↦ Site.mk e x.threads.signals (x.onThread i tag).world) ha
  have hcore : (x.onThread i tag).coreOf name = some c := ho.2
  rw [Threads.blockOnIn, hcore, Option.bind_some, hsite]
  obtain ⟨h, hr⟩ := Run.running (σ := σ) (x := x) (i := i) (c := c) Threads.stepLimit
    (Machine.enter Task.behaviour ⟨a, x.threads.signals, (x.onThread i tag).world⟩ [] t).2
  exact ⟨_, _, Run.trans (.step .refl (.enter i tag name t ho hi hsite rfl)) hr, rfl⟩

/-- Each core gives out its ids in order. -/
theorem Run.counted (hσ : σ.Steady World.reactorIdentity) (hf : x.Fresh) (hr : Run σ x h x') :
    x'.Counted (issued h) := by
  induction hr with
  | refl =>
    intro c a ha
    rw [hf.cores] at ha
    cases ha
  | step hr hm ih =>
    rw [issued_append]
    exact ih.step (hr.sound hσ hf.sound).1 hm

namespace Alike

/-- **A step is made on both sides**, by objects of whatever names. -/
theorem step (ha : x.Alike y) (hx : x.Sound) (hy : y.Sound) (hm : Move σ x n x') :
    ∃ y', Run σ y n y' ∧ x'.Alike y' := by
  obtain ⟨other, hfree⟩ := y.threads.objects.exists_free
  cases hm with
  | @construct i tag name r p hn h =>
    obtain ⟨o, ho⟩ := Threads.construct_named (x.onThread i tag) name other y.threads.objects
    rw [← ha.onThread, h] at ho
    exact ⟨_, .step .refl (.construct i tag other hfree ho), rfl, ha.errands⟩
  | move => exact ⟨y, .refl, ha.threads, ha.errands⟩
  | @destroy i tag name c hown hi =>
    obtain ⟨other, hother⟩ := ha.owner hx hy hown
    have hcore : ((x.onThread i tag).named y.threads.objects).coreOf other = some c := hother.2
    obtain ⟨o, ho⟩ := Threads.destroy_named (p := x.onThread i tag) hown.2 hcore
    rw [← ha.onThread] at ho
    refine ⟨_, .step .refl (.destroy i tag other hother (ha.errands ▸ hi)), ?_, ha.errands⟩
    exact ho ▸ rfl
  | @shed name ho =>
    have hnone : x.threads.coreOf name = none := by rw [Threads.coreOf, ho]; rfl
    rw [Threads.destroy_of_none hnone]
    exact ⟨y, .refl, ha.threads, ha.errands⟩
  | @spawn i tag name t c r p hown h =>
    obtain ⟨other, hother⟩ := ha.owner hx hy hown
    have hspawn : (y.onThread i tag).spawn other t = (r, p.named y.threads.objects) := by
      have hx : (x.onThread i tag).spawnOn c t = (r, p) := by
        rw [← h, Threads.spawn, show (x.onThread i tag).coreOf name = some c from hown.2]
      rw [Threads.spawn, show (y.onThread i tag).coreOf other = some c from hother.2, ha.onThread]
      dsimp only
      rw [Threads.spawnOn_named, hx]
    exact ⟨_, .step .refl (.spawn i tag other t hother hspawn), rfl, ha.errands⟩
  | @spawnFree i tag t r p h =>
    have hspawn : (y.onThread i tag).spawnFree t = (r, p.named y.threads.objects) := by
      rw [ha.onThread, Threads.spawnFree_named, h]
    exact ⟨_, .step .refl (.spawnFree i tag t hspawn), rfl, ha.errands⟩
  | @enter i tag name t c s n m hown hi hs h =>
    obtain ⟨other, hother⟩ := ha.owner hx hy hown
    have hs' : (y.onThread i tag).site? c = some s := by
      rw [ha.onThread]
      exact hs
    refine ⟨_, .step .refl (.enter i tag other t hother (ha.errands ▸ hi) hs' h), ?_, ha.sent i _⟩
    rw [ha.onThread]
    rfl
  | @step i tag e s n m he hs h =>
    have hs' : (y.onThread i tag).site? e.core = some s := by
      rw [ha.onThread]
      exact hs
    refine ⟨_, .step .refl (.step i tag (ha.errands ▸ he) hs' h), ?_, ha.sent i _⟩
    rw [ha.onThread]
    rfl
  | @init i tag name refusal r p hn h =>
    obtain ⟨o, ho⟩ := Threads.initUnless_named refusal (x.onThread i tag) name other
      y.threads.objects
    rw [← ha.onThread, h] at ho
    exact ⟨_, .step .refl (.init i tag other refusal hfree ho), rfl, ha.errands⟩
  | others w s hw hs =>
    have hw' : w.reactorIdentity = y.threads.world.reactorIdentity := by
      rw [ha.threads]
      exact hw
    have hs' : y.threads.signals.queues.length ≤ s.queues.length := by
      rw [ha.threads]
      exact hs
    refine ⟨_, .step .refl (.others w s hw' hs'), ?_, ha.errands⟩
    rw [ha.threads]
    rfl

/-- **What can be told from outside does not depend on names.** -/
theorem run (hσ : σ.Steady World.reactorIdentity) (ha : x.Alike y) (hx : x.Sound) (hy : y.Sound)
    (hr : Run σ x h x') : ∃ y', Run σ y h y' ∧ x'.Alike y' := by
  induction hr with
  | refl => exact ⟨y, .refl, ha⟩
  | step hr hm ih =>
    obtain ⟨y', hy', ha'⟩ := ih
    obtain ⟨y'', hy'', ha''⟩ := ha'.step (hr.sound hσ hx).1 (hy'.sound hσ hy).1 hm
    exact ⟨y'', hy'.trans hy'', ha''⟩

end Alike

/-! ### What threads can rely on -/

/-- **One executor for each thread**: a thread has a current core exactly if an object that it has
made owns one, which is then this core and the only one. -/
def OneEach (x : Quarters K) : Prop :=
  ∀ i, (∀ c, x.threads.current.get? i = some c ↔ x.Holds i c) ∧
    ∀ name name' c c', x.Owns i name c → x.Owns i name' c' → name = name' ∧ c = c'

/-- **A thread spawns on its own core**, or nowhere. -/
structure SpawnsHere (x : Quarters K) (total : Nat) : Prop where
  /-- A thread with a core spawns on it, under an id that is new as long as there are such. -/
  here : ∀ {i c}, x.threads.current.get? i = some c → ∃ a, x.threads.cores.get? c = some a ∧
    (total < UInt64.size → a.tasks.contains a.nextId = false) ∧
    ∀ tag t, ((x.onThread i tag).spawnFree t).1 = .ok a.nextId ∧
      (x.onThread i tag).Spawned ((x.onThread i tag).spawnFree t).2 c a t
  /-- A thread without one is told so. The task is destroyed, and nothing else happens. -/
  nowhere : ∀ {i}, x.threads.current.get? i = none → ∀ tag t, (x.onThread i tag).spawnFree t =
    (.error Threads.noExecutor,
      { x.onThread i tag with world := t.drop (x.onThread i tag).world })

/-- **What fails leaves no trace.** -/
structure FailsClean (x : Quarters K) : Prop where
  /-- A thread with a core is refused another executor. -/
  second : ∀ {i c}, x.threads.current.get? i = some c → ∀ tag name,
    (x.onThread i tag).construct name = (.error Threads.secondExecutor, x.onThread i tag)
  /-- It is refused an initialization, too. -/
  occupied : ∀ {i c}, x.threads.current.get? i = some c → ∀ tag name refusal,
    (x.onThread i tag).initUnless refusal name =
      (.error Threads.secondExecutor, x.onThread i tag)
  /-- A second initialization fails. -/
  again : x.threads.initialized = true → ∀ i tag name refusal, x.threads.objects.get? name = none →
    ∃ e, ((x.onThread i tag).initUnless refusal name).1 = .error e
  /-- An initialization that fails leaves everything as it is. -/
  untouched : ∀ {i tag name refusal e p}, x.threads.objects.get? name = none →
    (x.onThread i tag).initUnless refusal name = (.error e, p) → (x.onThread i tag).Untouched p

/-- **One runtime for all**: one initialization has succeeded if the runtime is initialized, and
else none has; and from then on the reactor is the one that it is. -/
def OneRuntime (σ : Surroundings (World K) Task Value) (h : List (Event K)) (x : Quarters K) :
    Prop :=
  (h.filter Event.Starts).length = (if x.threads.initialized then 1 else 0) ∧
    ∀ h' x', Run σ x h' x' → x.SameRuntime x'

/-- **Nobody can tell that an object has been moved**: what can be told from then on is what could
have been told without it. -/
def MovesUnseen (σ : Surroundings (World K) Task Value) (x : Quarters K) : Prop :=
  ∀ i source target o, x.threads.objects.get? source = some o →
    x.threads.objects.get? target = none → x.maker source = i →
    (∀ h x', Run σ x h x' → ∃ y', Run σ (x.moved i source target) h y' ∧ x'.Alike y') ∧
      ∀ h y', Run σ (x.moved i source target) h y' → ∃ x', Run σ x h x' ∧ y'.Alike x'

omit [Kernel K] in
theorem Sound.oneEach (hx : x.Sound) : x.OneEach := by
  intro i
  refine ⟨fun c ↦ hx.current, fun name name' c c' h h' ↦ ?_⟩
  obtain rfl := hx.alone h h'
  exact ⟨rfl, Option.some.inj (h.2.symm.trans h'.2)⟩

theorem Sound.spawnsHere (hx : x.Sound) {total : Nat} (hc : x.Counted total) :
    x.SpawnsHere total where
  here {i c} hi := by
    obtain ⟨a, ha⟩ := hx.core (hx.current.1 hi)
    refine ⟨a, ha, fun hlt ↦ ?_, fun tag t ↦ ?_⟩
    · obtain ⟨count, hle, h⟩ := hc ha
      obtain ⟨hnext, hplaces, -⟩ := h (.inl rfl)
      have hnew := notMem_firstIds (Nat.lt_of_le_of_lt hle hlt)
      rw [← hnext] at hnew
      refine Bool.eq_false_iff.2 fun hcontains ↦ hnew (hplaces _ ?_)
      exact List.mem_append.2 (.inl (Table.mem_keys_iff.2 hcontains))
    · rw [Threads.spawnFree, show (x.onThread i tag).currentCore = some c from hi]
      exact Threads.spawnOn_spec (p := x.onThread i tag) ha t
  nowhere {i} hi tag t := by
    rw [Threads.spawnFree, show (x.onThread i tag).currentCore = none from hi]

theorem Sound.failsClean (hx : x.Sound) : x.FailsClean where
  second {i c} hi tag name := Threads.construct_of_some (p := x.onThread i tag) hi name
  occupied {i c} hi tag name refusal := by
    rw [Threads.initUnless, Threads.construct_of_some (p := x.onThread i tag) hi]
  again hi i tag name refusal hn := by
    rcases Threads.initUnless_cases (p := x.onThread i tag) refusal hn (hx.fresh (Nat.le_refl _))
      with ⟨c, -, h⟩ | ⟨-, ⟨e, p', h, -⟩ | ⟨hnot, -⟩⟩
    · exact ⟨_, by rw [h]⟩
    · exact ⟨e, by rw [h]⟩
    · cases hi.symm.trans hnot
  untouched {i tag name refusal e p} hn h := by
    rcases Threads.initUnless_cases (p := x.onThread i tag) refusal hn (hx.fresh (Nat.le_refl _))
      with ⟨c, -, h'⟩ | ⟨-, ⟨e, p', h', hu⟩ | ⟨-, s, reactor, h'⟩⟩
    · cases h.symm.trans h'
      exact .refl _
    · cases h.symm.trans h'
      exact hu
    · cases h.symm.trans h'

theorem Sound.movesUnseen (hσ : σ.Steady World.reactorIdentity) (hx : x.Sound) :
    x.MovesUnseen σ := by
  intro i source target o hs ht hm
  have ha : x.Alike (x.moved i source target) := ⟨rfl, rfl⟩
  have hy := hx.move hs ht hm
  exact ⟨fun h x' hr ↦ ha.run hσ hx hy hr, fun h y' hr ↦ ha.symm.run hσ hy hx hr⟩

/-- **One executor for each thread, one runtime for all**: in a program that has just begun, after
any steps of any threads, each thread has a core exactly while one of its objects owns one and
spawns there, what fails leaves no trace, at most one initialization has succeeded and the reactor
stays the one that it is, and nobody can tell that objects have been moved. -/
theorem Run.one_each (hσ : σ.Steady World.reactorIdentity) (hf : x.Fresh) (hr : Run σ x h x') :
    x'.OneEach ∧ x'.SpawnsHere (issued h) ∧ x'.FailsClean ∧ x'.OneRuntime σ h ∧
      x'.MovesUnseen σ := by
  obtain ⟨hs, -, hcount⟩ := hr.sound hσ hf.sound
  rw [hf.initialized] at hcount
  exact ⟨hs.oneEach, hs.spawnsHere (hr.counted hσ hf), hs.failsClean,
    ⟨hcount, fun h' x' hr' ↦ (hr'.sound hσ hs).2.1⟩, hs.movesUnseen hσ⟩

/-- A program on a host that has just begun. -/
def begun : Quarters Host where
  threads := { world := { kernel := default } }

theorem fresh_begun : begun.Fresh where
  objects := rfl
  current := rfl
  cores := rfl
  initialized := rfl
  errands _ := rfl

/-- The runtime is initialized, and then the object is moved: the thread spawns on the core that the
new object owns, under a new id, and an initialization on another thread fails. -/
theorem one_each_moved : ∃ x h, Run World.serving begun h x ∧
    (h.filter Event.Starts).length = 1 ∧ x.Owns 0 [98] 0 ∧
    (∃ a, x.threads.cores.get? 0 = some a ∧ a.tasks.contains a.nextId = false ∧ ∀ tag t,
      (x.onThread 0 tag).Spawned ((x.onThread 0 tag).spawnFree t).2 0 a t) ∧
    ∀ tag refusal, ∃ e, ((x.onThread 1 tag).initUnless refusal [99]).1 = .error e := by
  have hinit : Run World.serving begun _ _ := .step .refl (.init 0 [] [97] none rfl rfl)
  have hmoved := hinit.step (.move 0 [97] [98] rfl rfl rfl rfl)
  obtain ⟨hone, hspawns, hclean, hruntime, -⟩ := hmoved.one_each World.steady_serving fresh_begun
  obtain ⟨a, ha, hnew, hspawned⟩ := hspawns.here (((hone 0).1 0).2 ⟨[98], rfl, rfl⟩)
  exact ⟨_, _, hmoved, hruntime.1.trans rfl, ⟨rfl, rfl⟩,
    ⟨a, ha, hnew (by decide), fun tag t ↦ (hspawned tag t).2⟩,
    fun tag refusal ↦ hclean.again rfl 1 tag [99] refusal rfl⟩

end Quarters

end TaskRuntime
