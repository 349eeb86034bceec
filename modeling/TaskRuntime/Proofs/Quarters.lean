import TaskRuntime.Proofs.Fleet
import TaskRuntime.Proofs.Steadiness

/-!
# One executor for each thread, one runtime for all

Any number of threads make executors, move the objects that own them, destroy them, spawn tasks, run
tasks to completion and initialize the runtime (`Quarters.Move`). The runs to completion take turns
step by step with whatever the other threads do. An object is used and destroyed by the thread that
has made it, and left alone by it while a task is run to completion on its executor.

## Who owns what

A thread has a current core exactly while one of the objects that it has made owns a core, and then
it is this core (`Sound.current`). Three operations change owners and current cores, and each has
one lemma: making an executor (`Sound.construct`), moving an object (`Sound.move`) and destroying
one (`Sound.destroy`). An initialization is the first of these, undone by the third if it fails
(`Threads.initUnless_cases`). All other steps leave owners and current cores as they are
(`Sound.kept`), so `Sound` holds at each moment (`Sound.step`).
-/

namespace TaskRuntime

variable {K : Type}

/-! ### A loop that cannot be launched -/

/-- Destroys a reactor whose loop could not be launched. It is marked as running, so its end is
announced, but there is no loop to wait for. -/
def Reactor.scrap [Kernel K] (r : Reactor) (s : System K) : System K :=
  ({ r with running := false }.destroy ((r.notify s).note .info (Bytes.utf8 "Reactor: Stopped"))).2

namespace Threads

variable [Kernel K]

/-- Starts the reactor of the runtime, unless there is one; its loop may be refused. -/
def startRuntimeUnless (refusal : Option Failure) (p : Threads K) :
    Except Failure Unit × Threads K :=
  match refusal with
  | none => p.startRuntime
  | some x =>
    if p.initialized then (.error secondRuntime, p)
    else
      let (capacity, e) := p.world.toEnvironment.setting Config.eventCapacity
      match Reactor.create capacity e.toSystem with
      | (.error x, s) => (.error x, { p with world := { p.world with toSystem := s } })
      | (.ok reactor, s) =>
        (.error x, { p with world := { p.world with toSystem := reactor.scrap s } })

/-- **Initializes the runtime**, where the launch of the loop may be refused. -/
def initUnless (refusal : Option Failure) (p : Threads K) (name : Bytes) :
    Except Failure Unit × Threads K :=
  match p.construct name with
  | (.error x, p) => (.error x, p)
  | (.ok (), p) =>
    match p.startRuntimeUnless refusal with
    | (.error x, p) => (.error x, p.destroy name)
    | (.ok (), p) => (.ok (), p)

/-- If nothing is refused, the runtime is initialized as ever. -/
theorem initUnless_none (p : Threads K) (name : Bytes) : p.initUnless none name = p.init name := rfl

end Threads

/-! ### What the operations do -/

/-- What an executor is made with is nothing that there has been. -/
theorem Signals.queue_equip {s : Signals} (thread : ThreadId) {q : QueueRef}
    (hq : q.index < s.queues.length) : (s.equip thread).2.queue q = s.queue q := by
  rw [queue, queue, queues_equip, List.getD_eq_getElem?_getD, List.getD_eq_getElem?_getD,
    List.getElem?_append_left hq]

namespace Threads

variable {p p' : Threads K} {name : Bytes} {c : CoreId}

/-- **A failed operation leaves everything as it is**: executors, their tasks and ready queues, who
owns and who has them, the stage, and the reactor. Only kernel and log may have changed. -/
structure Untouched (p p' : Threads K) : Prop where
  /-- Each thread has the core that it had. -/
  current : ∀ i, p'.current.get? i = p.current.get? i
  /-- Each object owns the core that it owned. -/
  objects : ∀ name, p'.objects.get? name = p.objects.get? name
  /-- Each core is what it was, with its tasks. -/
  cores : ∀ c, p'.cores.get? c = p.cores.get? c
  /-- Each ready queue holds the ids that it held. -/
  queues : ∀ q : QueueRef, q.index < p.signals.queues.length →
    p'.signals.queue q = p.signals.queue q
  /-- No ready queue disappears. -/
  length : p.signals.queues.length ≤ p'.signals.queues.length
  /-- Cores are not counted again. -/
  nextCore : p.nextCore ≤ p'.nextCore
  /-- The reactor is what it was. -/
  reactor : p'.world.reactor = p.world.reactor
  /-- So is the stage. -/
  stage : p'.world.stage = p.world.stage
  /-- The runtime is initialized if it was. -/
  initialized : p'.initialized = p.initialized

theorem Untouched.refl (p : Threads K) : p.Untouched p where
  current _ := rfl
  objects _ := rfl
  cores _ := rfl
  queues _ _ := rfl
  length := Nat.le_refl _
  nextCore := Nat.le_refl _
  reactor := rfl
  stage := rfl
  initialized := rfl

/-- The threads after an executor has been made. -/
def housed (p : Threads K) (name : Bytes) : Threads K :=
  let (logParking, world) := p.world.onEnvironment (·.setting Config.logParking)
  { p with
    world, signals := (p.signals.equip p.thread).2
    cores := p.cores.insert p.nextCore (.made (p.signals.equip p.thread).1 logParking)
    objects := p.objects.insert name (some p.nextCore)
    current := p.current.insert p.thread p.nextCore
    nextCore := p.nextCore + 1 }

/-- Without a core, a thread gets an executor. -/
theorem construct_of_none (h : p.currentCore = none) (name : Bytes) :
    p.construct name = (.ok (), p.housed name) := by
  rw [construct, h]
  rfl

/-- **With a core, it is refused another one**, and nothing happens. -/
theorem construct_of_some (h : p.currentCore = some c) (name : Bytes) :
    p.construct name = (.error secondExecutor, p) := by rw [construct, h]

section

variable [Kernel K]

/-- An object that owns nothing is destroyed, and nothing else. -/
theorem destroy_of_none (h : p.coreOf name = none) :
    p.destroy name = { p with objects := p.objects.erase name } := by rw [destroy, h]

/-- An object that owns the current core is destroyed with its core and its tasks. -/
theorem destroy_of_some {a : Executor Task} (h : p.coreOf name = some c)
    (ha : p.cores.get? c = some a) (hc : p.currentCore = some c) :
    p.destroy name = { p with
      world := a.tasks.values.foldl (fun w t ↦ t.drop w) p.world
      objects := p.objects.erase name
      current := p.current.erase p.thread
      cores := p.cores.erase c } := by
  rw [destroy, h]
  dsimp only
  rw [if_pos (show Threads.currentCore { p with objects := p.objects.erase name } = some c from hc),
    discard, ha]

/-- A runtime is not started twice. -/
theorem startRuntimeUnless_again (refusal : Option Failure) (h : p.initialized = true) :
    p.startRuntimeUnless refusal = (.error secondRuntime, p) := by
  cases refusal <;> simp [startRuntimeUnless, startRuntime, h]

/-- **A runtime that does not start** changes the system, and nothing else; one that starts is the
first. -/
theorem startRuntimeUnless_cases (refusal : Option Failure) (p : Threads K) :
    (∃ e s, p.startRuntimeUnless refusal =
      (.error e, { p with world := { p.world with toSystem := s } })) ∨
    p.initialized = false ∧ ∃ s reactor, p.startRuntimeUnless refusal =
      (.ok (),
        { p with world := { p.world with toSystem := s, reactor }, initialized := true }) := by
  by_cases hi : p.initialized = true
  · exact .inl ⟨_, p.world.toSystem, startRuntimeUnless_again refusal hi⟩
  cases refusal with
  | none =>
    rw [startRuntimeUnless, startRuntime, if_neg hi]
    dsimp only
    rcases Reactor.create (p.world.toEnvironment.setting Config.eventCapacity).1
      (p.world.toEnvironment.setting Config.eventCapacity).2.toSystem with ⟨x | reactor, s⟩
    · exact .inl ⟨x, s, rfl⟩
    · dsimp only
      rcases reactor.start s with ⟨x | u, reactor', s'⟩
      · exact .inl ⟨x, _, rfl⟩
      · exact .inr ⟨Bool.eq_false_iff.2 hi, s', reactor', rfl⟩
  | some x =>
    rw [startRuntimeUnless, if_neg hi]
    dsimp only
    rcases Reactor.create (p.world.toEnvironment.setting Config.eventCapacity).1
      (p.world.toEnvironment.setting Config.eventCapacity).2.toSystem with ⟨y | reactor, s⟩
    · exact .inl ⟨y, s, rfl⟩
    · exact .inl ⟨x, _, rfl⟩

/-- An executor that has just been made and is destroyed leaves no trace. -/
theorem untouched_destroy (hname : p.objects.get? name = none) (hc : p.currentCore = none)
    (hfresh : p.cores.get? p.nextCore = none) (s : System K) :
    p.Untouched (destroy { p.housed name with
      world := { (p.housed name).world with toSystem := s } } name) := by
  have howned : coreOf { p.housed name with
      world := { (p.housed name).world with toSystem := s } } name = some p.nextCore := by
    simp [coreOf, housed]
  rw [destroy_of_some (a := .made (p.signals.equip p.thread).1 _) howned (by simp [housed]; rfl)
    (by simp [currentCore, housed])]
  constructor
  case current =>
    intro i
    by_cases hi : p.thread = i
    · subst hi
      simp [housed]
      exact hc.symm
    · simp [housed, hi]
  case objects =>
    intro n
    by_cases hn : name = n
    · subst hn
      simp [housed, hname]
    · simp [housed, hn]
  case cores =>
    intro c
    by_cases hcc : p.nextCore = c
    · subst hcc
      simp [housed, hfresh]
    · simp [housed, hcc]
  case queues =>
    intro q hq
    exact Signals.queue_equip p.thread hq
  case length =>
    show _ ≤ (p.signals.equip p.thread).2.queues.length
    rw [Signals.queues_equip, List.length_append]
    exact Nat.le_add_right _ _
  case nextCore => exact Nat.le_succ _
  case reactor => rfl
  case stage => rfl
  case initialized => rfl

/-- **How an initialization goes**: it is refused to a thread with a core, it fails and leaves no
trace, or it makes an executor and starts the runtime for the first time. -/
theorem initUnless_cases (refusal : Option Failure) (hname : p.objects.get? name = none)
    (hfresh : p.cores.get? p.nextCore = none) :
    (∃ c, p.currentCore = some c ∧ p.initUnless refusal name = (.error secondExecutor, p)) ∨
    p.currentCore = none ∧
      ((∃ e p', p.initUnless refusal name = (.error e, p') ∧ p.Untouched p') ∨
        p.initialized = false ∧ ∃ s reactor, p.initUnless refusal name =
          (.ok (), { p.housed name with
            world := { (p.housed name).world with toSystem := s, reactor }
            initialized := true })) := by
  cases hc : p.currentCore with
  | some c => exact .inl ⟨c, rfl, by rw [initUnless, construct_of_some hc]⟩
  | none =>
    refine .inr ⟨rfl, ?_⟩
    rw [initUnless, construct_of_none hc]
    dsimp only
    rcases startRuntimeUnless_cases refusal (p.housed name) with
      ⟨e, s, hstart⟩ | ⟨hi, s, reactor, hstart⟩
    · rw [hstart]
      exact .inl ⟨e, _, rfl, untouched_destroy hname hc hfresh s⟩
    · rw [hstart]
      exact .inr ⟨hi, s, reactor, rfl⟩

/-- **A task has been spawned on a core**: it has got the next id, is in the table unless the id was
taken, and is queued. All other executors, and who owns and who has them, are as before. -/
structure Spawned (p p' : Threads K) (c : CoreId) (a : Executor Task) (t : Task) : Prop where
  /-- The task is in the table of the core. -/
  core : p'.cores.get? c = some { a with
    tasks := if a.tasks.contains a.nextId then a.tasks else a.tasks.insert a.nextId t
    nextId := a.nextId + 1
    spawned := a.spawned + 1 }
  /-- Its id is queued on the ready queue of the core. -/
  queued : p'.signals = (p.signals.push a.queue a.nextId).2
  /-- The other cores are as before. -/
  others : ∀ d, d ≠ c → p'.cores.get? d = p.cores.get? d
  /-- The objects are as before. -/
  objects : p'.objects = p.objects
  /-- So are the current cores. -/
  current : p'.current = p.current
  /-- So is the runtime. -/
  initialized : p'.initialized = p.initialized
  /-- No core has been made. -/
  nextCore : p'.nextCore = p.nextCore
  /-- The reactor is the one that it was. -/
  reactor : p'.world.reactorIdentity = p.world.reactorIdentity

/-- A task is spawned on a core. -/
theorem spawnOn_spec {a : Executor Task} (ha : p.cores.get? c = some a) (t : Task) :
    (p.spawnOn c t).1 = .ok a.nextId ∧ p.Spawned (p.spawnOn c t).2 c a t := by
  have hsite : p.site? c = some ⟨a, p.signals, p.world⟩ := by rw [site?, ha]; rfl
  have hsteady := Site.steady_spawn (Task.steady_behaviour (K := K)) ⟨a, p.signals, p.world⟩ t
  rw [spawnOn, hsite]
  refine ⟨rfl, ?_⟩
  constructor
  case core =>
    by_cases h : a.tasks.contains a.nextId = true <;>
      simp [putSite, Site.spawn, Site.enqueue, Site.insert, Site.destroy, Executor.allocate, h]
  case queued =>
    by_cases h : a.tasks.contains a.nextId = true <;>
      simp [putSite, Site.spawn, Site.enqueue, Site.insert, Site.destroy, Executor.allocate, h]
  case others => intro d hd; simp [putSite, Ne.symm hd]
  case reactor => exact hsteady
  all_goals rfl

end

end Threads

/-- No step makes a ready queue disappear. -/
theorem Ensemble.Run.queues_le {W B V : Type} {β : Behaviour W B V} {σ : Surroundings W B V}
    {P : Ensemble W B V → Prop} {s₀ s : Ensemble W B V} {h : List (Note V)}
    (hr : Run β σ P s₀ h s) :
    s₀.machine.site.signals.queues.length ≤ s.machine.site.signals.queues.length := by
  induction hr with
  | refl => exact Nat.le_refl _
  | step _ hs _ ih => exact Nat.le_trans ih hs.move.change.length_le

/-- **A step of a run to completion** leaves an executor its ready queue. -/
theorem Machine.queue_step? {W B V : Type} {β : Behaviour W B V} {σ : Surroundings W B V}
    {m m' : Machine W B V} {n : List (Note V)} (h : m.step? β σ = some (n, m')) :
    m'.site.executor.queue = m.site.executor.queue ∧
      m.site.signals.queues.length ≤ m'.site.signals.queues.length := by
  have hr := run_step? (f := []) h (Nat.le_max_left _ _) (Nat.le_max_right _ _)
  exact ⟨hr.queue_eq, hr.queues_le⟩

/-! ### Quarters -/

/-- A run to completion under way on a core. -/
structure Errand (K : Type) where
  /-- The core. -/
  core : CoreId
  /-- The calls, the active one first. -/
  calls : List (Call (World K) Task Value)

/-- The threads of a program, with what they are doing. -/
structure Quarters (K : Type) where
  /-- All that the threads share. -/
  threads : Threads K
  /-- On which thread the object of a name has been made. -/
  maker : Bytes → ThreadId := fun _ ↦ 0
  /-- The runs to completion that are under way, by thread. -/
  errands : ThreadId → Option (Errand K) := fun _ ↦ none

namespace Quarters

/-- Something that can be told from outside, with the thread that has done it. -/
inductive Event (K : Type)
  /-- An executor has been asked for. -/
  | constructed (i : ThreadId) (r : Except Failure Unit)
  /-- An object that owned a core has been destroyed. -/
  | destroyed (i : ThreadId)
  /-- A task has been spawned on the executor of an object. -/
  | spawned (i : ThreadId) (t : Task) (r : Except Failure TaskId)
  /-- A task has been spawned without an object. -/
  | spawnedFree (i : ThreadId) (t : Task) (r : Except Failure TaskId)
  /-- A run to completion has begun. -/
  | entered (i : ThreadId) (t : Task) (n : List (Note Value))
  /-- A run to completion has made a step. -/
  | stepped (i : ThreadId) (n : List (Note Value))
  /-- An initialization of the runtime has ended; the launch of the loop may have been refused. -/
  | initialized (i : ThreadId) (refusal : Option Failure) (r : Except Failure Unit)
  /-- Others have changed world and signals. -/
  | changed (w : World K) (s : Signals)

/-- An initialization has succeeded. -/
def Event.Starts : Event K → Bool
  | .initialized _ _ (.ok ()) => true
  | _ => false

/-- What a thread with a log tag sees. -/
def onThread (x : Quarters K) (i : ThreadId) (tag : Bytes) : Threads K := x.threads.returnTo i tag

/-- An object of a name is made on a thread. -/
def made (x : Quarters K) (name : Bytes) (i : ThreadId) : Bytes → ThreadId :=
  fun n ↦ if n = name then i else x.maker n

/-- A thread begins, goes on with or ends a run to completion. -/
def sent (x : Quarters K) (i : ThreadId) (e : Option (Errand K)) : ThreadId → Option (Errand K) :=
  fun j ↦ if j = i then e else x.errands j

/-- An object that has been made on a thread owns a core. -/
def Owns (x : Quarters K) (i : ThreadId) (name : Bytes) (c : CoreId) : Prop :=
  x.maker name = i ∧ x.threads.coreOf name = some c

/-- One of the objects that have been made on a thread owns a core. -/
def Holds (x : Quarters K) (i : ThreadId) (c : CoreId) : Prop := ∃ name, x.Owns i name c

section

variable [Kernel K]

/-- **One step of a thread**, or of others. Names of new objects are free. -/
inductive Move (σ : Surroundings (World K) Task Value) :
    Quarters K → List (Event K) → Quarters K → Prop
  /-- An executor is asked for. -/
  | construct {x} (i : ThreadId) (tag name : Bytes) {r p}
      (hn : x.threads.objects.get? name = none) (h : (x.onThread i tag).construct name = (r, p)) :
      Move σ x [.constructed i r] { x with threads := p, maker := x.made name i }
  /-- An object is made from another one. -/
  | move {x} (i : ThreadId) (source target : Bytes) {o}
      (hs : x.threads.objects.get? source = some o) (ht : x.threads.objects.get? target = none)
      (hm : x.maker source = i) (hi : x.errands i = none) :
      Move σ x [] { x with threads := x.threads.move source target, maker := x.made target i }
  /-- An object that owns a core is destroyed. -/
  | destroy {x} (i : ThreadId) (tag name : Bytes) {c} (ho : x.Owns i name c)
      (hi : x.errands i = none) :
      Move σ x [.destroyed i] { x with threads := (x.onThread i tag).destroy name }
  /-- An object that another one has been made from is destroyed. -/
  | shed {x} (name : Bytes) (ho : x.threads.objects.get? name = some none) :
      Move σ x [] { x with threads := x.threads.destroy name }
  /-- A task is spawned on the executor of an object. -/
  | spawn {x} (i : ThreadId) (tag name : Bytes) (t : Task) {c r p} (ho : x.Owns i name c)
      (h : (x.onThread i tag).spawn name t = (r, p)) :
      Move σ x [.spawned i t r] { x with threads := p }
  /-- A task is spawned without an object. -/
  | spawnFree {x} (i : ThreadId) (tag : Bytes) (t : Task) {r p}
      (h : (x.onThread i tag).spawnFree t = (r, p)) :
      Move σ x [.spawnedFree i t r] { x with threads := p }
  /-- A run to completion begins on the executor of an object. -/
  | enter {x} (i : ThreadId) (tag name : Bytes) (t : Task) {c s n m} (ho : x.Owns i name c)
      (hi : x.errands i = none) (hs : (x.onThread i tag).site? c = some s)
      (h : Machine.enter Task.behaviour s [] t = (n, m)) :
      Move σ x [.entered i t n]
        { x with threads := (x.onThread i tag).putSite c m.site
                 errands := x.sent i (some ⟨c, m.calls⟩) }
  /-- A run to completion makes a step. -/
  | step {x} (i : ThreadId) (tag : Bytes) {e s n m} (he : x.errands i = some e)
      (hs : (x.onThread i tag).site? e.core = some s)
      (h : Machine.step? Task.behaviour σ ⟨s, e.calls, none⟩ = some (n, m)) :
      Move σ x [.stepped i n]
        { x with threads := (x.onThread i tag).putSite e.core m.site
                 errands := x.sent i
                   (match m.calls with | [] => none | calls => some ⟨e.core, calls⟩) }
  /-- The runtime is to be initialized; the launch of the loop may be refused. -/
  | init {x} (i : ThreadId) (tag name : Bytes) (refusal : Option Failure) {r p}
      (hn : x.threads.objects.get? name = none)
      (h : (x.onThread i tag).initUnless refusal name = (r, p)) :
      Move σ x [.initialized i refusal r] { x with threads := p, maker := x.made name i }
  /-- Others change world and signals. The reactor stays the one that it is. -/
  | others {x} (w : World K) (s : Signals)
      (hw : w.reactorIdentity = x.threads.world.reactorIdentity)
      (hs : x.threads.signals.queues.length ≤ s.queues.length) :
      Move σ x [.changed w s] { x with threads := { x.threads with world := w, signals := s } }

/-- Any number of steps, with what is told of them. -/
inductive Run (σ : Surroundings (World K) Task Value) (x₀ : Quarters K) :
    List (Event K) → Quarters K → Prop
  /-- No step. -/
  | refl : Run σ x₀ [] x₀
  /-- One more step. -/
  | step {h x n x'} (hr : Run σ x₀ h x) (hm : Move σ x n x') : Run σ x₀ (h ++ n) x'

end

/-- **A program that has just begun**: no executor has been made, and no runtime initialized. -/
structure Fresh (x : Quarters K) : Prop where
  /-- There are no objects. -/
  objects : x.threads.objects = .empty
  /-- No thread has a core. -/
  current : x.threads.current = .empty
  /-- There are no cores. -/
  cores : x.threads.cores = .empty
  /-- The runtime has not been initialized. -/
  initialized : x.threads.initialized = false
  /-- No thread runs a task. -/
  errands : ∀ i, x.errands i = none

/-- **Who owns what**, at each moment. -/
structure Sound (x : Quarters K) : Prop where
  /-- The current core of a thread is the one that an object of the thread owns. -/
  current : ∀ {i c}, x.threads.current.get? i = some c ↔ x.Holds i c
  /-- A thread has made one object at most that owns a core. -/
  alone : ∀ {i name name' c c'}, x.Owns i name c → x.Owns i name' c' → name = name'
  /-- No two objects own the same core. -/
  apart : ∀ {i j name name' c}, x.Owns i name c → x.Owns j name' c → name = name'
  /-- The core that an object owns is there. -/
  core : ∀ {i c}, x.Holds i c → ∃ a, x.threads.cores.get? c = some a
  /-- The next core is new. -/
  fresh : ∀ {c}, x.threads.nextCore ≤ c → x.threads.cores.get? c = none
  /-- The ready queues of the cores are there. -/
  queue : ∀ {c a}, x.threads.cores.get? c = some a →
    a.queue.index < x.threads.signals.queues.length
  /-- No two cores share one. -/
  queues : ∀ {c d a b}, x.threads.cores.get? c = some a → x.threads.cores.get? d = some b →
    a.queue = b.queue → c = d
  /-- A thread that runs a task to completion does so on its core. -/
  errand : ∀ {i e}, x.errands i = some e → x.Holds i e.core
  /-- What it runs leaves the reactor the one that it is. -/
  steady : ∀ {i e}, x.errands i = some e → ∀ c ∈ e.calls, c.doing.Steady World.reactorIdentity

/-! ### What holds at each moment -/

section

variable {x x' : Quarters K} {i : ThreadId} {c : CoreId} {name : Bytes}

/-- Nobody owns anything when a program begins. -/
theorem Fresh.sound (hf : x.Fresh) : x.Sound := by
  have hnot {i c} (h : x.Holds i c) : False := by
    obtain ⟨name, -, hc⟩ := h
    rw [Threads.coreOf, hf.objects] at hc
    cases hc
  have hcore {c a} (h : x.threads.cores.get? c = some a) : False := by
    rw [hf.cores] at h
    cases h
  constructor
  case current =>
    refine iff_of_false (fun h ↦ ?_) hnot
    rw [hf.current] at h
    cases h
  case alone => exact fun h _ ↦ (hnot ⟨_, h⟩).elim
  case apart => exact fun h _ ↦ (hnot ⟨_, h⟩).elim
  case core => exact fun h ↦ (hnot h).elim
  case fresh => exact fun _ ↦ by rw [hf.cores]; rfl
  case queue => exact fun h ↦ (hcore h).elim
  case queues => exact fun h _ ↦ (hcore h).elim
  case errand =>
    intro i e he
    rw [hf.errands] at he
    cases he
  case steady =>
    intro i e he
    rw [hf.errands] at he
    cases he

/-- **Who owns what stays as it is**: objects, current cores, and which cores there are. -/
structure Kept (x x' : Quarters K) : Prop where
  /-- Each object owns what it owned. -/
  objects : ∀ name, x'.threads.coreOf name = x.threads.coreOf name
  /-- The owners have been made where they have been made. -/
  maker : ∀ {name c}, x.threads.coreOf name = some c → x'.maker name = x.maker name
  /-- Each thread has the core that it had. -/
  current : ∀ i, x'.threads.current.get? i = x.threads.current.get? i
  /-- The cores are there that were there, with their ready queues. -/
  cores : ∀ c, (x'.threads.cores.get? c).map (·.queue) = (x.threads.cores.get? c).map (·.queue)
  /-- Cores are not counted again. -/
  nextCore : x.threads.nextCore ≤ x'.threads.nextCore
  /-- No ready queue disappears. -/
  length : x.threads.signals.queues.length ≤ x'.threads.signals.queues.length

theorem Kept.owns_iff (hk : x.Kept x') : x'.Owns i name c ↔ x.Owns i name c := by
  rw [Owns, Owns, hk.objects]
  constructor
  · rintro ⟨hm, hc⟩
    exact ⟨(hk.maker hc).symm.trans hm, hc⟩
  · rintro ⟨hm, hc⟩
    exact ⟨(hk.maker hc).trans hm, hc⟩

theorem Kept.holds_iff (hk : x.Kept x') : x'.Holds i c ↔ x.Holds i c :=
  ⟨fun ⟨name, h⟩ ↦ ⟨name, hk.owns_iff.1 h⟩, fun ⟨name, h⟩ ↦ ⟨name, hk.owns_iff.2 h⟩⟩

theorem Kept.core (hk : x.Kept x') {a : Executor Task} (h : x'.threads.cores.get? c = some a) :
    ∃ b, x.threads.cores.get? c = some b ∧ a.queue = b.queue := by
  have hmap := hk.cores c
  rw [h] at hmap
  obtain ⟨b, hb, hq⟩ := Option.map_eq_some_iff.1 hmap.symm
  exact ⟨b, hb, hq.symm⟩

/-- If who owns what stays as it is, what holds goes on to hold. -/
theorem Sound.kept (hx : x.Sound) (hk : x.Kept x')
    (he : ∀ {i e}, x'.errands i = some e → x.Holds i e.core ∧
      ∀ c ∈ e.calls, c.doing.Steady World.reactorIdentity) : x'.Sound := by
  constructor
  case current =>
    intro i c
    rw [hk.current, hx.current, hk.holds_iff]
  case alone => exact fun h h' ↦ hx.alone (hk.owns_iff.1 h) (hk.owns_iff.1 h')
  case apart => exact fun h h' ↦ hx.apart (hk.owns_iff.1 h) (hk.owns_iff.1 h')
  case core =>
    intro i c h
    obtain ⟨b, hb⟩ := hx.core (hk.holds_iff.1 h)
    have hmap := hk.cores c
    rw [hb] at hmap
    obtain ⟨a, ha, -⟩ := Option.map_eq_some_iff.1 hmap
    exact ⟨a, ha⟩
  case fresh =>
    intro c hc
    cases ha : x'.threads.cores.get? c with
    | none => rfl
    | some a =>
      obtain ⟨b, hb, -⟩ := hk.core ha
      cases hb.symm.trans (hx.fresh (Nat.le_trans hk.nextCore hc))
  case queue =>
    intro c a ha
    obtain ⟨b, hb, hq⟩ := hk.core ha
    rw [hq]
    exact Nat.lt_of_lt_of_le (hx.queue hb) hk.length
  case queues =>
    intro c d a b ha hb hab
    obtain ⟨a', ha', hqa⟩ := hk.core ha
    obtain ⟨b', hb', hqb⟩ := hk.core hb
    exact hx.queues ha' hb' (hqa.symm.trans (hab.trans hqb))
  case errand => exact fun h ↦ hk.holds_iff.2 (he h).1
  case steady => exact fun h ↦ (he h).2

/-! ### Making an executor -/

/-- The quarters after an executor has been made on a thread, and perhaps the runtime has been
initialized. -/
def housed (x : Quarters K) (i : ThreadId) (tag name : Bytes) (w : World K) (b : Bool) :
    Quarters K where
  threads := { (x.onThread i tag).housed name with world := w, initialized := b }
  maker := x.made name i
  errands := x.errands

variable {tag : Bytes} {w : World K} {b : Bool}

theorem owns_housed {j : ThreadId} {n : Bytes} {d : CoreId} :
    (x.housed i tag name w b).Owns j n d ↔
      n = name ∧ j = i ∧ d = x.threads.nextCore ∨ n ≠ name ∧ x.Owns j n d := by
  by_cases hn : n = name
  · subst hn
    simp [Owns, housed, made, Threads.coreOf, Threads.housed, onThread, Threads.returnTo, eq_comm]
  · simp [Owns, housed, made, Threads.coreOf, Threads.housed, onThread, Threads.returnTo, hn,
      Ne.symm hn]

/-- The thread holds the new core, and otherwise nothing has changed. -/
theorem holds_housed (hn : x.threads.objects.get? name = none) {j : ThreadId} {d : CoreId} :
    (x.housed i tag name w b).Holds j d ↔ j = i ∧ d = x.threads.nextCore ∨ x.Holds j d := by
  constructor
  · rintro ⟨n, h⟩
    rcases owns_housed.1 h with ⟨-, h⟩ | ⟨-, h⟩
    · exact .inl h
    · exact .inr ⟨n, h⟩
  · rintro (h | ⟨n, h⟩)
    · exact ⟨name, owns_housed.2 (.inl ⟨rfl, h⟩)⟩
    · refine ⟨n, owns_housed.2 (.inr ⟨?_, h⟩)⟩
      rintro rfl
      have hc := h.2
      rw [Threads.coreOf, hn] at hc
      cases hc

/-- An executor is made on a thread that has none. -/
theorem Sound.construct (hx : x.Sound) (hn : x.threads.objects.get? name = none)
    (hc : x.threads.current.get? i = none) : (x.housed i tag name w b).Sound := by
  have hnew : x.threads.cores.get? x.threads.nextCore = none := hx.fresh (Nat.le_refl _)
  have hnobody {d} (h : x.Holds i d) : False := by
    cases hc.symm.trans (hx.current.2 h)
  have hnext {j} (h : x.Holds j x.threads.nextCore) : False := by
    obtain ⟨a, ha⟩ := hx.core h
    cases hnew.symm.trans ha
  have hlength : (x.housed i tag name w b).threads.signals.queues.length =
      x.threads.signals.queues.length + 1 := by
    show (x.threads.signals.equip i).2.queues.length = _
    rw [Signals.queues_equip, List.length_append]
    rfl
  -- A core is the new one, with a ready queue of its own, or one that there has been.
  have hcores {d a} (h : (x.housed i tag name w b).threads.cores.get? d = some a) :
      d = x.threads.nextCore ∧ a.queue.index = x.threads.signals.queues.length ∨
        x.threads.cores.get? d = some a := by
    rw [show (x.housed i tag name w b).threads.cores = x.threads.cores.insert x.threads.nextCore
      (.made (x.threads.signals.equip i).1 _) from rfl, Table.get?_insert] at h
    split at h
    · next hd =>
      obtain rfl := Option.some.inj h
      exact .inl ⟨hd.symm, Signals.index_equip x.threads.signals i⟩
    · exact .inr h
  constructor
  case current =>
    intro j d
    rw [holds_housed hn, show (x.housed i tag name w b).threads.current =
      x.threads.current.insert i x.threads.nextCore from rfl, Table.get?_insert]
    split
    · next hij =>
      subst hij
      rw [or_iff_left hnobody]
      exact ⟨fun h ↦ ⟨rfl, (Option.some.inj h).symm⟩, fun h ↦ by rw [h.2]⟩
    · next hij =>
      rw [hx.current, or_iff_right fun h ↦ hij h.1.symm]
  case alone =>
    intro j n n' d d' h h'
    rcases owns_housed.1 h with ⟨hn, rfl, -⟩ | ⟨-, hold⟩ <;>
      rcases owns_housed.1 h' with ⟨hn', hj, -⟩ | ⟨-, hold'⟩
    · rw [hn, hn']
    · exact (hnobody ⟨_, hold'⟩).elim
    · exact (hnobody ⟨_, hj ▸ hold⟩).elim
    · exact hx.alone hold hold'
  case apart =>
    intro j k n n' d h h'
    rcases owns_housed.1 h with ⟨hn, -, rfl⟩ | ⟨-, hold⟩ <;>
      rcases owns_housed.1 h' with ⟨hn', -, hd⟩ | ⟨-, hold'⟩
    · rw [hn, hn']
    · exact (hnext ⟨_, hold'⟩).elim
    · exact (hnext ⟨_, hd ▸ hold⟩).elim
    · exact hx.apart hold hold'
  case core =>
    intro j d h
    rw [show (x.housed i tag name w b).threads.cores = x.threads.cores.insert x.threads.nextCore
      (.made (x.threads.signals.equip i).1 _) from rfl, Table.get?_insert]
    rcases (holds_housed hn).1 h with ⟨-, rfl⟩ | h
    · exact ⟨_, if_pos rfl⟩
    · split
      · exact ⟨_, rfl⟩
      · exact hx.core h
  case fresh =>
    intro d hd
    have hne : x.threads.nextCore ≠ d := Nat.ne_of_lt hd
    rw [show (x.housed i tag name w b).threads.cores = x.threads.cores.insert x.threads.nextCore
      (.made (x.threads.signals.equip i).1 _) from rfl, Table.get?_insert, if_neg hne]
    exact hx.fresh (Nat.le_of_lt hd)
  case queue =>
    intro d a ha
    rw [hlength]
    rcases hcores ha with ⟨-, hq⟩ | ha
    · omega
    · exact Nat.lt_succ_of_lt (hx.queue ha)
  case queues =>
    intro d d' a a' ha ha' hq
    rcases hcores ha with ⟨rfl, hqa⟩ | ha <;> rcases hcores ha' with ⟨rfl, hqb⟩ | ha'
    · rfl
    · have := hx.queue ha'
      rw [← hq, hqa] at this
      exact absurd this (Nat.lt_irrefl _)
    · have := hx.queue ha
      rw [hq, hqb] at this
      exact absurd this (Nat.lt_irrefl _)
    · exact hx.queues ha ha' hq
  case errand => exact fun h ↦ (holds_housed hn).2 (.inr (hx.errand h))
  case steady => exact hx.steady

/-! ### Moving an object -/

/-- The quarters after an object has been made from another one. -/
def moved (x : Quarters K) (i : ThreadId) (source target : Bytes) : Quarters K :=
  { x with threads := x.threads.move source target, maker := x.made target i }

variable {source target : Bytes} {o : Option CoreId}

/-- The new object owns what the old one has owned. -/
theorem owns_moved (hs : x.threads.objects.get? source = some o)
    (ht : x.threads.objects.get? target = none) (hm : x.maker source = i) {j : ThreadId}
    {n : Bytes} {d : CoreId} : (x.moved i source target).Owns j n d ↔
      n = target ∧ x.Owns j source d ∨ n ≠ source ∧ x.Owns j n d := by
  have hne : source ≠ target := by
    rintro rfl
    cases hs.symm.trans ht
  by_cases hn : n = target
  · subst hn
    have hnone : x.threads.coreOf n = none := by rw [Threads.coreOf, ht]; rfl
    simp [Owns, moved, made, Threads.move, Threads.coreOf, hm, ht, eq_comm]
  · by_cases hn' : n = source
    · subst hn'
      simp [Owns, moved, made, Threads.move, Threads.coreOf, hn, Ne.symm hn]
    · simp [Owns, moved, made, Threads.move, Threads.coreOf, hn, Ne.symm hn, hn', Ne.symm hn']

/-- Each thread holds what it has held. -/
theorem holds_moved (hs : x.threads.objects.get? source = some o)
    (ht : x.threads.objects.get? target = none) (hm : x.maker source = i) {j : ThreadId}
    {d : CoreId} : (x.moved i source target).Holds j d ↔ x.Holds j d := by
  constructor
  · rintro ⟨n, h⟩
    rcases (owns_moved hs ht hm).1 h with ⟨-, h⟩ | ⟨-, h⟩
    · exact ⟨_, h⟩
    · exact ⟨_, h⟩
  · rintro ⟨n, h⟩
    by_cases hn : n = source
    · exact ⟨target, (owns_moved hs ht hm).2 (.inl ⟨rfl, hn ▸ h⟩)⟩
    · exact ⟨n, (owns_moved hs ht hm).2 (.inr ⟨hn, h⟩)⟩

/-- **Moving an object** changes the name under which a core is owned, and nothing else. -/
theorem Sound.move (hx : x.Sound) (hs : x.threads.objects.get? source = some o)
    (ht : x.threads.objects.get? target = none) (hm : x.maker source = i) :
    (x.moved i source target).Sound where
  current := by
    intro j d
    rw [holds_moved hs ht hm]
    exact hx.current
  alone := by
    intro j n n' d d' h h'
    rcases (owns_moved hs ht hm).1 h with ⟨hn, hold⟩ | ⟨hn, hold⟩ <;>
      rcases (owns_moved hs ht hm).1 h' with ⟨hn', hold'⟩ | ⟨hn', hold'⟩
    · rw [hn, hn']
    · exact absurd (hx.alone hold' hold) hn'
    · exact absurd (hx.alone hold hold') hn
    · exact hx.alone hold hold'
  apart := by
    intro j k n n' d h h'
    rcases (owns_moved hs ht hm).1 h with ⟨hn, hold⟩ | ⟨hn, hold⟩ <;>
      rcases (owns_moved hs ht hm).1 h' with ⟨hn', hold'⟩ | ⟨hn', hold'⟩
    · rw [hn, hn']
    · exact absurd (hx.apart hold' hold) hn'
    · exact absurd (hx.apart hold hold') hn
    · exact hx.apart hold hold'
  core h := hx.core ((holds_moved hs ht hm).1 h)
  fresh := hx.fresh
  queue := hx.queue
  queues := hx.queues
  errand h := (holds_moved hs ht hm).2 (hx.errand h)
  steady := hx.steady

/-! ### Destroying an object -/

/-- The quarters after an object that owned a core has been destroyed. -/
def vacated (x : Quarters K) (i : ThreadId) (tag name : Bytes) (w : World K) (c : CoreId) :
    Quarters K :=
  { x with
    threads := { x.onThread i tag with
      world := w
      objects := x.threads.objects.erase name
      current := x.threads.current.erase i
      cores := x.threads.cores.erase c } }

theorem owns_vacated {j : ThreadId} {n : Bytes} {d : CoreId} :
    (x.vacated i tag name w c).Owns j n d ↔ n ≠ name ∧ x.Owns j n d := by
  by_cases hn : n = name
  · subst hn
    simp [Owns, vacated, Threads.coreOf]
  · simp [Owns, vacated, Threads.coreOf, hn, Ne.symm hn]

/-- The thread does not hold the core any more, and otherwise nothing has changed. -/
theorem Sound.holds_vacated (hx : x.Sound) (ho : x.Owns i name c) {j : ThreadId} {d : CoreId} :
    (x.vacated i tag name w c).Holds j d ↔ d ≠ c ∧ x.Holds j d := by
  constructor
  · rintro ⟨n, h⟩
    obtain ⟨hn, hold⟩ := owns_vacated.1 h
    refine ⟨fun hd ↦ ?_, n, hold⟩
    rw [hd] at hold
    exact hn (hx.apart hold ho)
  · rintro ⟨hd, n, h⟩
    refine ⟨n, owns_vacated.2 ⟨?_, h⟩⟩
    rintro rfl
    exact hd (Option.some.inj (h.2.symm.trans ho.2))

/-- **Destroying an object that owns a core** leaves its thread without one. -/
theorem Sound.destroy (hx : x.Sound) (ho : x.Owns i name c) (hi : x.errands i = none) :
    (x.vacated i tag name w c).Sound := by
  have hcore {d a} (h : (x.vacated i tag name w c).threads.cores.get? d = some a) :
      d ≠ c ∧ x.threads.cores.get? d = some a := by
    rw [show (x.vacated i tag name w c).threads.cores = x.threads.cores.erase c from rfl,
      Table.get?_erase] at h
    split at h
    · cases h
    · next hd => exact ⟨Ne.symm hd, h⟩
  constructor
  case current =>
    intro j d
    rw [hx.holds_vacated ho, show (x.vacated i tag name w c).threads.current =
      x.threads.current.erase i from rfl, Table.get?_erase]
    split
    · next hij =>
      subst hij
      refine iff_of_false (by simp) fun h ↦ h.1 ?_
      exact Option.some.inj ((hx.current.2 h.2).symm.trans (hx.current.2 ⟨name, ho⟩))
    · next hij =>
      rw [hx.current]
      refine ⟨fun h ↦ ⟨?_, h⟩, fun h ↦ h.2⟩
      rintro rfl
      obtain ⟨n, hn⟩ := h
      have hname := hx.apart hn ho
      subst hname
      exact hij (ho.1.symm.trans hn.1)
  case alone => exact fun h h' ↦ hx.alone (owns_vacated.1 h).2 (owns_vacated.1 h').2
  case apart => exact fun h h' ↦ hx.apart (owns_vacated.1 h).2 (owns_vacated.1 h').2
  case core =>
    intro j d h
    obtain ⟨hd, h⟩ := (hx.holds_vacated ho).1 h
    rw [show (x.vacated i tag name w c).threads.cores = x.threads.cores.erase c from rfl,
      Table.get?_erase, if_neg (Ne.symm hd)]
    exact hx.core h
  case fresh =>
    intro d hd
    rw [show (x.vacated i tag name w c).threads.cores = x.threads.cores.erase c from rfl,
      Table.get?_erase]
    split
    · rfl
    · exact hx.fresh hd
  case queue => exact fun h ↦ hx.queue (hcore h).2
  case queues => exact fun h h' ↦ hx.queues (hcore h).2 (hcore h').2
  case errand =>
    intro j e he
    refine (hx.holds_vacated ho).2 ⟨?_, hx.errand he⟩
    rintro rfl
    obtain ⟨n, hn⟩ := hx.errand he
    have hname := hx.apart hn ho
    subst hname
    rw [← ho.1, hn.1] at hi
    cases hi.symm.trans he
  case steady => exact hx.steady

/-! ### All steps -/

/-- A core that goes on with the same ready queue. -/
theorem kept_putSite {s : Site (World K) Task} {a : Executor Task}
    (ha : x.threads.cores.get? c = some a) (hq : s.executor.queue = a.queue)
    (hl : x.threads.signals.queues.length ≤ s.signals.queues.length)
    (errands : ThreadId → Option (Errand K)) :
    x.Kept { x with threads := (x.onThread i tag).putSite c s, errands } where
  objects _ := rfl
  maker _ := rfl
  current _ := rfl
  cores d := by
    show ((x.threads.cores.insert c s.executor).get? d).map _ = _
    rw [Table.get?_insert]
    split
    · next hd =>
      subst hd
      rw [ha]
      exact congrArg some hq
    · rfl
  nextCore := Nat.le_refl _
  length := hl

/-- A spawned task leaves who owns what as it is. -/
theorem kept_spawned {p : Threads K} {a : Executor Task} {t : Task}
    (ha : x.threads.cores.get? c = some a) (hs : (x.onThread i tag).Spawned p c a t) :
    x.Kept { x with threads := p } where
  objects name := by rw [Threads.coreOf, Threads.coreOf, hs.objects]; rfl
  maker _ := rfl
  current _ := by rw [hs.current]; rfl
  cores d := by
    by_cases hd : d = c
    · subst hd
      rw [hs.core, ha]
      rfl
    · rw [hs.others d hd]
      rfl
  nextCore := Nat.le_of_eq hs.nextCore.symm
  length := by
    rw [hs.queued, Signals.length_queues_push]
    exact Nat.le_refl _

/-- What leaves no trace leaves who owns what as it is. -/
theorem kept_untouched {p : Threads K} (hu : (x.onThread i tag).Untouched p)
    (hn : x.threads.objects.get? name = none) :
    x.Kept { x with threads := p, maker := x.made name i } where
  objects n := by rw [Threads.coreOf, Threads.coreOf, hu.objects]; rfl
  maker {n d} h := by
    refine if_neg ?_
    rintro rfl
    rw [Threads.coreOf, hn] at h
    cases h
  current := hu.current
  cores d := by rw [hu.cores]; rfl
  nextCore := hu.nextCore
  length := hu.length

/-- A thread has made a new errand of its own. -/
theorem Sound.sent (hx : x.Sound) {e : Option (Errand K)}
    (he : ∀ f, e = some f → x.Holds i f.core ∧
      ∀ c ∈ f.calls, c.doing.Steady World.reactorIdentity) {j : ThreadId} {f : Errand K}
    (hf : x.sent i e j = some f) :
    x.Holds j f.core ∧ ∀ c ∈ f.calls, c.doing.Steady World.reactorIdentity := by
  rw [Quarters.sent] at hf
  split at hf
  · next hj =>
    subst hj
    exact he f hf
  · exact ⟨hx.errand hf, hx.steady hf⟩

variable [Kernel K] {σ : Surroundings (World K) Task Value} {n : List (Event K)}

/-- The reactor of an initialized runtime stays the one that it is. -/
def SameRuntime (x x' : Quarters K) : Prop :=
  x.threads.initialized = true → x'.threads.initialized = true ∧
    x'.threads.world.reactorIdentity = x.threads.world.reactorIdentity

theorem identity_drops (tasks : List Task) (w : World K) :
    (tasks.foldl (fun w t ↦ t.drop w) w).reactorIdentity = w.reactorIdentity := by
  induction tasks generalizing w with
  | nil => rfl
  | cons t rest ih => exact (ih _).trans (t.identity_drop w)

/-- **What a step does**: what holds goes on to hold, the runtime stays what it is, and it is
initialized by an initialization that succeeds. -/
theorem Sound.step (hσ : σ.Steady World.reactorIdentity) (hx : x.Sound) (hm : Move σ x n x') :
    x'.Sound ∧ x.SameRuntime x' ∧
      (n.filter Event.Starts).length + (if x.threads.initialized then 1 else 0) =
        if x'.threads.initialized then 1 else 0 := by
  -- A step that has nothing to do with the runtime.
  have hquiet {x' : Quarters K} {k : Event K} (hs : x'.Sound) (hk : Event.Starts k = false)
      (hi : x'.threads.initialized = x.threads.initialized)
      (hr : x'.threads.world.reactorIdentity = x.threads.world.reactorIdentity) :
      x'.Sound ∧ x.SameRuntime x' ∧
        ([k].filter Event.Starts).length + (if x.threads.initialized then 1 else 0) =
          if x'.threads.initialized then 1 else 0 := by
    refine ⟨hs, fun h ↦ ⟨hi.trans h, hr⟩, ?_⟩
    rw [List.filter_cons_of_neg (by simp [hk]), hi]
    exact Nat.zero_add _
  -- What is under way goes on as it is.
  have hsame {i e} (he : x.errands i = some e) : x.Holds i e.core ∧
      ∀ c ∈ e.calls, c.doing.Steady World.reactorIdentity := ⟨hx.errand he, hx.steady he⟩
  cases hm with
  | @construct i tag name r p hn h =>
    cases hc : x.threads.current.get? i with
    | none =>
      rw [Threads.construct_of_none (p := x.onThread i tag) hc] at h
      cases h
      exact hquiet (hx.construct (w := ((x.onThread i tag).housed name).world) hn hc) rfl rfl rfl
    | some c =>
      rw [Threads.construct_of_some (p := x.onThread i tag) hc] at h
      cases h
      exact hquiet (hx.kept (kept_untouched (.refl _) hn) hsame) rfl rfl rfl
  | @move i source target o hs ht hm hi =>
    exact ⟨hx.move hs ht hm, fun h ↦ ⟨h, rfl⟩, Nat.zero_add _⟩
  | @destroy i tag name c ho hi =>
    obtain ⟨a, ha⟩ := hx.core ⟨name, ho⟩
    have hc : x.threads.current.get? i = some c := hx.current.2 ⟨name, ho⟩
    rw [Threads.destroy_of_some (p := x.onThread i tag) ho.2 ha hc]
    exact hquiet (hx.destroy ho hi) rfl rfl (identity_drops _ _)
  | @shed name ho =>
    have hnone : x.threads.coreOf name = none := by rw [Threads.coreOf, ho]; rfl
    rw [Threads.destroy_of_none hnone]
    have hk : x.Kept { x with threads :=
        { x.threads with objects := x.threads.objects.erase name } } := by
      refine ⟨fun n ↦ ?_, fun _ ↦ rfl, fun _ ↦ rfl, fun _ ↦ rfl, Nat.le_refl _, Nat.le_refl _⟩
      by_cases hn : name = n
      · subst hn
        simp [Threads.coreOf, ho]
      · simp [Threads.coreOf, hn]
    exact ⟨hx.kept hk hsame, fun h ↦ ⟨h, rfl⟩, Nat.zero_add _⟩
  | @spawn i tag name t c r p ho h =>
    obtain ⟨a, ha⟩ := hx.core ⟨name, ho⟩
    have hspawn : (x.onThread i tag).spawn name t = (x.onThread i tag).spawnOn c t := by
      rw [Threads.spawn, show (x.onThread i tag).coreOf name = some c from ho.2]
    obtain ⟨-, hs⟩ := Threads.spawnOn_spec (p := x.onThread i tag) ha t
    rw [← hspawn, h] at hs
    exact hquiet (hx.kept (kept_spawned ha hs) hsame) rfl hs.initialized hs.reactor
  | @spawnFree i tag t r p h =>
    cases hc : x.threads.current.get? i with
    | none =>
      rw [Threads.spawnFree, show (x.onThread i tag).currentCore = none from hc] at h
      cases h
      have hk : x.Kept { x with threads :=
          { x.onThread i tag with world := t.drop (x.onThread i tag).world } } :=
        ⟨fun _ ↦ rfl, fun _ ↦ rfl, fun _ ↦ rfl, fun _ ↦ rfl, Nat.le_refl _, Nat.le_refl _⟩
      exact hquiet (hx.kept hk hsame) rfl rfl (t.identity_drop _)
    | some c =>
      obtain ⟨a, ha⟩ := hx.core (hx.current.1 hc)
      have hspawn : (x.onThread i tag).spawnFree t = (x.onThread i tag).spawnOn c t := by
        rw [Threads.spawnFree, show (x.onThread i tag).currentCore = some c from hc]
      obtain ⟨-, hs⟩ := Threads.spawnOn_spec (p := x.onThread i tag) ha t
      rw [← hspawn, h] at hs
      exact hquiet (hx.kept (kept_spawned ha hs) hsame) rfl hs.initialized hs.reactor
  | @enter i tag name t c s n m ho hi hs h =>
    obtain ⟨a, ha, rfl⟩ := Option.map_eq_some_iff.1 hs
    cases h
    refine hquiet (hx.kept (kept_putSite ha rfl (Nat.le_refl _) _) fun hf ↦ hx.sent ?_ hf)
      rfl rfl rfl
    rintro f ⟨⟩
    exact ⟨⟨name, ho⟩, List.forall_mem_cons.2 ⟨Task.steady_behaviour.poll t _, (by simp)⟩⟩
  | @step i tag e s n m he hs h =>
    obtain ⟨a, ha, rfl⟩ := Option.map_eq_some_iff.1 hs
    obtain ⟨hworld, hcalls⟩ := Machine.steady_step? Task.steady_behaviour hσ (hx.steady he) h
    obtain ⟨hq, hl⟩ := Machine.queue_step? h
    refine hquiet (hx.kept (kept_putSite ha hq hl _) fun hf ↦ hx.sent ?_ hf) rfl rfl hworld
    have hcore : x.Holds i e.core := hx.errand he
    intro f hf
    split at hf
    · cases hf
    · cases hf
      exact ⟨hcore, hcalls⟩
  | @init i tag name refusal r p hn h =>
    have hfresh : (x.onThread i tag).cores.get? (x.onThread i tag).nextCore = none :=
      hx.fresh (Nat.le_refl _)
    rcases Threads.initUnless_cases (p := x.onThread i tag) refusal hn hfresh with
      ⟨c, hc, hinit⟩ | ⟨hc, ⟨e, p', hinit, hu⟩ | ⟨hi, s, reactor, hinit⟩⟩
    · rw [hinit] at h
      cases h
      exact hquiet (hx.kept (kept_untouched (.refl _) hn) hsame) rfl rfl rfl
    · rw [hinit] at h
      cases h
      refine hquiet (hx.kept (kept_untouched hu hn) hsame) rfl hu.initialized ?_
      exact congrArg Reactor.identity hu.reactor
    · rw [hinit] at h
      cases h
      have hnot : x.threads.initialized = false := hi
      refine ⟨hx.construct hn hc, fun h ↦ ?_, ?_⟩
      · rw [hnot] at h
        cases h
      · rw [hnot]
        rfl
  | @others w s hw hs =>
    have hk : x.Kept { x with threads := { x.threads with world := w, signals := s } } :=
      ⟨fun _ ↦ rfl, fun _ ↦ rfl, fun _ ↦ rfl, fun _ ↦ rfl, Nat.le_refl _, hs⟩
    exact hquiet (hx.kept hk hsame) rfl rfl hw

end

end Quarters

end TaskRuntime
