import TaskRuntime.Proofs.Armed
import TaskRuntime.Proofs.DuringPoll
import TaskRuntime.Proofs.Reader
import TaskRuntime.Task.Behaviour

/-!
# Executor, reactor and writer together

One task of an executor reads, the loop of the reactor runs on a thread of its own, others write to
descriptors and close them, and all take turns in any order (`Scene.Step`). Three kinds of step are
spelled out here; the others are those of the executor, `Ensemble.Step`.

* A poll of the task is made one atomic step after the other. When the loop of the executor begins
  such a poll, `Scene.poll` takes over from the program of the poll, and when the future has been
  polled, the task makes of the result what it makes of it (`Task.resume`). The task that is left
  alone does the same by its own program: see `Task.poll_of_reader` and `ReadToEnd.plays_poll`.
* The loop of the reactor makes one of its steps.
* Somebody writes to a descriptor, or closes one.

## Others

Whatever else the executor does, it leaves the token of the future alone as long as the future
counts (`Scene.Engaged`): while its task is in the table or about to go there, and while it is being
polled. When the future has been resolved, its descriptor is closed and its token may be reused.
-/

namespace TaskRuntime

/-! ### What every step keeps -/

namespace Machine

variable {W B V : Type} {β : Behaviour W B V} {σ : Surroundings W B V} {m m' : Machine W B V}
  {h n : List (Note V)} {id : TaskId}

/-- **What every step keeps in order**: the places of tasks, the ready queue and the ids. -/
structure Upkeep (m : Machine W B V) (n : List (Note V)) (m' : Machine W B V) : Prop where
  /-- Tasks pass from place to place. -/
  passage : Passage V m.Tabled m.polled n m'.Tabled m'.polled
  /-- The ready queue changes as the notes tell. -/
  change : m.Change n m'
  /-- The executor keeps its ready queue and its parker. -/
  refs : m'.site.executor.refs = m.site.executor.refs
  /-- Ids are given out in order. -/
  counts : m.Counts n m'

/-- **Order**, as far as a history tells. -/
structure Ordered (m : Machine W B V) (h : List (Note V)) : Prop where
  /-- The ready queue obeys its law. -/
  law : m.Law h
  /-- Ids have been given out in order. -/
  numbered : Numbered m.site.executor.nextId h
  /-- Phases and places agree. -/
  books : Books m.Tabled m.polled h

theorem Move.upkeep (hm : Move β σ m n m') : m.Upkeep n m' :=
  ⟨hm.passage, hm.change, hm.refs, hm.counts⟩

/-- What happens to signals and world alone keeps order. -/
theorem Upkeep.of_still (hx : m'.site.executor = m.site.executor) (hp : m'.polled = m.polled)
    (hc : m.Change n m') (hn : ∀ k ∈ n, ∃ w, k = .woke w) : m.Upkeep n m' where
  passage := by
    rw [hp]
    refine .still (fun k hk ↦ ?_) fun i ↦ by rw [Tabled, Tabled, hx]
    obtain ⟨w, rfl⟩ := hn k hk
    trivial
  change := hc
  refs := by rw [hx]
  counts := by
    refine .inl ⟨?_, by rw [hx]⟩
    rw [issuedIds, List.filterMap_eq_nil_iff]
    intro k hk
    obtain ⟨w, rfl⟩ := hn k hk
    rfl

/-- **Every step keeps order**, as long as not more than `UInt64.size` ids are given out. -/
theorem Upkeep.ordered (hk : m.Upkeep n m') (ho : m.Ordered h)
    (hlen : (issuedIds (h ++ n)).length ≤ UInt64.size) : m'.Ordered (h ++ n) where
  law := by
    have hqueue : m'.site.executor.queue = m.site.executor.queue := congrArg Prod.fst hk.refs
    rw [Law, hqueue]
    exact hk.change.law ho.law
  numbered := hk.counts.numbered ho.numbered
  books := hk.passage.books ((hk.counts.numbered ho.numbered).nodup hlen) ho.books

/-- An id stays on the ready queue until it is taken off. -/
theorem Upkeep.ready (hk : m.Upkeep n m') (ho : m.Ordered h) (hn : ∀ k ∈ n, ¬ k.Takes id)
    (hid : id ∈ m.site.ready) : id ∈ m'.site.ready := by
  have hqueue : m'.site.executor.queue = m.site.executor.queue := congrArg Prod.fst hk.refs
  have hlaw := hk.change.law ho.law
  rw [Site.ready, hqueue]
  exact (hlaw.mem_iff id).2 (since_append.2 (.inr ⟨(ho.law.mem_iff id).1 hid, hn⟩))

end Machine

/-! ### The loop of the reactor -/

namespace Reactor.Scope

variable {K V : Type} [Kernel K]

/-- What a step of the loop does to ready queues. -/
def rouses (x : Scope K) : List (Note V) :=
  match x.watch with
  | .pushing w _ => [.woke w]
  | .alarming ((_, w) :: _) => [.woke w]
  | _ => []

omit [Kernel K] in
theorem woke_of_rouses {x : Scope K} {k : Note V} (hk : k ∈ x.rouses) : ∃ w, k = .woke w := by
  obtain ⟨e, s, watch⟩ := x
  cases watch with
  | pushing w events => exact ⟨w, List.mem_singleton.1 hk⟩
  | alarming copies =>
    cases copies with
    | nil => cases hk
    | cons c rest => exact ⟨c.2, List.mem_singleton.1 hk⟩
  | _ => cases hk

/-- A step of the loop changes ready queues by the pushes for its wakes. -/
theorem change_tick (x : Scope K) (q : QueueRef) :
    x.signals.Change q (x.rouses : List (Note V)) x.tick.signals := by
  have hsame {s : Signals} : s.Change q ([] : List (Note V)) s := .silent rfl (Nat.le_refl _) nofun
  have hunpark (s : Signals) (w : Waker) : s.Change q ([] : List (Note V)) (s.unparkFor w) :=
    .silent (Signals.queue_unparkFor _ _ _) (Nat.le_of_eq (by simp)) nofun
  by_cases hw : x.watch = .waiting
  · rw [(tick_waiting hw).1, rouses, hw]
    exact hsame
  obtain ⟨e, s, watch⟩ := x
  cases watch with
  | waiting => exact absurd rfl hw
  | sorting events => cases events <;> exact hsame
  | pushing w events => exact .woke w
  | notifying w events => exact hunpark s w
  | alarming copies =>
    cases copies with
    | nil => exact hsame
    | cons c rest => exact .woke c.2
  | ringing w copies => exact hunpark s w
  | _ => exact hsame

end Reactor.Scope

/-! ### Scenes -/

/-- An executor, the loop of the reactor, and the poll of the reading task that is in progress, if
there is one. -/
structure Scene (K : Type) where
  /-- The executor, and all that its tasks can reach. -/
  ensemble : Ensemble (World K) Task Value
  /-- Where the loop of the reactor is. -/
  watch : Reactor.Watch := .testing
  /-- The task whose poll is in progress, and how far the poll of its future is. -/
  poll : Option (Task × ReadToEnd.Reading) := none

namespace Scene

variable {K : Type}

/-- The machine of the executor. -/
def machine (x : Scene K) : Machine (World K) Task Value := x.ensemble.machine

/-- System, configuration and reactor. -/
def environment (x : Scene K) : Environment K := x.machine.site.world.toEnvironment

/-- What the loop of the reactor works on. -/
def scope (x : Scene K) : Reactor.Scope K := ⟨x.environment, x.machine.site.signals, x.watch⟩

/-- The waker that the polls of a task are handed. -/
def waker (x : Scene K) (id : TaskId) : Waker := x.machine.site.executor.waker id

/-- News of a token are on their way to a task. -/
def News (x : Scene K) (t : Token) (id : TaskId) : Prop :=
  x.scope.News t (x.waker id) x.machine.site.executor.queue

/-- The loop of the reactor, or a poll, has changed what it works on. -/
def withScope (x : Scene K) (s : Reactor.Scope K) : Scene K where
  ensemble :=
    { x.ensemble with
      machine := { x.machine with
        site := { x.machine.site with
          signals := s.signals
          world := { x.machine.site.world with toEnvironment := s.environment } } } }
  watch := s.watch
  poll := x.poll

/-- The environment has changed. -/
def withEnvironment (x : Scene K) (e : Environment K) : Scene K :=
  x.withScope { x.scope with environment := e }

/-- Somebody has made a system call. -/
def onKernel (x : Scene K) (f : K → K) : Scene K :=
  x.withEnvironment { x.environment with kernel := f x.environment.kernel }

/-- **The future of a task counts**: the task is in the table, or about to go there, or the future
is being polled. -/
def Engaged (x : Scene K) (id : TaskId) : Prop :=
  x.machine.Tabled id ∨ x.poll ≠ none ∨
    ∃ c rest inPlace b, x.machine.calls = c :: rest ∧ c.polls? = some (id, inPlace) ∧
      c.program? = some (.done (.ok .pending, b))

variable [Kernel K]

/-- **One atomic step** around a task and the token of its future. -/
inductive Step (rule : EdgeRule K) (σ : Surroundings (World K) Task Value) (id : TaskId)
    (t : Token) : Scene K → List (Note Value) → Scene K → Prop
  /-- The executor makes a step, or others do, but no poll of the task begins. -/
  | machine {x n s} (hs : Ensemble.Step Task.behaviour σ x.ensemble n s)
      (hn : .began id false ∉ n) (hp : x.poll ≠ none → s.machine.calls = x.machine.calls)
      (he : x.Engaged id →
        x.environment.Spares rule t s.machine.site.world.toEnvironment) :
      Step rule σ id t x n { x with ensemble := s }
  /-- The loop of the executor begins to poll the task. -/
  | begin {x n s b f opening} (hs : Ensemble.Step Task.behaviour σ x.ensemble n s)
      (hn : .began id false ∈ n) (hp : x.poll = none) (hb : x.machine.body? id = some b)
      (hf : b.reader? (K := K) = some (f, opening)) :
      Step rule σ id t x n { x with ensemble := s, poll := some (b, f.begin) }
  /-- The poll makes a step. -/
  | tick {x b p f opening} (hp : x.poll = some (b, p)) (hf : b.reader? = some (f, opening)) :
      Step rule σ id t x []
        { x.withEnvironment (p.tick opening (x.waker id) x.environment).2 with
          poll := some (b, (p.tick opening (x.waker id) x.environment).1) }
  /-- The poll of the future has ended, and the task goes on with its result. -/
  | finish {x b f r c rest} (hp : x.poll = some (b, ⟨f, .complete r⟩))
      (hc : x.machine.calls = c :: rest) :
      Step rule σ id t x []
        { x with
          ensemble := { x.ensemble with
            machine := { x.machine with calls := c.proceed (b.resume r f) :: rest } }
          poll := none }
  /-- The loop of the reactor makes a step. -/
  | loop {x} : Step rule σ id t x x.scope.rouses (x.withScope x.scope.tick)
  /-- Somebody writes to a descriptor. -/
  | write {x} (d : Descriptor) (bytes : Bytes) :
      Step rule σ id t x [] (x.onKernel fun k ↦ (Kernel.write k d bytes).2)
  /-- Somebody closes a descriptor, but neither the poller nor one that is registered under the
  token. -/
  | close {x} (d : Descriptor) (hd : d ≠ x.environment.reactor.poller)
      (hw : ¬ rule.watched x.environment.kernel ⟨x.environment.reactor.poller, d, t⟩) :
      Step rule σ id t x [] (x.onKernel fun k ↦ (Kernel.close k d).2)

/-- **Any number of steps**, through states that the kernel can be in, and their history. -/
inductive Run (rule : EdgeRule K) (σ : Surroundings (World K) Task Value) (id : TaskId) (t : Token)
    (x₀ : Scene K) : List (Note Value) → Scene K → Prop
  /-- No step. -/
  | refl (hs : rule.sound x₀.environment.kernel) : Run rule σ id t x₀ [] x₀
  /-- One more step. -/
  | step {h x n x'} (hr : Run rule σ id t x₀ h x) (hm : Step rule σ id t x n x')
      (hs : rule.sound x'.environment.kernel) : Run rule σ id t x₀ (h ++ n) x'

variable {rule : EdgeRule K} {σ : Surroundings (World K) Task Value} {id : TaskId} {t : Token}
  {x₀ x x' : Scene K} {h n : List (Note Value)}

theorem Run.sound (hr : Run rule σ id t x₀ h x) : rule.sound x.environment.kernel := by
  cases hr with
  | refl hs => exact hs
  | step _ _ hs => exact hs

omit [Kernel K] in
/-- What happens to the environment alone keeps order. -/
theorem upkeep_withEnvironment (x : Scene K) (e : Environment K) :
    x.machine.Upkeep [] (x.withEnvironment e).machine :=
  .of_still rfl rfl (.silent rfl (Nat.le_refl _) nofun) nofun

/-- **Every step keeps order.** -/
theorem Step.upkeep (hm : Step rule σ id t x n x') : x.machine.Upkeep n x'.machine := by
  cases hm with
  | machine hs => exact hs.move.upkeep
  | begin hs => exact hs.move.upkeep
  | tick => exact upkeep_withEnvironment x _
  | @finish b f r c rest hp hc =>
    refine .of_still rfl ?_ (.silent rfl (Nat.le_refl _) nofun) nofun
    show List.filterMap Call.polls? (c.proceed (b.resume r f) :: rest) = x.machine.polled
    rw [Machine.polled, hc, List.filterMap_cons, List.filterMap_cons, Call.polls?_proceed]
  | loop => exact .of_still rfl rfl (x.scope.change_tick _) fun k ↦ Reactor.Scope.woke_of_rouses
  | write => exact upkeep_withEnvironment x _
  | close => exact upkeep_withEnvironment x _

end Scene

end TaskRuntime
