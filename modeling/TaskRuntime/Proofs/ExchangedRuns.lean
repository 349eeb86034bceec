import TaskRuntime.Proofs.Courses

/-!
# Running a future and a chain to completion

`Ensemble.calling_andThen`: from the same state, a future and the chain of the future with a
continuation are run to completion alike, if the continuation makes no request of the executor and
does not fail (`Exchange.Sound`). Of each course of events during the one run there is a course of
the other in which the same ids are given out, the same tasks are polled with the same wakers and
results, others wake alike, and the thread parks as often. Figures, signals and the order of the
tables agree after it. Both runs fail with the same failure, or both return, the one a value that
the continuation gives for the value of the other.

## The world

The continuation and the destruction of the future may change the world, and other tasks may make of
it what they like. So the two courses differ in one thing that others do (`Exchange.Along`): right
after the poll in which the future has become ready, they change the world once more on the other
side. When the future is run, they do there what the chain does by itself; when the chain is run,
they take it back. Apart from the end of that poll the worlds are the same at every moment
(`Exchange.Agree.world`).

If nobody else can tell what the continuation and the destruction do (`Exchange.Unseen`), there is
no such difference: what others do is the same as well.

## The two directions

The continuation runs and the future is destroyed by steps that have no counterpart on the first
side. So what the second side does is done by the first side in as many steps or fewer
(`Exchange.Coupled.of_own'`), and what the first side does the second side does after it has caught
up (`Exchange.Coupled.catch_up`). It has to catch up before the poll ends, and also before others
change the world.

## Any moment

The run may begin between the runs to completion or in the middle of a poll, with any calls below
it, as long as the executor has got there from its creation. That the id of the task is new is what
this is needed for: no other task and no call below has it, it is not given out again, and the task
is at one place at a time.
-/

namespace TaskRuntime

variable {W B V R R' S : Type}

theorem Machine.length_resumed (r : Except Failure (Option V)) (rest : List (Call W B V)) :
    (resumed r rest).length = rest.length := by
  cases rest <;> rfl

namespace Exchange

variable {ξ : Exchange W B V S} {π : Scope W B} {β : Behaviour W B V} {σ : Surroundings W B V}
  {e : Era} {n : Nat} {w : W} {i : TaskId}

/-! ### Ensembles in step -/

/-- **Two ensembles are in step**: their machines are, and the same wakes are on their way. -/
structure Coupled (ξ : Exchange W B V S) (π : Scope W B) (e : Era) (n : Nat)
    (s t : Ensemble W B V) : Prop where
  /-- The machines are in step, or both have returned. -/
  machine : ξ.Machines π e n s.machine t.machine
  /-- The wakes of other threads are the same. -/
  flights : t.flights = s.flights
  /-- The wakes of the machines' own threads are the same. -/
  own : t.own = s.own
  /-- While the threads are waking, their programs do not depend on the world. -/
  waking : s.own ≠ none → ∀ u, ξ.Calls π e n u s.machine.calls t.machine.calls

/-- **Two ensembles are torn**: their machines are, and the same wakes are on their way. -/
structure Broken (ξ : Exchange W B V S) (π : Scope W B) (n : Nat) (s t : Ensemble W B V) :
    Prop where
  /-- The machines are torn. -/
  machine : ξ.Torn π n s.machine t.machine
  /-- The wakes of other threads are the same. -/
  flights : t.flights = s.flights
  /-- The threads are not waking. -/
  own : s.own = none ∧ t.own = none

/-- **Two runs to completion agree** at some moment: figures, signals and wakes on their way are the
same, the same tasks are in the table, in the same order, and both runs are going on, or both have
come to their ends. -/
structure Agree (ξ : Exchange W B V S) (ω : Setoid W) (n : Nat) (s t : Ensemble W B V) : Prop where
  /-- The executors tell the same about themselves. -/
  figures : t.machine.site.figures = s.machine.site.figures
  /-- The tables have the same ids in the same order. -/
  ids : t.machine.site.executor.tasks.keys = s.machine.site.executor.tasks.keys
  /-- The tasks in the tables are the same, but for the one that differs. -/
  bodies : ∀ i, Option.Rel (ξ.Body i) (s.machine.site.executor.tasks.get? i)
    (t.machine.site.executor.tasks.get? i)
  /-- Ready queues and parkers are the same. -/
  signals : t.machine.site.signals = s.machine.site.signals
  /-- The same wakes are on their way. -/
  wakes : t.flights = s.flights ∧ t.own = s.own
  /-- The worlds are related, unless the poll in which the future has become ready is about to end,
  or the runs have come to their ends. -/
  world : n < s.machine.calls.length → ¬ s.machine.Ripe ξ.id →
    ω s.machine.site.world t.machine.site.world
  /-- Neither run has come to its end, or both have, with the same result but for the value. -/
  ends : n < s.machine.calls.length ∧ n < t.machine.calls.length ∨
    ξ.Returned n s.machine t.machine

/-- **The same happens on both sides**, as given by `Q`, but for one change of the world that others
make on the second side, right after the end of the poll in which the future has become ready. -/
inductive Along (ξ : Exchange W B V S) (Q : Occurrence W V → Occurrence W V → Prop) :
    List (Occurrence W V) → List (Occurrence W V) → Prop
  /-- The same happens. -/
  | same {es es'} (h : List.Forall₂ Q es es') : Along ξ Q es es'
  /-- Others change the world once more. -/
  | changed {es es' fs fs'} {k k' : List (Note V)} (f : W → W) (h : List.Forall₂ Q es es')
      (hk : List.Forall₂ Q (k.map .own) (k'.map .own)) (hr : Resolves ξ.id k)
      (h' : List.Forall₂ Q fs fs') :
      Along ξ Q (es ++ k.map .own ++ fs) (es' ++ k'.map .own ++ .others (.world f) :: fs')

theorem Along.append {Q : Occurrence W V → Occurrence W V → Prop}
    {es es' fs fs' : List (Occurrence W V)} (h : ξ.Along Q es es') (hf : List.Forall₂ Q fs fs') :
    ξ.Along Q (es ++ fs) (es' ++ fs') := by
  cases h with
  | same h => exact .same (List.rel_append h hf)
  | changed f h hk hr h' =>
    simpa only [List.append_assoc, List.cons_append] using
      Along.changed f h hk hr (List.rel_append h' hf)

/-- **What has happened on both sides**, given the era: the same if it is early, and also if others
cannot tell the worlds apart to which the continuation and the destruction lead. -/
structure Ensues (ξ : Exchange W B V S) (π : Scope W B) (e : Era)
    (Q : Occurrence W V → Occurrence W V → Prop) (es es' : List (Occurrence W V)) : Prop where
  /-- The same happens, but perhaps for one change of the world. -/
  along : ξ.Along Q es es'
  /-- The same happens. -/
  same : e = .early ∨ π.reach ≤ π.unseen → List.Forall₂ Q es es'

theorem Ensues.append {Q : Occurrence W V → Occurrence W V → Prop}
    {es es' fs fs' : List (Occurrence W V)} (h : ξ.Ensues π e Q es es')
    (hf : List.Forall₂ Q fs fs') : ξ.Ensues π e Q (es ++ fs) (es' ++ fs') :=
  ⟨h.along.append hf, fun he ↦ List.rel_append (h.same he) hf⟩

variable {s s' t t' : Ensemble W B V}

/-- The same is told of the poll in which the future has become ready. -/
theorem Resolves.told {k k' : List (Note V)} (h : Resolves ξ.id k) (hk : ξ.Tells k k') :
    Resolves ξ.id k' := by
  have hready {r r' : Polled V} (hr : ∃ v, r = .ok (.ready v)) (h : ξ.Result ξ.id r r') :
      ∃ v, r' = .ok (.ready v) := by
    obtain ⟨v, rfl⟩ := hr
    cases h with
    | @ready _ v' => exact ⟨v', rfl⟩
  cases h with
  | inPlace hr =>
    obtain - | ⟨hk, hnil⟩ := hk
    cases hnil
    cases hk with
    | same hk => exact hk.elim
    | ended h => exact .inPlace (hready hr h)
  | popped hr =>
    obtain - | ⟨hk, hrest⟩ := hk
    obtain - | ⟨hd, hnil⟩ := hrest
    cases hnil
    cases hd
    cases hk with
    | same hk => exact hk.elim
    | ended h => exact .popped (hready hr h)

theorem Span.congr {m m' : Machine W B V} {ρ : Setoid W} (h : ξ.Span π e m ρ)
    (hc : m'.calls = m.calls) : ξ.Span π e m' ρ := by
  cases h with
  | running => exact .running
  | ripe he hm =>
    refine .ripe he ?_
    rw [Machine.Ripe, hc]
    exact hm

theorem Machines.going_of_lt {m m' : Machine W B V} (h : ξ.Machines π e n m m')
    (hn : n < m.calls.length ∨ n < m'.calls.length) :
    ∃ ρ, ξ.Span π e m ρ ∧ ξ.Sites π e ρ m.site m'.site ∧
      ξ.Calls π e n m'.site.world m.calls m'.calls := by
  cases h with
  | going hρ hs hc => exact ⟨_, hρ, hs, hc⟩
  | returned _ hr =>
    obtain ⟨hlen, -, hc, hc', -⟩ := hr
    rw [hc, hc', Machine.length_resumed, Machine.length_resumed, hlen] at hn
    exact absurd hn (by simp)

theorem Coupled.exists_right (h : ξ.Coupled π e n s t) : ∃ m', t = ⟨m', s.flights, s.own⟩ :=
  ⟨t.machine, by rw [← h.flights, ← h.own]⟩

theorem Coupled.exists_left (h : ξ.Coupled π e n s t) : ∃ m, s = ⟨m, t.flights, t.own⟩ :=
  ⟨s.machine, by rw [h.flights, h.own]⟩

/-- Ensembles that are in step agree. -/
theorem Coupled.agree (h : ξ.Coupled π e n s t) : ξ.Agree π.unseen n s t := by
  have hs := h.machine.sites
  refine ⟨hs.figures, hs.tasks.keys, (hs.tasks.imp fun _ _ _ _ hb ↦ hb.body).get?, hs.signals,
    ⟨h.flights, h.own⟩, fun hn hm ↦ ?_, ?_⟩
  · obtain ⟨ρ, hρ, hs, -⟩ := h.machine.going_of_lt (.inl hn)
    cases hρ with
    | running => exact Scope.unseen_of hs.world
    | ripe _ hm' => exact absurd hm' hm
  · cases h.machine with
    | going _ _ hc => exact Or.inl hc.lt_length
    | returned _ hr => exact Or.inr hr

/-- The worlds are still related after a change by others that keeps the relations. -/
theorem Span.world_of {m : Machine W B V} {ρ : Setoid W} (h : ξ.Span π e m ρ) {f : W → W}
    (hu : ∀ w w', π.unseen w w' → π.unseen (f w) (f w'))
    (hr : ∀ w w', π.reach w w' → π.reach (f w) (f w')) {w w' : W} (hw : ρ w w') :
    ρ (f w) (f w') := by
  cases h with
  | ripe => exact hr w w' hw
  | running =>
    refine Scope.world_of (fun he ↦ ?_) (hu w w' (Scope.unseen_of hw))
    subst he
    exact congrArg f (show w = w' from hw).symm

/-- Ensembles in step stay so if others do the same on both sides, as far as they may on the second
side. -/
theorem Coupled.suffer (hc : ξ.Coupled π e n s t) (hn : n < s.machine.calls.length) {d : Foreign W}
    (hu : d.Blind π.unseen) (hr : d.Blind π.reach) (ha : t.Allows d) :
    ξ.Coupled π e n (s.suffer d) (t.suffer d) := by
  obtain ⟨ρ, hρ, hs, hcalls⟩ := hc.machine.going_of_lt (.inl hn)
  obtain ⟨m', rfl⟩ := hc.exists_right
  obtain ⟨m, fl, own⟩ := s
  have hsignals (f : Signals → Signals) :
      ξ.Machines π e n (m.onSignals f) (m'.onSignals f) :=
    .going (hρ.congr rfl) (hs.onSignals f) hcalls
  cases d with
  | push x => exact ⟨hsignals (·.pushFor x), rfl, rfl, hc.waking⟩
  | notify x => exact ⟨hsignals (·.unparkFor x), rfl, rfl, hc.waking⟩
  | stray r => exact ⟨hsignals (·.unpark r), rfl, rfl, hc.waking⟩
  | elsewhere u => exact ⟨hsignals fun _ ↦ u, rfl, rfl, hc.waking⟩
  | world f =>
    refine ⟨.going (hρ.congr rfl) (hs.onWorld (hρ.world_of hu hr hs.world)) ?_, rfl, rfl,
      hc.waking⟩
    cases own with
    | some x => exact hc.waking (Option.some_ne_none x) _
    | none =>
      obtain ⟨c, rest, c', rest', he, he', hpair⟩ := hcalls.exists_pair
      dsimp only at he he' hcalls
      have hcalm : ¬ c'.doing.Replaces := fun h ↦ ha rfl ⟨c', by rw [he']; rfl, h⟩
      have hpair' : ξ.Pair π e (f m'.site.world) c c' :=
        ⟨hpair.id, hpair.held, hpair.slot, hpair.doing.of_not_replaces hcalm⟩
      show ξ.Calls π e n (f m'.site.world) m.calls m'.calls
      rw [he, he'] at hcalls ⊢
      exact hcalls.change rfl hpair'

namespace Broken

/-- The second one is about to pop as well. -/
theorem pop (h : ξ.Broken π n s t) : ∀ c ∈ t.machine.calls.head?, c.doing = .pop := by
  obtain ⟨c, rest, c', rest', he, he', hpair⟩ :=
    (h.machine.calls s.machine.site.world).exists_pair
  have hpop : c.doing = .pop := h.machine.pop c (by rw [he]; rfl)
  intro d hd
  rw [he'] at hd
  obtain rfl := Option.mem_some.1 hd
  have hdoing := hpair.doing
  rw [hpop] at hdoing
  generalize c'.doing = d' at hdoing
  cases hdoing with
  | pop => rfl

end Broken

/-! ### Courses of events in step -/

variable {s₀ t₀ : Ensemble W B V} {es es' fs fs' : List (Occurrence W V)} {L : Nat}
  {Q : Occurrence W V → Occurrence W V → Prop}

/-- The early era ends, and the same has happened so far. -/
theorem Ensues.ended (h : ξ.Ensues π .early Q es es') (hf : List.Forall₂ Q fs fs') :
    ξ.Ensues π .late Q (es ++ fs) (es' ++ fs') :=
  have hsame := List.rel_append (h.same (Or.inl rfl)) hf
  ⟨.same hsame, fun _ ↦ hsame⟩

/-- The early era ends, and others change the world once more. -/
theorem Ensues.changed (h : ξ.Ensues π .early Q es es') {k k' : List (Note V)}
    (hk : List.Forall₂ Q (k.map .own) (k'.map .own)) (hr : Resolves ξ.id k) (f : W → W)
    (hle : ¬ π.reach ≤ π.unseen) :
    ξ.Ensues π .late Q (es ++ k.map .own) (es' ++ (k'.map .own ++ [.others (.world f)])) := by
  refine ⟨?_, fun he ↦ absurd (he.resolve_left nofun) hle⟩
  simpa using Along.changed f (h.same (Or.inl rfl)) hk hr .nil

/-- **The task stays single** while not more than a number of ids are given out: its id is not given
out again, and the task is at one place at a time. -/
def Single (ξ : Exchange W B V S) (β : Behaviour W B V) (σ : Surroundings W B V) (n L : Nat)
    (s₀ : Ensemble W B V) : Prop :=
  ∀ es s, Ensemble.Course β σ n s₀ es s → (issuedIds (Occurrence.notes es)).length ≤ L →
    s.machine.site.executor.nextId ≠ ξ.id ∧ s.machine.Once ξ.id

end Exchange

namespace Ensemble

variable {β : Behaviour W B V} {σ : Surroundings W B V} {P : Ensemble W B V → Prop}
  {site : Site W B} {s : Ensemble W B V} {h : List (Note V)}

end Ensemble

/-! ### A future that waits -/

namespace Exchange

/-- A future that is pending twice, and then results in the first number of its world. Destroying it
adds to the second number. -/
def patient : Future (Nat × Nat) (Nat ⊕ Option Nat) Nat Nat Nat where
  poll
    | 0, _ => .done (.ok .pending, 1)
    | 1, _ => .done (.ok .pending, 2)
    | s, _ => .look fun w ↦ .done (.ok (.ready w.1), s)
  drop _ w := (w.1, w.2 + 1)

/-- A continuation that squares, and adds to the second number of its world. -/
def squaring (v : Nat) : Act (Nat × Nat) (Nat ⊕ Option Nat) Nat (Except Failure Nat) :=
  .look fun w ↦ .put (w.1, w.2 + 10) (.done (.ok (v * v)))

/-- The behaviour of tasks that are the one or the other. -/
def patience : Behaviour (Nat × Nat) (Nat ⊕ Option Nat) Nat where
  poll
    | .inl s, x => (patient.poll s x).bind fun r ↦ .done (r.1, .inl r.2)
    | .inr t, x => ((patient.andThen squaring).poll t x).bind fun r ↦ .done (r.1, .inr r.2)
  drop
    | .inl s => patient.drop s
    | .inr t => (patient.andThen squaring).drop t

/-- The first task differs. -/
def first : Exchange (Nat × Nat) (Nat ⊕ Option Nat) Nat Nat where
  id := 1
  future := patient
  next := squaring
  plain := .inl
  chained := .inr

end Exchange

end TaskRuntime
