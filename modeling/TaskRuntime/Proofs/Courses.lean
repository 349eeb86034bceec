import TaskRuntime.Proofs.ExchangedCalls
import TaskRuntime.Proofs.LikeIds

/-!
# What happens during a run to completion

While a body is run to completion, other threads push and notify for wakes, notify threads for no
reason, change the world and act elsewhere. A course of events (`Ensemble.Course`) lists what
happens in order: the notes that the machine leaves, and in between what others do (`Foreign`). So
two courses can be compared not only by what the machine has done, but also by what others have done
to it and when: their pattern of wakes.

A course goes on as long as there are more than a given number of calls. If these are the calls that
there were before the run to completion began (`Ensemble.calling`), the course is about this run
only, and comes to its end when the run does. A course of events is a run (`Ensemble.Course.run`),
so it is no other semantics of the machine.

## Between a look at the world and its replacement

A program that changes the world looks at it and then replaces it as a whole. Others do not change
it in between (`Ensemble.Allows`): such a change is one operation of the program that is modelled in
two requests.
-/

namespace TaskRuntime

variable {W B V R S : Type}

/-! ### What happens during a run to completion -/

/-- **What others do.** -/
inductive Foreign (W : Type)
  /-- They push for a wake. -/
  | push (w : Waker)
  /-- They notify for a wake for which they have pushed. -/
  | notify (w : Waker)
  /-- They notify a thread for no reason. -/
  | stray (r : ParkerRef)
  /-- They change the world. -/
  | world (f : W → W)
  /-- They make queues and parkers, and use those that are not the executor's. -/
  | elsewhere (u : Signals)

/-- What others do to the world does not depend on what cannot be told of it. -/
def Foreign.Blind (ω : Setoid W) : Foreign W → Prop
  | .world f => ∀ w w', ω w w' → ω (f w) (f w')
  | _ => True

/-- Something that happens during a run to completion. -/
inductive Occurrence (W V : Type)
  /-- The machine leaves a note. -/
  | own (k : Note V)
  /-- Others do something. -/
  | others (d : Foreign W)

/-- The notes of the machine. -/
def Occurrence.notes (es : List (Occurrence W V)) : List (Note V) :=
  es.filterMap fun
    | .own k => some k
    | .others _ => none

theorem Occurrence.notes_append (es es' : List (Occurrence W V)) :
    notes (es ++ es') = notes es ++ notes es' :=
  List.filterMap_append

@[simp] theorem Occurrence.notes_map_own (n : List (Note V)) :
    notes (n.map (own : Note V → Occurrence W V)) = n := by
  simp [notes, List.filterMap_map]

@[simp] theorem Occurrence.notes_others (d : Foreign W) :
    notes ([.others d] : List (Occurrence W V)) = [] :=
  rfl

/-- The active call is about to replace the world. -/
def Machine.Replaces (m : Machine W B V) : Prop := ∃ c ∈ m.calls.head?, c.doing.Replaces

namespace Ensemble

/-- **A step of the machine's own thread**, in a run to completion. -/
inductive Own (β : Behaviour W B V) (σ : Surroundings W B V) :
    Ensemble W B V → List (Note V) → Ensemble W B V → Prop
  /-- The machine goes on from a settled position. -/
  | turn {m m' n flights} (hs : ∀ c ∈ m.calls.head?, c.doing.Settled)
      (h : m.step? β σ = some (n, m')) : Own β σ ⟨m, flights, none⟩ n ⟨m', flights, none⟩
  /-- A request is answered. -/
  | request {m c rest n site flights} {R : Type} {wrap : Act W B V R → Doing W B V} {p p'}
      (hc : m.calls = c :: rest) (hw : Doing.Runs wrap) (hd : c.doing = wrap p)
      (h : p.request? β m.site = some (n, p', site)) :
      Own β σ ⟨m, flights, none⟩ n
        ⟨{ m with site, calls := { c with doing := wrap p' } :: rest }, flights, none⟩
  /-- It pushes for a wake. -/
  | push {m c rest w flights} {R : Type} {wrap : Act W B V R → Doing W B V} {k}
      (hc : m.calls = c :: rest) (hw : Doing.Runs wrap) (hd : c.doing = wrap (.wake w k)) :
      Own β σ ⟨m, flights, none⟩ [.woke w]
        ⟨{ m.onSignals (·.pushFor w) with calls := { c with doing := wrap k } :: rest }, flights,
          some w⟩
  /-- It notifies for its wake. -/
  | notify {m w flights} :
      Own β σ ⟨m, flights, some w⟩ [] ⟨m.onSignals (·.unparkFor w), flights, none⟩

/-- **What others may do.** They notify for a wake for which they have pushed. They do not change
the world between a look at it and its replacement: a program that looks at the world in order to
replace it does so at once. While the thread is waking, its program has not looked. -/
def Allows (s : Ensemble W B V) : Foreign W → Prop
  | .push _ => True
  | .notify w => w ∈ s.flights
  | .stray _ => True
  | .world _ => s.own = none → ¬ s.machine.Replaces
  | .elsewhere u => s.machine.site.signals.Spares u s.machine.site.executor.queue
      s.machine.site.executor.parker

/-- **A step of others.** -/
def suffer (s : Ensemble W B V) : Foreign W → Ensemble W B V
  | .push w => { s with machine := s.machine.onSignals (·.pushFor w), flights := w :: s.flights }
  | .notify w =>
    { s with machine := s.machine.onSignals (·.unparkFor w), flights := s.flights.erase w }
  | .stray r => { s with machine := s.machine.onSignals (·.unpark r) }
  | .world f =>
    let site := { s.machine.site with world := f s.machine.site.world }
    { s with machine := { s.machine with site } }
  | .elsewhere u => { s with machine := s.machine.onSignals fun _ ↦ u }

/-- **A course of events** while there are more than `n` calls: what the machine does and what
others do, in any order. -/
inductive Course (β : Behaviour W B V) (σ : Surroundings W B V) (n : Nat)
    (s₀ : Ensemble W B V) : List (Occurrence W V) → Ensemble W B V → Prop
  /-- Nothing has happened yet. -/
  | refl : Course β σ n s₀ [] s₀
  /-- The machine makes a step. -/
  | own {es s k s'} (hr : Course β σ n s₀ es s) (hn : n < s.machine.calls.length)
      (hs : s.Own β σ k s') : Course β σ n s₀ (es ++ k.map .own) s'
  /-- Others make a step. -/
  | others {es s d} (hr : Course β σ n s₀ es s) (hn : n < s.machine.calls.length)
      (hd : s.Allows d) : Course β σ n s₀ (es ++ [.others d]) (s.suffer d)

variable {β : Behaviour W B V} {σ : Surroundings W B V} {s s' s₀ : Ensemble W B V}
  {k : List (Note V)} {es es' : List (Occurrence W V)} {n : Nat}

/-- What the machine's own thread does is a step. -/
theorem Own.step (h : s.Own β σ k s') : Step β σ s k s' := by
  cases h with
  | turn hs h => exact .turn hs h
  | request hc hw hd h => exact .request hc hw hd h
  | push hc hw hd => exact .push hc hw hd
  | notify => exact .notify

/-- What others do is a step. -/
theorem step_suffer {d : Foreign W} (h : s.Allows d) : ∃ k, Step β σ s k (s.suffer d) := by
  cases d with
  | push w => exact ⟨_, .otherPush w⟩
  | notify w => exact ⟨_, .otherNotify h⟩
  | stray r => exact ⟨_, .stray r⟩
  | world f => exact ⟨_, .world _⟩
  | elsewhere u => exact ⟨_, .elsewhere h⟩

/-- What others do leaves the executor alone. -/
@[simp] theorem executor_suffer (s : Ensemble W B V) (d : Foreign W) :
    (s.suffer d).machine.site.executor = s.machine.site.executor := by
  cases d <;> rfl

@[simp] theorem calls_suffer (s : Ensemble W B V) (d : Foreign W) :
    (s.suffer d).machine.calls = s.machine.calls := by
  cases d <;> rfl

namespace Course

theorem trans (h₁ : Course β σ n s₀ es s) (h₂ : Course β σ n s es' s') :
    Course β σ n s₀ (es ++ es') s' := by
  induction h₂ with
  | refl => simpa using h₁
  | own _ hn hs ih => simpa [List.append_assoc] using ih.own hn hs
  | others _ hn hs ih => simpa [List.append_assoc] using ih.others hn hs

theorem single (hn : n < s.machine.calls.length) (hs : s.Own β σ k s') :
    Course β σ n s (k.map .own) s' := by
  simpa using Course.refl.own hn hs

/-- The active call goes on from a settled position. -/
theorem turned {m m' : Machine W B V} {fl : List Waker} (hr : Course β σ n s₀ es ⟨m, fl, none⟩)
    (hn : n < m.calls.length) {c : Call W B V} {rest : List (Call W B V)} (hc : m.calls = c :: rest)
    (hset : c.doing.Settled) (h : m.step? β σ = some (k, m')) :
    Course β σ n s₀ (es ++ k.map .own) ⟨m', fl, none⟩ := by
  refine hr.own hn (.turn (fun d hd ↦ ?_) h)
  rw [hc] at hd
  exact Option.mem_some.1 hd ▸ hset

/-- A course of events is a run. -/
theorem run (hr : Course β σ n s₀ es s) : ∃ h, Run β σ (fun _ ↦ True) s₀ h s := by
  induction hr with
  | refl => exact ⟨[], .refl⟩
  | own _ _ hs ih =>
    obtain ⟨h, hrun⟩ := ih
    exact ⟨_, hrun.step hs.step trivial⟩
  | others _ _ hd ih =>
    obtain ⟨h, hrun⟩ := ih
    obtain ⟨k, hs⟩ := step_suffer hd
    exact ⟨_, hrun.step hs trivial⟩

/-- A step that leaves no notes comes first. -/
theorem silent (hn : n < s.machine.calls.length) (hs : s.Own β σ [] s')
    {t : Ensemble W B V} (h : Course β σ n s' es t) : Course β σ n s es t :=
  (single hn hs).trans h

/-- Ids are given out in order. -/
theorem numbered {h : List (Note V)} (hr : Course β σ n s₀ es s)
    (h₀ : Numbered s₀.machine.site.executor.nextId h) :
    Numbered s.machine.site.executor.nextId (h ++ Occurrence.notes es) := by
  induction hr with
  | refl => simpa [Occurrence.notes] using h₀
  | own _ _ hs ih =>
    rw [Occurrence.notes_append, Occurrence.notes_map_own, ← List.append_assoc]
    exact hs.step.move.counts.numbered ih
  | others _ _ _ ih =>
    rw [Occurrence.notes_append, Occurrence.notes_others, List.append_nil, executor_suffer]
    exact ih

/-- **The books are kept** during a run to completion, as long as not more than `UInt64.size` ids
are given out. -/
theorem books {h : List (Note V)} (hr : Course β σ n s₀ es s)
    (hn₀ : Numbered s₀.machine.site.executor.nextId h)
    (hb₀ : Books s₀.machine.Tabled s₀.machine.polled h)
    (hlen : (issuedIds (h ++ Occurrence.notes es)).length ≤ UInt64.size) :
    Books s.machine.Tabled s.machine.polled (h ++ Occurrence.notes es) := by
  induction hr with
  | refl => simpa [Occurrence.notes] using hb₀
  | own hr hn hs ih =>
    have hnd := ((hr.own hn hs).numbered hn₀).nodup hlen
    rw [Occurrence.notes_append, Occurrence.notes_map_own, ← List.append_assoc] at hlen hnd ⊢
    exact hs.step.move.passage.books hnd (ih (length_issuedIds_le hlen))
  | @others es s d _ _ _ ih =>
    rw [Occurrence.notes_append, Occurrence.notes_others, List.append_nil] at hlen ⊢
    have htabled : (s.suffer d).machine.Tabled = s.machine.Tabled := by
      funext i
      rw [Machine.Tabled, Machine.Tabled, executor_suffer]
    rw [htabled, Machine.polled, calls_suffer]
    exact ih hlen

end Course

end Ensemble

/-! ### The ids of calls -/

namespace Machine

variable {β : Behaviour W B V} {σ : Surroundings W B V} {m m' : Machine W B V} {n : List (Note V)}

end Machine

end TaskRuntime
