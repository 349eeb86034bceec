import TaskRuntime.Executor.Loop
import TaskRuntime.Proofs.History
import TaskRuntime.Proofs.Signals

/-!
# A machine among other threads

`Machine.step?` lets the active call run a program as far as it gets, with nobody in between. Here
the same machine runs one request at a time, and other threads may act between any two requests.

## What is one step

* A request of a program (`Act.request?`); a wake is two steps, the push and the notification.
* Whatever `Machine.step?` does when the active call is at the end of a program, at a run to
  completion, or at no program (`Doing.Settled`): a pop, the look at the empty queue, a park.
* Something that another thread does: either half of a wake through any waker, a stray
  notification, a change of the world, or anything that concerns other queues and other parkers.
* Between the runs to completion, a spawn, the beginning of a run, or a sleep of the thread.

`Ensemble.Run` is any number of steps, with the history of what they show. `Machine.run_step?` says
that a step of the machine alone is such a run, so what holds along all runs holds of the machine.
-/

namespace TaskRuntime

variable {W B V R : Type}

/-! ### One request at a time -/

namespace Act

/-- Answers the request with which a program begins: what it shows, what is left of the program,
and the site. A program that has ended, wakes, or runs a task to completion has no such request. -/
def request? (β : Behaviour W B V) :
    Act W B V R → Site W B → Option (List (Note V) × Act W B V R × Site W B)
  | .look k, s => some ([], k s.world, s)
  | .put w k, s => some ([], k, { s with world := w })
  | .unpark k, s => some ([], k, { s with signals := s.signals.unpark s.executor.parker })
  | .parkFor k, s =>
    let (token, signals) := s.signals.parkFor s.executor.parker
    some ([], k token, { s with signals })
  | .spawn b k, s =>
    let (id, notes, s) := s.spawn β b
    some (notes, k (.ok id), s)
  | .figures k, s => some ([], k s.figures, s)
  | .done _, _ => none
  | .wake _ _, _ => none
  | .blockOn _ _, _ => none

/-- A program is settled if it has ended or runs a task to completion. -/
def Settled : Act W B V R → Prop
  | .done _ => True
  | .blockOn _ _ => True
  | _ => False

end Act

namespace Doing

/-- The ways in which a call runs a program. -/
inductive Runs : {R : Type} → (Act W B V R → Doing W B V) → Prop
  /-- The program polls the task of the call in place. -/
  | first : Runs .first
  /-- The program polls a task that was popped. -/
  | poll (id : TaskId) : Runs (.poll id)
  /-- The program announces a parking. -/
  | announce : Runs .announce
  /-- The program is that of others, while the thread is about to park. -/
  | asleep : Runs .asleep

/-- A call has no request to be answered. -/
def Settled : Doing W B V → Prop
  | first p => p.Settled
  | poll _ p => p.Settled
  | announce p => p.Settled
  | asleep p => p.Settled
  | _ => True

end Doing

/-! ### Ensembles -/

/-- A machine, and the wakes that are between push and notification. -/
structure Ensemble (W B V : Type) where
  /-- The machine. -/
  machine : Machine W B V
  /-- The wakes of other threads that have pushed and not yet notified. -/
  flights : List Waker := []
  /-- The wake of the machine's own thread that has pushed and not yet notified. -/
  own : Option Waker := none

/-- Changes the signals of a machine. -/
def Machine.onSignals (m : Machine W B V) (f : Signals → Signals) : Machine W B V :=
  { m with site := { m.site with signals := f m.site.signals } }

/-- **An executor that has just been made**: no task, no id given out, and an empty ready queue. -/
structure Site.Fresh (s : Site W B) : Prop where
  /-- The table is empty. -/
  tasks : s.executor.tasks = .empty
  /-- The ids begin with the first. -/
  nextId : s.executor.nextId = Executor.firstId
  /-- The ready queue exists, and is in order. -/
  queue : s.signals.Queue s.executor.queue
  /-- No id is queued. -/
  ids : (s.signals.queue s.executor.queue).ids = []
  /-- The parker exists. -/
  parker : s.executor.parker.index < s.signals.parkers.length

/-- A site with an executor that has just been made on the only thread. -/
def Site.blank (w : W) : Site W B where
  executor := { parker := ⟨0⟩, queue := ⟨0⟩ }
  signals := { queues := [{}], parkers := [{ owner := 0 }] }
  world := w

theorem Site.fresh_blank (w : W) : (blank w : Site W B).Fresh :=
  ⟨rfl, rfl, ⟨Nat.zero_lt_one, ReadyQueue.synced_empty⟩, rfl, Nat.zero_lt_one⟩

/-- The ids on the ready queue of a site. -/
def Site.ready (s : Site W B) : List TaskId := (s.signals.queue s.executor.queue).ids

/-- What others may do to the signals without any regard to one queue and one parker. -/
structure Signals.Spares (s s' : Signals) (q : QueueRef) (p : ParkerRef) : Prop where
  /-- The queue stays as it is. -/
  queue : s'.queue q = s.queue q
  /-- The token stays as it is. -/
  token : s'.token p = s.token p
  /-- No queue disappears. -/
  queues : s.queues.length ≤ s'.queues.length
  /-- No parker disappears. -/
  parkers : s.parkers.length ≤ s'.parkers.length

namespace Ensemble

/-- An ensemble without calls and without wakes. -/
def start (s : Site W B) : Ensemble W B V where
  machine := { site := s }

/-- **One atomic step.** -/
inductive Step (β : Behaviour W B V) (σ : Surroundings W B V) :
    Ensemble W B V → List (Note V) → Ensemble W B V → Prop
  /-- The machine goes on from a settled position. -/
  | turn {m m' n flights} (hs : ∀ c ∈ m.calls.head?, c.doing.Settled)
      (h : m.step? β σ = some (n, m')) : Step β σ ⟨m, flights, none⟩ n ⟨m', flights, none⟩
  /-- A request is answered. -/
  | request {m c rest n site flights} {R : Type} {wrap : Act W B V R → Doing W B V} {p p'}
      (hc : m.calls = c :: rest) (hw : Doing.Runs wrap) (hd : c.doing = wrap p)
      (h : p.request? β m.site = some (n, p', site)) :
      Step β σ ⟨m, flights, none⟩ n
        ⟨{ m with site, calls := { c with doing := wrap p' } :: rest }, flights, none⟩
  /-- The machine's thread pushes for a wake. -/
  | push {m c rest w flights} {R : Type} {wrap : Act W B V R → Doing W B V} {k}
      (hc : m.calls = c :: rest) (hw : Doing.Runs wrap) (hd : c.doing = wrap (.wake w k)) :
      Step β σ ⟨m, flights, none⟩ [.woke w]
        ⟨{ m.onSignals (·.pushFor w) with calls := { c with doing := wrap k } :: rest }, flights,
          some w⟩
  /-- The machine's thread notifies for its wake. -/
  | notify {m w flights} :
      Step β σ ⟨m, flights, some w⟩ [] ⟨m.onSignals (·.unparkFor w), flights, none⟩
  /-- Another thread pushes for a wake. -/
  | otherPush {m own flights} (w : Waker) :
      Step β σ ⟨m, flights, own⟩ [.woke w] ⟨m.onSignals (·.pushFor w), w :: flights, own⟩
  /-- Another thread notifies for its wake. -/
  | otherNotify {m own flights w} (h : w ∈ flights) :
      Step β σ ⟨m, flights, own⟩ [] ⟨m.onSignals (·.unparkFor w), flights.erase w, own⟩
  /-- Somebody notifies a thread for no reason. -/
  | stray {m own flights} (r : ParkerRef) :
      Step β σ ⟨m, flights, own⟩ [] ⟨m.onSignals (·.unpark r), flights, own⟩
  /-- Others change the world. -/
  | world {m own flights} (w : W) :
      Step β σ ⟨m, flights, own⟩ [] ⟨{ m with site := { m.site with world := w } }, flights, own⟩
  /-- Others make queues and parkers, and use those that are not the executor's. -/
  | elsewhere {m own flights signals}
      (h : m.site.signals.Spares signals m.site.executor.queue m.site.executor.parker) :
      Step β σ ⟨m, flights, own⟩ [] ⟨m.onSignals fun _ ↦ signals, flights, own⟩
  /-- Between the runs, a task is spawned. -/
  | spawn {m n site id flights} (b : B) (hc : m.calls = [])
      (h : m.site.spawn β b = (id, n, site)) :
      Step β σ ⟨m, flights, none⟩ n ⟨{ m with site }, flights, none⟩
  /-- A run to completion begins. -/
  | blockOn {m m' n flights} (b : B) (hc : m.calls = [])
      (h : Machine.enter β m.site [] b = (n, m')) :
      Step β σ ⟨m, flights, none⟩ n ⟨m', flights, none⟩
  /-- Between the runs, the thread sleeps for a limited time. -/
  | sleep {m flights} (hc : m.calls = []) :
      Step β σ ⟨m, flights, none⟩ []
        ⟨m.onSignals fun s ↦ (s.parkFor m.site.executor.parker).2, flights, none⟩

/-- **Any number of steps**, through ensembles with `P`, and their history. -/
inductive Run (β : Behaviour W B V) (σ : Surroundings W B V) (P : Ensemble W B V → Prop)
    (s₀ : Ensemble W B V) : List (Note V) → Ensemble W B V → Prop
  /-- No step. -/
  | refl : Run β σ P s₀ [] s₀
  /-- One more step. -/
  | step {h s n s'} (hr : Run β σ P s₀ h s) (hs : Step β σ s n s') (hp : P s') :
      Run β σ P s₀ (h ++ n) s'

namespace Run

variable {β : Behaviour W B V} {σ : Surroundings W B V} {P Q : Ensemble W B V → Prop}
  {s₀ s s' : Ensemble W B V} {h h' n : List (Note V)}

theorem mono (hPQ : ∀ s, P s → Q s) (hr : Run β σ P s₀ h s) : Run β σ Q s₀ h s := by
  induction hr with
  | refl => exact .refl
  | step _ hs hp ih => exact .step ih hs (hPQ _ hp)

theorem trans (h₁ : Run β σ P s₀ h s) (h₂ : Run β σ P s h' s') : Run β σ P s₀ (h ++ h') s' := by
  induction h₂ with
  | refl => simpa using h₁
  | step _ hs hp ih => simpa [List.append_assoc] using ih.step hs hp

theorem single (hs : Step β σ s n s') (hp : P s') : Run β σ P s n s' := by
  simpa using Run.refl.step hs hp

/-- A note in the history of a run has been left by one of its steps. -/
theorem exists_step {before after : List (Note V)} {k : Note V} (hr : Run β σ P s₀ h s)
    (hh : h = before ++ k :: after) :
    ∃ h₁ x y h₂ s₁ s₂, Run β σ P s₀ h₁ s₁ ∧ Step β σ s₁ (x ++ k :: y) s₂ ∧ P s₂ ∧
      Run β σ P s₂ h₂ s ∧ before = h₁ ++ x ∧ after = y ++ h₂ := by
  induction hr generalizing after with
  | refl => simp at hh
  | @step h s n s' hr hs hp ih =>
    -- The note has been left by the last step, or by an earlier one.
    rcases List.append_eq_append_iff.1 hh with ⟨x, rfl, rfl⟩ | ⟨y, rfl, hy⟩
    · exact ⟨h, x, after, [], s, s', hr, hs, hp, .refl, rfl, by simp⟩
    · cases y with
      | nil =>
        obtain rfl : k :: after = n := by simpa using hy
        exact ⟨before, [], after, [], s, s', by simpa using hr, hs, hp, .refl, by simp, by simp⟩
      | cons j y =>
        obtain ⟨rfl, rfl⟩ : k = j ∧ after = y ++ n := by simpa using hy
        obtain ⟨h₁, x, z, h₂, s₁, s₂, h1, h2, h3, h4, hb, ha⟩ := ih rfl
        exact ⟨h₁, x, z, h₂ ++ n, s₁, s₂, h1, h2, h3, h4.step hs hp, hb, by simp [ha]⟩

end Run

end Ensemble

end TaskRuntime
