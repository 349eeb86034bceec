import TaskRuntime.Net.Environment
import TaskRuntime.Proofs.Signals

/-!
# The loop of the reactor, step by step

`Reactor.turn` is one round of the loop, and tells which wakers are to be woken. Here the round is
taken apart into the atomic steps of the loop's thread: the look at the mark, the wait, for each
event the lookup of its waker, and for each waker the two halves of the wake. When the wait fails,
the failure is recorded and the stored wakers are copied in one step; then the mark is taken away,
and the copies are woken one after the other.

A loop that is left alone does in a round what `Reactor.turn` does, and then wakes
(`Reactor.plays_turn`).
-/

namespace TaskRuntime

namespace Reactor

variable {K : Type} [Kernel K]

/-- Where the loop is: what it is about to do. -/
inductive Watch
  /-- To look whether it is to go on. -/
  | testing
  /-- To wait for events. -/
  | waiting
  /-- To look up the waker for the next event, if there is one. -/
  | sorting (events : List Event)
  /-- To push for a waker. -/
  | pushing (w : Waker) (events : List Event)
  /-- To notify for a waker for which it has pushed. -/
  | notifying (w : Waker) (events : List Event)
  /-- To record why it has failed. -/
  | broken (reason : Bytes)
  /-- To take the mark away; the stored wakers have been copied. -/
  | unmarking (copies : List (Token × Waker))
  /-- To push for the next copy, if there is one. -/
  | alarming (copies : List (Token × Waker))
  /-- To notify for a copy for which it has pushed. -/
  | ringing (w : Waker) (copies : List (Token × Waker))
  /-- Nothing: it has ended. -/
  | stopped
  deriving Inhabited

/-- What the thread of the loop works on. -/
structure Scope (K : Type) where
  /-- System, configuration and reactor. -/
  environment : Environment K
  /-- Ready queues and parkers. -/
  signals : Signals
  /-- Where the loop is. -/
  watch : Watch := .testing

namespace Scope

/-- The loop has waited. -/
def waited (x : Scope K) : Except Failure Unit × EventBuffer × System K → Scope K
  | (.ok (), buffer, s) =>
    let reactor := { x.environment.reactor with buffer }
    { x with environment := { x.environment with toSystem := s, reactor }
             watch := .sorting buffer.events }
  | (.error e, buffer, s) =>
    let reactor := { x.environment.reactor with buffer }
    let failed (s : System K) : Scope K :=
      { x with environment := { x.environment with
                 toSystem :=
                   noteLoop s .error (Bytes.utf8 "Reactor: event loop failed: " ++ e.message)
                 reactor }
               watch := .broken e.message }
    match e with
    | .os errno _ =>
      if errno.isInterrupted then
        { x with environment := { x.environment with toSystem := s, reactor }, watch := .testing }
      else failed s
    | _ => failed s

/-- **One atomic step of the loop.** -/
def tick (x : Scope K) : Scope K :=
  let e := x.environment
  match x.watch with
  | .testing => { x with watch := if e.reactor.running then .waiting else .stopped }
  | .waiting => x.waited (Poller.wait e.toSystem e.reactor.poller e.reactor.buffer none)
  | .sorting [] => { x with watch := .testing }
  | .sorting (event :: rest) =>
    let (w, s) := e.reactor.dispatch e.toSystem event
    { x with environment := { e with toSystem := s }
             watch := w.elim (.sorting rest) fun w ↦ .pushing w rest }
  | .pushing w rest => { x with signals := x.signals.pushFor w, watch := .notifying w rest }
  | .notifying w rest => { x with signals := x.signals.unparkFor w, watch := .sorting rest }
  | .broken reason =>
    { x with environment := { e with reactor := { e.reactor with failure := some reason } }
             watch := .unmarking e.reactor.wakers.entries }
  | .unmarking copies =>
    { x with environment := { e with reactor := { e.reactor with running := false } }
             watch := .alarming copies }
  | .alarming [] => { x with watch := .stopped }
  | .alarming ((_, w) :: rest) =>
    { x with signals := x.signals.pushFor w, watch := .ringing w rest }
  | .ringing w rest => { x with signals := x.signals.unparkFor w, watch := .alarming rest }
  | .stopped => x

/-! ### A loop that is left alone -/

/-- So many steps of the loop, with nobody in between. -/
def play : Nat → Scope K → Scope K
  | 0, x => x
  | n + 1, x => play n x.tick

/-- A loop that is left alone gets from one position to another. -/
def Plays (x y : Scope K) : Prop := ∃ n, play n x = y

variable {x y : Scope K}

theorem Plays.refl : Plays x x := ⟨0, rfl⟩

theorem Plays.tick (h : Plays x.tick y) : Plays x y := by
  obtain ⟨n, hn⟩ := h
  exact ⟨n + 1, hn⟩

/-- The copies are woken one after the other. -/
theorem plays_alarming (e : Environment K) (s : Signals) (copies : List (Token × Waker)) :
    Plays ⟨e, s, .alarming copies⟩ ⟨e, s.wakeAll (copies.map Prod.snd), .stopped⟩ := by
  induction copies generalizing s with
  | nil => exact .tick .refl
  | cons c rest ih =>
    have hwake : s.wakeAll ((c :: rest).map Prod.snd) =
        ((s.pushFor c.2).unparkFor c.2).wakeAll (rest.map Prod.snd) := by
      rw [← Signals.wake_eq]
      rfl
    rw [hwake]
    exact .tick (.tick (ih _))

/-- The events are dispatched one after the other, and each waker is woken at once. -/
theorem plays_sorting (e : Environment K) (s : Signals) (events : List Event) :
    Plays ⟨e, s, .sorting events⟩
      ⟨{ e with toSystem := (e.reactor.dispatchAll events e.toSystem).2 },
        s.wakeAll (e.reactor.dispatchAll events e.toSystem).1, .testing⟩ := by
  induction events generalizing e s with
  | nil => exact .tick .refl
  | cons event rest ih =>
    refine .tick ?_
    rw [dispatchAll]
    dsimp only [tick]
    rcases e.reactor.dispatch e.toSystem event with ⟨w, t⟩
    have hrest := ih { e with toSystem := t }
    cases w with
    | none => exact hrest s
    | some w =>
      have hwake : s.wakeAll (w :: (e.reactor.dispatchAll rest t).1) =
          ((s.pushFor w).unparkFor w).wakeAll (e.reactor.dispatchAll rest t).1 := by
        rw [← Signals.wake_eq]
        rfl
      refine .tick (.tick ?_)
      show Plays _ ⟨_, s.wakeAll (w :: (e.reactor.dispatchAll rest t).1), _⟩
      rw [hwake]
      exact hrest _

/-- What is dispatched does not depend on the buffer of the loop. -/
theorem dispatchAll_buffer (r : Reactor) (b : EventBuffer) (events : List Event) (s : System K) :
    { r with buffer := b }.dispatchAll events s = r.dispatchAll events s := by
  induction events generalizing s with
  | nil => rfl
  | cons event rest ih =>
    have hd : { r with buffer := b }.dispatch s event = r.dispatch s event := rfl
    rw [dispatchAll, dispatchAll, hd]
    dsimp only
    rw [ih]

/-- A loop that has failed records the reason, takes the mark away and wakes the copies. -/
theorem plays_broken (e : Environment K) (s : Signals) (reason : Bytes) :
    Plays ⟨e, s, .broken reason⟩
      ⟨{ e with reactor := { e.reactor with failure := some reason, running := false } },
        s.wakeAll e.reactor.wakers.values, .stopped⟩ :=
  .tick (.tick (plays_alarming _ _ _))

/-- A loop that waits and is left alone does what the function does after its test, whether it is
still marked as running or not. -/
theorem plays_waiting (e : Environment K) (s : Signals) : ∃ w,
    Plays ⟨e, s, .waiting⟩
      ⟨{ e with toSystem := (e.reactor.turn e.toSystem).2.2
                reactor := (e.reactor.turn e.toSystem).2.1 },
        s.wakeAll (e.reactor.turn e.toSystem).1, w⟩ ∧
      (w = .testing ∧ (e.reactor.turn e.toSystem).2.1.running = e.reactor.running ∨
        w = .stopped ∧ (e.reactor.turn e.toSystem).2.1.running = false) := by
  suffices h : ∃ w, Plays (tick ⟨e, s, .waiting⟩) _ ∧ _ from h.imp fun _ h ↦ ⟨.tick h.1, h.2⟩
  rw [tick, turn]
  dsimp only
  rcases Poller.wait e.toSystem e.reactor.poller e.reactor.buffer none with ⟨x | u, buffer, t⟩
  · -- The wait has failed: either it is repeated, or the loop ends.
    have hfail : Plays (K := K) _ _ := plays_broken
      ({ e with toSystem := noteLoop t .error
                  (Bytes.utf8 "Reactor: event loop failed: " ++ x.message)
                reactor := { e.reactor with buffer } }) s x.message
    cases x with
    | os errno doing =>
      dsimp only [waited]
      split
      · exact ⟨.testing, .refl, .inl ⟨rfl, rfl⟩⟩
      · exact ⟨.stopped, hfail, .inr ⟨rfl, rfl⟩⟩
    | _ => exact ⟨.stopped, hfail, .inr ⟨rfl, rfl⟩⟩
  · have hsort := plays_sorting ({ e with toSystem := t, reactor := { e.reactor with buffer } }) s
      buffer.events
    rw [dispatchAll_buffer] at hsort
    exact ⟨.testing, hsort, .inl ⟨rfl, rfl⟩⟩

/-- **A round of a loop that is left alone is the function**, followed by the wakes. -/
theorem plays_turn (e : Environment K) (s : Signals) (hr : e.reactor.running = true) :
    Plays ⟨e, s, .testing⟩
      ⟨{ e with toSystem := (e.reactor.turn e.toSystem).2.2
                reactor := (e.reactor.turn e.toSystem).2.1 },
        s.wakeAll (e.reactor.turn e.toSystem).1,
        if (e.reactor.turn e.toSystem).2.1.running then .testing else .stopped⟩ := by
  have htest : tick ⟨e, s, .testing⟩ = ⟨e, s, .waiting⟩ := by rw [tick, hr]; rfl
  refine .tick ?_
  rw [htest]
  obtain ⟨w, hplays, ⟨rfl, hrunning⟩ | ⟨rfl, hrunning⟩⟩ := plays_waiting e s
  · rwa [hrunning, hr]
  · rwa [hrunning]

end Scope

end Reactor

end TaskRuntime
