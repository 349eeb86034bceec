import TaskRuntime.Proofs.Armed
import TaskRuntime.Kernel.Host

/-!
# What the loop of the reactor dispatches

The loop waits, and dispatches the events that it gets one after the other; others leave and drop
wakers at any time. Everything that is done is told in order (`Reactor.Deed`): wakers left and
dropped, the outcomes of the waits, events dispatched, wakes, and at the end the failure and the
wakes that follow it.

## The specification

It is read off the deeds alone.

* `Reactor.holders` is who is to be woken for which token: the waker that has been left last for it
  and has not been dropped since (`Reactor.holders_eq_some`).
* `Reactor.dues` are the wakes that are due to the events dispatched: none to an event of the
  notifier, and otherwise the one of the waker that is held at the time, if there is one.

`Reactor.Scope.Course.dispatches` says that the loop does just this, whatever the kernel makes of
the waits: what it dispatches are the events of all batches in their order, none left out and none
repeated, and after a failed wait nothing is dispatched again; the wakes are those due; and with the
first failure that is not an interruption the loop ends, and wakes each stored waker once. What
`Reactor.turn` does in a round is part of this (`Reactor.Scope.Course.turn`).
-/

namespace TaskRuntime

namespace Reactor

/-- Something that is done about a reactor. -/
inductive Deed
  /-- A waker has been left under a token. -/
  | left (t : Token) (w : Waker)
  /-- The waker of a token has been dropped. -/
  | forgotten (t : Token)
  /-- A wait has come back with a batch of events. -/
  | fetched (events : List Event)
  /-- A wait has failed. -/
  | missed (e : Errno)
  /-- An event has been dispatched: its waker has been looked up. -/
  | taken (event : Event)
  /-- The waker that has been looked up is woken. -/
  | woken (w : Waker)
  /-- The failure of the loop has been recorded. -/
  | recorded (reason : Bytes)
  /-- After the failure, the copy of the waker of a token is woken. -/
  | alarmed (t : Token) (w : Waker)

namespace Deed

/-- Replaces or drops the waker of a token. -/
def Touches (t : Token) : Deed → Prop
  | left u _ => u = t
  | forgotten u => u = t
  | _ => False

/-- Done by others than the loop. -/
def Outside : Deed → Prop
  | left _ _ => True
  | forgotten _ => True
  | _ => False

/-- Wakes a copy, or is done by others. -/
def Closing : Deed → Prop
  | alarmed _ _ => True
  | d => d.Outside

/-- The events of a batch. -/
def batch : Deed → List Event
  | fetched events => events
  | _ => []

/-- The event that has been dispatched. -/
def event? : Deed → Option Event
  | taken e => some e
  | _ => none

/-- The waker that is woken for an event. -/
def waker? : Deed → Option Waker
  | woken w => some w
  | _ => none

/-- The copy that is woken. -/
def copy? : Deed → Option (Token × Waker)
  | alarmed t w => some (t, w)
  | _ => none

/-- Who is to be woken for which token afterwards. -/
def after (held : Token → Option Waker) : Deed → Token → Option Waker
  | left t w => fun u ↦ if t = u then some w else held u
  | forgotten t => fun u ↦ if t = u then none else held u
  | _ => held

/-- **The wake that is due** when certain wakers are held. -/
def due (held : Token → Option Waker) : Deed → List Waker
  | taken e => if e.token = notifyToken then [] else (held e.token).toList
  | _ => []

end Deed

/-- The events of all batches, in order. -/
def fetched (h : List Deed) : List Event := h.flatMap Deed.batch

/-- The events that have been dispatched, in order. -/
def taken (h : List Deed) : List Event := h.filterMap Deed.event?

/-- The wakes for events, in order. -/
def wakes (h : List Deed) : List Waker := h.filterMap Deed.waker?

/-- The wakes after the failure, in order. -/
def copies (h : List Deed) : List (Token × Waker) := h.filterMap Deed.copy?

/-- **Who is to be woken for which token** after some deeds. -/
def holders (held : Token → Option Waker) (h : List Deed) : Token → Option Waker :=
  h.foldl Deed.after held

/-- **The wakes that are due** to some deeds. -/
def dues (held : Token → Option Waker) : List Deed → List Waker
  | [] => []
  | d :: h => d.due held ++ dues (d.after held) h

section

variable {held : Token → Option Waker} {h n : List Deed} {d : Deed}

@[simp] theorem fetched_append : fetched (h ++ n) = fetched h ++ fetched n := List.flatMap_append

@[simp] theorem taken_append : taken (h ++ n) = taken h ++ taken n := List.filterMap_append

@[simp] theorem wakes_append : wakes (h ++ n) = wakes h ++ wakes n := List.filterMap_append

@[simp] theorem copies_append : copies (h ++ n) = copies h ++ copies n := List.filterMap_append

theorem holders_append : holders held (h ++ n) = holders (holders held h) n := List.foldl_append

theorem dues_append : dues held (h ++ n) = dues held h ++ dues (holders held h) n := by
  induction h generalizing held with
  | nil => rfl
  | cons d h ih =>
    rw [List.cons_append, dues, ih, ← List.append_assoc]
    rfl

/-- What a deed does to who is to be woken. -/
theorem after_eq_some {t : Token} {w : Waker} :
    d.after held t = some w ↔ d = .left t w ∨ held t = some w ∧ ¬ d.Touches t := by
  cases d with
  | left u v =>
    by_cases ht : u = t
    · subst ht
      simp [Deed.after, Deed.Touches]
    · simp [Deed.after, Deed.Touches, ht]
  | forgotten u =>
    by_cases ht : u = t
    · subst ht
      simp [Deed.after, Deed.Touches]
    · simp [Deed.after, Deed.Touches, ht]
  | _ => simp [Deed.after, Deed.Touches]

/-- **Who is to be woken** is who has been left last and not been dropped since, or has been there
from the beginning. -/
theorem holders_eq_some {t : Token} {w : Waker} :
    holders held h t = some w ↔
      Since (· = .left t w) (Deed.Touches t) h ∨ held t = some w ∧ ∀ d ∈ h, ¬ d.Touches t := by
  induction h generalizing held with
  | nil => simp [holders, not_since_nil]
  | cons d h ih =>
    have hfirst : Since (· = .left t w) (Deed.Touches t) [d] ↔ d = .left t w := by
      rw [← List.nil_append [d], since_concat]
      simp [not_since_nil]
    show holders (d.after held) h t = some w ↔ Since _ _ ([d] ++ h) ∨ _
    rw [ih, after_eq_some, since_append, hfirst, List.forall_mem_cons, or_and_right, or_assoc,
      and_assoc]

end

/-! ### The steps of the loop -/

namespace Watch

/-- The events that are still to be dispatched. -/
def queued : Watch → List Event
  | sorting events => events
  | pushing _ events => events
  | notifying _ events => events
  | _ => []

/-- The waker that has been looked up and is about to be woken. -/
def hand : Watch → List Waker
  | pushing w _ => [w]
  | _ => []

/-- The loop has not failed. -/
def Healthy (w : Watch) : Prop := w.Unharmed ∧ ∀ reason, w ≠ .broken reason

end Watch

variable {K : Type} [Kernel K]

namespace Scope

/-- **What a step of the loop does.** A wake is told with its first half, the push. -/
def deeds (x : Scope K) : List Deed :=
  let r := x.environment.reactor
  match x.watch with
  | .waiting =>
    match (Kernel.wait x.environment.kernel r.poller r.buffer.count none).1 with
    | .ok events => [.fetched events]
    | .error e => [.missed e]
  | .sorting (event :: _) => [.taken event]
  | .pushing w _ => [.woken w]
  | .broken reason => [.recorded reason]
  | .alarming ((t, w) :: _) => [.alarmed t w]
  | _ => []

/-- Why the loop fails when a wait does. -/
def reason (e : Errno) : Bytes := (Failure.os e (Bytes.utf8 "epoll_wait")).message

variable {x : Scope K} {held : Token → Option Waker} {e : Errno}

/-- **A wait**: the loop goes on with the batch, or waits again, or breaks. -/
theorem deeds_waiting (hw : x.watch = .waiting) :
    (∃ events, x.deeds = [.fetched events] ∧ x.tick.watch = .sorting events) ∨
      (x.deeds = [.missed .interrupted] ∧ x.tick.watch = .testing) ∨
      ∃ e, e ≠ .interrupted ∧ x.deeds = [.missed e] ∧ x.tick.watch = .broken (reason e) := by
  rw [tick, deeds, hw]
  dsimp only [Poller.wait, System.call]
  rcases Kernel.wait x.environment.kernel x.environment.reactor.poller
    x.environment.reactor.buffer.count none with ⟨e | events, k⟩
  · right
    by_cases he : e = .interrupted
    · left
      subst he
      exact ⟨rfl, rfl⟩
    · right
      refine ⟨e, he, rfl, ?_⟩
      dsimp only [waited]
      rw [if_neg (by simpa [Errno.isInterrupted] using he)]
      rfl
  · exact .inl ⟨events, rfl, rfl⟩

/-- **Events** are dispatched in order, and what is fetched is queued. -/
theorem queued_tick (x : Scope K) :
    x.watch.queued ++ fetched x.deeds = taken x.deeds ++ x.tick.watch.queued := by
  obtain ⟨env, s, watch⟩ := x
  cases watch with
  | waiting =>
    rcases deeds_waiting (x := ⟨env, s, .waiting⟩) rfl with ⟨events, hd, ht⟩ | ⟨hd, ht⟩ |
      ⟨e, -, hd, ht⟩ <;>
    rw [hd, ht] <;> simp [Watch.queued, fetched, taken, Deed.batch, Deed.event?]
  | testing =>
    rw [tick]
    dsimp only
    split <;> rfl
  | sorting events =>
    cases events with
    | nil => rfl
    | cons event rest =>
      rw [tick]
      dsimp only
      rcases env.reactor.dispatch env.toSystem event with ⟨_ | w, t⟩ <;>
        simp [Watch.queued, deeds, fetched, taken, Deed.batch, Deed.event?]
  | alarming copies => cases copies <;> rfl
  | _ => simp [Watch.queued, deeds, fetched, taken, tick, Deed.batch, Deed.event?]

/-- **Wakes**: the loop wakes the waker in its hand, and takes up the one that is held for the event
it dispatches. -/
theorem hand_tick (hs : ∀ t, x.environment.reactor.wakers.get? t = held t) :
    wakes x.deeds ++ x.tick.watch.hand = x.watch.hand ++ dues held x.deeds := by
  obtain ⟨env, s, watch⟩ := x
  cases watch with
  | waiting =>
    rcases deeds_waiting (x := ⟨env, s, .waiting⟩) rfl with ⟨events, hd, ht⟩ | ⟨hd, ht⟩ |
      ⟨e, -, hd, ht⟩ <;> rw [hd, ht] <;> rfl
  | testing =>
    rw [tick]
    dsimp only
    split <;> rfl
  | sorting events =>
    cases events with
    | nil => rfl
    | cons event rest =>
      have hlook : (env.reactor.dispatch env.toSystem event).1 =
          if event.token = notifyToken then none else held event.token := by
        rw [dispatch_fst, ← hs]
      have hdue : dues held [.taken event] =
          (env.reactor.dispatch env.toSystem event).1.toList := by
        rw [hlook, dues, dues, List.append_nil, Deed.due]
        split <;> rfl
      show _ = [] ++ dues held [.taken event]
      rw [hdue, tick]
      dsimp only
      rcases env.reactor.dispatch env.toSystem event with ⟨_ | w, t⟩ <;> rfl
  | alarming copies => cases copies <;> rfl
  | _ => rfl

/-- The loop neither leaves nor drops wakers. -/
theorem after_deeds (x : Scope K) : holders held x.deeds = held := by
  unfold deeds
  dsimp only
  split
  case h_1 => split <;> rfl
  all_goals rfl

/-! ### Runs -/

/-- **A step** of the loop or of others, and what it does. Others leave wakers as long as they are
not refused, and drop them. Whatever else they do to the environment and to the queues, they do not
record a failure, and do not mark the loop as running. -/
inductive Step (x : Scope K) : List Deed → Scope K → Prop
  /-- Somebody leaves a waker. -/
  | leave (t : Token) (w : Waker) {e : Environment K}
      (he : x.environment.setWaker t w = (.ok (), e)) :
      Step x [.left t w] { x with environment := e }
  /-- Somebody drops a waker. -/
  | forget (t : Token) :
      Step x [.forgotten t]
        { x with environment := { x.environment with
                 reactor := { x.environment.reactor with
                              wakers := x.environment.reactor.wakers.erase t } } }
  /-- Somebody does something else. -/
  | other {e : Environment K} (s : Signals)
      (hf : e.reactor.failure = x.environment.reactor.failure)
      (hw : e.reactor.wakers = x.environment.reactor.wakers)
      (hr : e.reactor.running = true → x.environment.reactor.running = true) :
      Step x [] { x with environment := e, signals := s }
  /-- The loop makes a step. -/
  | loop : Step x x.deeds x.tick

/-- Some steps, with what they do. -/
inductive Course (x₀ : Scope K) : List Deed → Scope K → Prop
  /-- No step. -/
  | refl : Course x₀ [] x₀
  /-- One more step. -/
  | step {h n : List Deed} {x x' : Scope K} (hr : Course x₀ h x) (hs : Step x n x') :
    Course x₀ (h ++ n) x'

variable {x₀ x' : Scope K} {h n before after : List Deed}

/-! ### The order of events and wakes -/

/-- **Batches, events, wakes and stored wakers** belong together. -/
structure InStep (held : Token → Option Waker) (h : List Deed) (x : Scope K) : Prop where
  /-- The events of all batches are those that have been dispatched and those that are queued. -/
  events : fetched h = taken h ++ x.watch.queued
  /-- The wakes that are due are those that have been performed and the one in hand. -/
  wakes : wakes h ++ x.watch.hand = dues held h
  /-- Who is to be woken for a token is stored under it. -/
  stored : ∀ t, x.environment.reactor.wakers.get? t = holders held h t

omit [Kernel K] in
/-- What others do: the events and wakes do not change. -/
theorem InStep.outside (hi : InStep held h x) {d : Deed} (hd : d.Outside) (hw : x'.watch = x.watch)
    (hs : ∀ t, x'.environment.reactor.wakers.get? t = d.after (holders held h) t) :
    InStep held (h ++ [d]) x' := by
  have hd : fetched [d] = [] ∧ taken [d] = [] ∧ Reactor.wakes [d] = [] ∧
      dues (holders held h) [d] = [] := by
    cases d <;> first | exact hd.elim | exact ⟨rfl, rfl, rfl, rfl⟩
  obtain ⟨hf, ht, hws, hdues⟩ := hd
  refine ⟨?_, ?_, fun t ↦ ?_⟩
  · rw [fetched_append, hf, taken_append, ht, List.append_nil, List.append_nil, hw, hi.events]
  · rw [wakes_append, hws, dues_append, hdues, List.append_nil, List.append_nil, hw, hi.wakes]
  · rw [hs, holders_append]
    rfl

/-- **Every step** keeps the order. -/
theorem Step.inStep (hm : Step x n x') (hi : InStep held h x) : InStep held (h ++ n) x' := by
  cases hm with
  | leave t w he =>
    have hset := ReadToEnd.Reading.of_setWaker t w (congrArg Prod.fst he)
    rw [he] at hset
    obtain rfl := hset
    refine hi.outside trivial rfl fun u ↦ ?_
    show (x.environment.reactor.wakers.insert t w).get? u = _
    rw [Table.get?_insert, hi.stored]
    rfl
  | forget t =>
    refine hi.outside trivial rfl fun u ↦ ?_
    show (x.environment.reactor.wakers.erase t).get? u = _
    rw [Table.get?_erase, hi.stored]
    rfl
  | other s hf hw hr =>
    rw [List.append_nil]
    exact ⟨hi.events, hi.wakes, fun t ↦ hw ▸ hi.stored t⟩
  | loop =>
    refine ⟨?_, ?_, fun t ↦ ?_⟩
    · rw [fetched_append, hi.events, List.append_assoc, queued_tick, taken_append,
        List.append_assoc]
    · rw [wakes_append, List.append_assoc, hand_tick hi.stored, ← List.append_assoc, hi.wakes,
        dues_append]
    · rw [(reactor_tick x).2, hi.stored, holders_append, after_deeds]

/-! ### The failure -/

/-- **No failure so far**: every wait that has failed was interrupted. -/
structure Unbroken (h : List Deed) (x : Scope K) : Prop where
  /-- Only interruptions have happened. -/
  interrupted : ∀ e, .missed e ∈ h → e = .interrupted
  /-- No failure is stored. -/
  failure : x.environment.reactor.failure = none
  /-- The loop does not end because of a failure. -/
  watch : x.watch.Healthy
  /-- No copies have been woken. -/
  copies : copies h = []

/-- **The failure has been recorded**, after some deeds and before some others. -/
structure Recorded (held : Token → Option Waker) (reason : Bytes) (earlier later : List Deed)
    (x : Scope K) : Prop where
  /-- The reason is stored. -/
  failure : x.environment.reactor.failure = some reason
  /-- All that the loop has done since is to wake copies. -/
  closing : ∀ d ∈ later, d.Closing
  /-- The copies that have been woken and those that are still to be woken are those of all wakers
  that were stored. -/
  copies : ∃ (stored : Table Token Waker) (rest : List (Token × Waker)),
    (∀ t, stored.get? t = holders held earlier t) ∧ x.watch.Alarms rest ∧
      copies later ++ rest = stored.entries
  /-- The mark of running is taken away before the first copy is woken. -/
  mark : (∃ l, x.watch = .unmarking l) ∨ x.environment.reactor.running = false

/-- **A wait has failed** for a reason other than an interruption, after some deeds and before some
others. -/
structure Broken (held : Token → Option Waker) (before : List Deed) (e : Errno)
    (after : List Deed) (x : Scope K) : Prop where
  /-- It was not interrupted. -/
  cause : e ≠ .interrupted
  /-- It is the first: the waits that have failed before were interrupted. -/
  interrupted : ∀ e', .missed e' ∈ before → e' = .interrupted
  /-- No copies were woken before. -/
  quiet : copies before = []
  /-- The loop has done nothing since, and is about to record the failure; or that is the first that
  it has done. -/
  recorded :
    (x.watch = .broken (reason e) ∧ x.environment.reactor.failure = none ∧
      ∀ d ∈ after, d.Outside) ∨
    ∃ between later, after = between ++ .recorded (reason e) :: later ∧
      (∀ d ∈ between, d.Outside) ∧
      Recorded held (reason e) (before ++ .missed e :: between) later x

section

variable {earlier later : List Deed} {r : Bytes}

omit [Kernel K] in
/-- What others do wakes no copies. -/
theorem copies_outside (hn : ∀ d ∈ n, d.Outside) : copies n = [] :=
  List.filterMap_eq_nil_iff.2 fun d hd ↦ by
    have ho := hn d hd
    cases d <;> first | exact ho.elim | rfl

/-- A step is one of the loop, or others leave or drop a waker, or do something else. -/
theorem Step.loop_or_outside (hs : Step x n x') :
    (n = x.deeds ∧ x' = x.tick) ∨ (∀ d ∈ n, d.Outside) ∧
      x'.environment.reactor.failure = x.environment.reactor.failure ∧ x'.watch = x.watch ∧
      (x'.environment.reactor.running = true → x.environment.reactor.running = true) := by
  cases hs with
  | leave t w he =>
    have hset := ReadToEnd.Reading.of_setWaker t w (congrArg Prod.fst he)
    rw [he] at hset
    obtain rfl := hset
    exact .inr ⟨by simp [Deed.Outside], rfl, rfl, id⟩
  | forget t => exact .inr ⟨by simp [Deed.Outside], rfl, rfl, id⟩
  | other s hf hw hr => exact .inr ⟨by simp, hf, rfl, hr⟩
  | loop => exact .inl ⟨rfl, rfl⟩

omit [Kernel K] in
/-- Others cannot fail, nor wake copies. -/
theorem Unbroken.outside (hu : Unbroken h x) (hn : ∀ d ∈ n, d.Outside)
    (hf : x'.environment.reactor.failure = x.environment.reactor.failure)
    (hw : x'.watch = x.watch) : Unbroken (h ++ n) x' where
  interrupted e he := hu.interrupted e ((List.mem_append.1 he).resolve_right (hn _))
  failure := hf.trans hu.failure
  watch := hw ▸ hu.watch
  copies := by rw [copies_append, hu.copies, copies_outside hn, List.append_nil]

/-- But for the wait, the steps of a loop that has not failed neither fail nor wake copies. -/
theorem healthy_tick (hw : x.watch.Healthy) (hne : x.watch ≠ .waiting) :
    x.tick.watch.Healthy ∧ copies x.deeds = [] ∧ ∀ e, .missed e ∉ x.deeds := by
  obtain ⟨env, s, watch⟩ := x
  cases watch with
  | testing =>
    refine ⟨?_, rfl, by simp [deeds]⟩
    rw [tick]
    dsimp only
    split <;> exact ⟨trivial, fun _ h ↦ by cases h⟩
  | waiting => exact absurd rfl hne
  | sorting events =>
    cases events with
    | nil => exact ⟨⟨trivial, fun _ h ↦ by cases h⟩, rfl, by simp [deeds]⟩
    | cons event rest =>
      refine ⟨?_, rfl, by simp [deeds]⟩
      rw [tick]
      dsimp only
      rcases env.reactor.dispatch env.toSystem event with ⟨_ | w, t⟩ <;>
        exact ⟨trivial, fun _ h ↦ by cases h⟩
  | broken reason => exact absurd rfl (hw.2 reason)
  | unmarking l => exact hw.1.elim
  | alarming l => exact hw.1.elim
  | ringing w l => exact hw.1.elim
  | _ => exact ⟨⟨trivial, fun _ h ↦ by cases h⟩, rfl, by simp [deeds]⟩

/-- **The loop** does not fail, or it does in a wait. -/
theorem Unbroken.loop (hu : Unbroken h x) :
    Unbroken (h ++ x.deeds) x.tick ∨ ∃ e, x.deeds = [.missed e] ∧ Broken held h e [] x.tick := by
  have hf := (tick_of_unharmed hu.watch.1 hu.watch.2).2.2.1.trans hu.failure
  by_cases hw : x.watch = .waiting
  · rcases deeds_waiting hw with ⟨events, hd, ht⟩ | ⟨hd, ht⟩ | ⟨e, he, hd, ht⟩
    · left
      rw [hd]
      exact ⟨by simpa using hu.interrupted, hf, ht ▸ ⟨trivial, nofun⟩,
        by rw [copies_append, hu.copies]; rfl⟩
    · left
      rw [hd]
      refine ⟨fun e he ↦ ?_, hf, ht ▸ ⟨trivial, nofun⟩, by rw [copies_append, hu.copies]; rfl⟩
      rcases List.mem_append.1 he with he | he
      · exact hu.interrupted e he
      · exact Deed.missed.inj (List.mem_singleton.1 he)
    · right
      exact ⟨e, hd, he, hu.interrupted, hu.copies, .inl ⟨ht, hf, by simp⟩⟩
  · left
    obtain ⟨hhealthy, hcopies, hmissed⟩ := healthy_tick hu.watch hw
    refine ⟨fun e he ↦ ?_, hf, hhealthy, by rw [copies_append, hu.copies, hcopies]; rfl⟩
    exact hu.interrupted e ((List.mem_append.1 he).resolve_right (hmissed e))

omit [Kernel K] in
/-- Others cannot take a failure back. -/
theorem Recorded.outside (hr : Recorded held r earlier later x) (hn : ∀ d ∈ n, d.Outside)
    (hf : x'.environment.reactor.failure = x.environment.reactor.failure)
    (hw : x'.watch = x.watch)
    (hm : x'.environment.reactor.running = true → x.environment.reactor.running = true) :
    Recorded held r earlier (later ++ n) x' where
  failure := hf.trans hr.failure
  closing d hd := (List.mem_append.1 hd).elim (hr.closing d) fun hd ↦ by
    have ho := hn d hd
    cases d <;> first | exact ho.elim | exact ho
  copies := by
    rw [copies_append, copies_outside hn, List.append_nil, hw]
    exact hr.copies
  mark := by
    rw [hw]
    refine hr.mark.imp_right fun hoff ↦ ?_
    rw [Bool.eq_false_iff] at hoff ⊢
    exact hoff ∘ hm

/-- After the failure has been recorded, the loop takes the mark of running away, and then wakes
copies. -/
theorem deeds_of_alarms {l : List (Token × Waker)} (hl : x.watch.Alarms l)
    (hm : (∃ l, x.watch = .unmarking l) ∨ x.environment.reactor.running = false) :
    copies x.deeds = alarms x.tells ∧ (∀ d ∈ x.deeds, d.Closing) ∧
      x.tick.environment.reactor.running = false := by
  obtain ⟨env, s, watch⟩ := x
  cases hl with
  | unmarking => exact ⟨rfl, by simp [deeds], rfl⟩
  | alarming =>
    have hoff : env.reactor.running = false := hm.resolve_left (by simp)
    cases l with
    | nil => exact ⟨rfl, by simp [deeds], hoff⟩
    | cons c l => exact ⟨rfl, by simp [deeds, Deed.Closing], hoff⟩
  | ringing w => exact ⟨rfl, by simp [deeds], hm.resolve_left (by simp)⟩
  | stopped => exact ⟨rfl, by simp [deeds], hm.resolve_left (by simp)⟩

/-- **The loop** wakes the next copy, or does nothing. -/
theorem Recorded.loop (hr : Recorded held r earlier later x) :
    Recorded held r earlier (later ++ x.deeds) x.tick := by
  obtain ⟨stored, l, hstored, hl, hcopies⟩ := hr.copies
  obtain ⟨hf, -, rest, hrest, hnext⟩ := tick_of_alarms hl
  obtain ⟨hdeeds, hclosing, hoff⟩ := deeds_of_alarms hl hr.mark
  refine ⟨hf.trans hr.failure, fun d hd ↦ ?_, ⟨stored, rest, hstored, hrest, ?_⟩, .inr hoff⟩
  · exact (List.mem_append.1 hd).elim (hr.closing d) (hclosing d)
  · rw [copies_append, hdeeds, List.append_assoc, hnext, hcopies]

omit [Kernel K] in
/-- Others cannot take a failure back, recorded or not. -/
theorem Broken.outside (hx : Broken held before e after x) (hn : ∀ d ∈ n, d.Outside)
    (hf : x'.environment.reactor.failure = x.environment.reactor.failure)
    (hw : x'.watch = x.watch)
    (hm : x'.environment.reactor.running = true → x.environment.reactor.running = true) :
    Broken held before e (after ++ n) x' where
  cause := hx.cause
  interrupted := hx.interrupted
  quiet := hx.quiet
  recorded := by
    rcases hx.recorded with ⟨hwatch, hnone, hout⟩ | ⟨between, later, rfl, hout, hr⟩
    · exact .inl ⟨hw.trans hwatch, hf.trans hnone, fun d hd ↦
        (List.mem_append.1 hd).elim (hout d) (hn d)⟩
    · exact .inr ⟨between, later ++ n, by simp, hout, hr.outside hn hf hw hm⟩

/-- **The loop** records the failure, or goes on to wake copies. -/
theorem Broken.loop (hx : Broken held before e after x)
    (hi : InStep held (before ++ .missed e :: after) x) :
    Broken held before e (after ++ x.deeds) x.tick where
  cause := hx.cause
  interrupted := hx.interrupted
  quiet := hx.quiet
  recorded := by
    right
    rcases hx.recorded with ⟨hwatch, -, hout⟩ | ⟨between, later, rfl, hout, hr⟩
    · refine ⟨after, [], by rw [deeds, hwatch], hout, ?_, by simp, ?_, ?_⟩
      · rw [tick, hwatch]
      · refine ⟨_, _, hi.stored, ?_, rfl⟩
        rw [tick, hwatch]
        exact .unmarking _
      · rw [tick, hwatch]
        exact .inl ⟨_, rfl⟩
    · exact ⟨between, later ++ x.deeds, by simp, hout, hr.loop⟩

/-- A loop that has failed and is left alone comes to its end. -/
theorem Broken.ends (hx : Broken held before e after x) : ∃ y, Plays x y ∧ y.watch = .stopped := by
  obtain ⟨env, s, watch⟩ := x
  rcases hx.recorded with ⟨hwatch, -, -⟩ | ⟨between, later, -, -, hr⟩
  · obtain rfl : watch = .broken (reason e) := hwatch
    exact ⟨_, plays_broken env s _, rfl⟩
  · obtain ⟨-, l, -, hl, -⟩ := hr.copies
    cases hl with
    | unmarking => exact ⟨_, .tick (plays_alarming _ s l), rfl⟩
    | alarming => exact ⟨_, plays_alarming env s l, rfl⟩
    | ringing w => exact ⟨_, .tick (plays_alarming env _ l), rfl⟩
    | stopped => exact ⟨_, .refl, rfl⟩

end

/-! ### What the loop does in a run -/

/-- **What a loop has dispatched**, with certain wakers held at the beginning. -/
structure Dispatches (held : Token → Option Waker) (h : List Deed) (x : Scope K) : Prop
    extends InStep held h x where
  /-- No wait has failed but for interruptions; or the first failure that is not an interruption has
  ended the loop, which goes on to wake each stored waker once. -/
  outcome : Unbroken h x ∨ ∃ before e after, h = before ++ .missed e :: after ∧
    Broken held before e after x ∧ ∃ y, Plays x y ∧ y.watch = .stopped

/-- **Every step** keeps it. -/
theorem Step.keeps (hs : Step x n x') (hd : Dispatches held h x) :
    Dispatches held (h ++ n) x' where
  toInStep := hs.inStep hd.toInStep
  outcome := by
    rcases hd.outcome with hu | ⟨before, e, after, rfl, hx, -⟩
    · obtain ⟨rfl, rfl⟩ | ⟨hn, hf, hw, -⟩ := hs.loop_or_outside
      · exact hu.loop.imp_right fun ⟨e, he, hx⟩ ↦ ⟨h, e, [], by rw [he], hx, hx.ends⟩
      · exact .inl (hu.outside hn hf hw)
    · right
      have hx' : Broken held before e (after ++ n) x' := by
        obtain ⟨rfl, rfl⟩ | ⟨hn, hf, hw, hm⟩ := hs.loop_or_outside
        · exact hx.loop hd.toInStep
        · exact hx.outside hn hf hw hm
      exact ⟨before, e, after ++ n, by simp, hx', hx'.ends⟩

/-- **The loop dispatches what it fetches**, whatever the waits come back with and whatever others
do in between, and wakes whom it has to wake. -/
theorem Course.dispatches (hr : Course x₀ h x) (hf : x₀.environment.reactor.failure = none)
    (hw : x₀.watch = .testing) : Dispatches x₀.environment.reactor.wakers.get? h x := by
  induction hr with
  | refl =>
    refine ⟨⟨?_, ?_, fun _ ↦ rfl⟩, .inl ⟨by simp, hf, ?_, rfl⟩⟩
    · rw [hw]
      rfl
    · rw [hw]
      rfl
    · rw [hw]
      exact ⟨trivial, nofun⟩
  | step _ hs ih => exact hs.keeps ih

/-- A loop that is left alone makes its steps. -/
theorem Course.plays {y : Scope K} (hr : Course x₀ h x) (hp : Plays x y) :
    ∃ n, Course x₀ (h ++ n) y := by
  obtain ⟨k, rfl⟩ := hp
  induction k generalizing h x with
  | zero => exact ⟨[], (List.append_nil h).symm ▸ hr⟩
  | succ k ih =>
    obtain ⟨n, hn⟩ := ih (hr.step .loop)
    rw [List.append_assoc] at hn
    exact ⟨_, hn⟩

/-- **A round of the function** is a round of the loop, with nobody in between. -/
theorem Course.turn {s : Signals} {env : Environment K} (hr : Course x₀ h ⟨env, s, .testing⟩)
    (hm : env.reactor.running = true) :
    ∃ n, Course x₀ (h ++ n)
      ⟨{ env with toSystem := (env.reactor.turn env.toSystem).2.2
                  reactor := (env.reactor.turn env.toSystem).2.1 },
        s.wakeAll (env.reactor.turn env.toSystem).1,
        if (env.reactor.turn env.toSystem).2.1.running then .testing else .stopped⟩ :=
  hr.plays (plays_turn env s hm)

/-- A pipe and a notifier that a poller watches and that both have something to read, and a loop
that is about to look at its mark. -/
def bustle : Scope Host where
  environment :=
    let h := (Host.createNotifier (Host.createPoller (Host.openPipe default).2).2).2
    let h := (h.add 102 103 ⟨Interests.readable, notifyToken⟩).2
    let h := (h.add 102 100 ⟨Interests.readable ||| Interests.edge, 5⟩).2
    { kernel := ((h.write 103 [1]).2.write 101 [7]).2
      reactor :=
        { poller := 102, notifier := 103, started := true, running := true, buffer := ⟨8, []⟩ } }
  signals := {}

/-- The host when its events have been fetched and its notifier has been read, and signals arrive.
-/
def pestered : Host :=
  let h := ((bustle.environment.kernel.wait 102 8 none).2.read 103 8).2
  { h with signalled := true }

/-- Two wakers that are left under the same token. -/
def former : Waker := ⟨some ⟨0⟩, 7, some ⟨0⟩⟩

/-- The later one. -/
def latter : Waker := ⟨some ⟨0⟩, 8, some ⟨0⟩⟩

/-- An event that comes after one of the notifier in its batch, an interruption, and a failure. -/
def bustling : List Deed :=
  [.left 5 former, .left 5 latter, .fetched [⟨1, notifyToken⟩, ⟨1, 5⟩], .taken ⟨1, notifyToken⟩,
    .taken ⟨1, 5⟩, .woken latter, .missed .interrupted, .missed .invalid,
    .recorded (reason .invalid), .alarmed 5 latter]

/-- The waker that has been left last is woken once for the event, and once after the failure. -/
theorem dispatches_bustle :
    ∃ x : Scope Host, Course bustle bustling x ∧ x.watch = .stopped ∧
      Dispatches bustle.environment.reactor.wakers.get? bustling x := by
  have hkernel {h : List Deed} {x : Scope Host} (hr : Course bustle h x) (k : Host) :=
    hr.step (.other (e := { x.environment with kernel := k }) x.signals rfl rfl id)
  have hstart : Course bustle [] bustle := .refl
  have hformer := hstart.step (.leave 5 former rfl)
  have hlatter := hformer.step (.leave 5 latter rfl)
  have htested := hlatter.step .loop
  have hfetched := htested.step .loop
  have hdrained := hfetched.step .loop
  have hlooked := hdrained.step .loop
  have hpushed := hlooked.step .loop
  have hnotified := hpushed.step .loop
  have hsorted := hnotified.step .loop
  have hpestered := hkernel (hsorted.step .loop) pestered
  have hmissed := hpestered.step .loop
  have hdisabled := hkernel (hmissed.step .loop) (pestered.disable 102)
  have hbroken := hdisabled.step .loop
  have hrecorded := hbroken.step .loop
  have hunmarked := hrecorded.step .loop
  have halarmed := hunmarked.step .loop
  have hrung := halarmed.step .loop
  have hstopped : Course bustle bustling _ := hrung.step .loop
  exact ⟨_, hstopped, rfl, hstopped.dispatches rfl rfl⟩

end Scope

end Reactor

end TaskRuntime
