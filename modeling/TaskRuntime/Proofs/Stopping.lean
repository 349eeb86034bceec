import TaskRuntime.Proofs.Armed
import TaskRuntime.Proofs.Notifier

/-!
# Starting and stopping the reactor

Any number of threads start and stop a reactor, at any time and in any order, while its loop waits,
dispatches, fails or comes to its end. Each call is taken apart into its atomic steps
(`Reactor.Order`), as the loop is (`Reactor.Watch`): a start marks the reactor as started, marks it
as running and launches the loop; a stop takes the second mark away, writes to the notifier and
waits for the end of the loop.

## What carries the argument

* Whoever finds the reactor not started marks it so in the same step, so one start at most goes on
  from there, and the mark of running is set once (`Life.Sound.claim`, `Life.Sound.mark`).
* A stop writes to the notifier after it has taken the mark away (`Life.Sound.notify`). A loop that
  waits from then on has looked at the mark before, so nobody has emptied the notifier since; a loop
  that has emptied it looks at the mark before it waits again (`Life.Sound.loop`).

A call that is left alone is the function (`Life.run_start`, `Life.run_stop`).
-/

namespace TaskRuntime

namespace Reactor

/-- A call that starts or stops the reactor, by what it is about to do. -/
inductive Order
  /-- A start: to mark the reactor as started, unless it is so marked. -/
  | claiming
  /-- A start: to mark the reactor as running. -/
  | marking
  /-- A start: to launch the loop. -/
  | launching
  /-- A start: to log that it has. -/
  | announcing
  /-- A stop: to take the mark of running away. -/
  | halting
  /-- A stop: to write to the notifier. -/
  | notifying
  /-- A stop: to wait for the end of the loop; it tells of it if it has taken the mark away. -/
  | joining (tells : Bool)
  /-- Nothing: it has returned or failed. -/
  | returned
  deriving DecidableEq

/-- Something that is told about starts, stops and loops. -/
inductive Milestone
  /-- A start has found the reactor not started. -/
  | claimed
  /-- A start has failed. -/
  | refused (e : Failure)
  /-- A stop has taken the mark of running away. -/
  | halted
  /-- A stop has written to the notifier. -/
  | notified
  /-- A loop has recorded its failure. -/
  | failed (reason : Bytes)

namespace Milestone

/-- How a start has gone, if this tells. -/
def verdict? : Milestone → Option (Except Failure Unit)
  | claimed => some (.ok ())
  | refused e => some (.error e)
  | _ => none

end Milestone

/-- How the starts have gone so far, in order. -/
def verdicts (h : List Milestone) : List (Except Failure Unit) := h.filterMap Milestone.verdict?

variable {K : Type} [Kernel K]

/-- **One atomic step of a call**: what is left of the call, what it tells, the loop that it
launches, and the reactor and the system afterwards. -/
def Order.tick (r : Reactor) (s : System K) :
    Order → Order × List Milestone × Option Watch × Reactor × System K
  | claiming =>
    if r.started then (returned, [.refused (.misuse .alreadyRunning none)], none, r, s)
    else (marking, [.claimed], none, { r with started := true }, s)
  | marking => (launching, [], none, { r with running := true }, s)
  | launching =>
    (announcing, [], some .testing, { r with buffer := ⟨r.capacity, []⟩ }, s)
  | announcing =>
    (returned, [], none, r, s.note .info
      (Bytes.utf8 "Reactor: Started (event capacity " ++ Numeral.ofNat r.capacity ++
        Bytes.utf8 ")"))
  | halting =>
    if r.running then (notifying, [.halted], none, { r with running := false }, s)
    else (joining false, [], none, r, s)
  | notifying =>
    match s.call (Kernel.write · r.notifier [1, 0, 0, 0, 0, 0, 0, 0]) with
    | (.ok _, s) => (joining true, [.notified], none, r, s)
    | (.error e, s) =>
      (joining true, [], none, r, s.note .error (Bytes.utf8 "Reactor: notify failed: " ++ e.text))
  | joining true => (returned, [], none, r, s.note .info (Bytes.utf8 "Reactor: Stopped"))
  | joining false => (returned, [], none, r, s)
  | returned => (returned, [], none, r, s)

/-- Calls reach the marks of a reactor and its buffer only. -/
theorem Order.exists_of_tick {o o' : Order} {h : List Milestone} {w : Option Watch}
    {r r' : Reactor} {s s' : System K} (ho : o.tick r s = (o', h, w, r', s')) :
    ∃ started running buffer, r' = { r with started, running, buffer } := by
  cases o with
  | claiming =>
    rw [Order.tick] at ho
    split at ho <;> cases ho <;> exact ⟨_, _, _, rfl⟩
  | halting =>
    rw [Order.tick] at ho
    split at ho <;> cases ho <;> exact ⟨_, _, _, rfl⟩
  | notifying =>
    rw [Order.tick] at ho
    split at ho <;> cases ho <;> exact ⟨_, _, _, rfl⟩
  | joining tells => cases tells <;> cases ho <;> exact ⟨_, _, _, rfl⟩
  | _ => cases ho; exact ⟨_, _, _, rfl⟩

/-- A stop has taken the mark of running away, or a loop has recorded its failure. -/
def Ended (h : List Milestone) : Prop := .halted ∈ h ∨ ∃ reason, .failed reason ∈ h

theorem ended_append {h n : List Milestone} : Ended (h ++ n) ↔ Ended h ∨ Ended n := by
  simp only [Ended, List.mem_append]
  constructor
  · rintro ((h | h) | ⟨reason, h | h⟩)
    · exact .inl (.inl h)
    · exact .inr (.inl h)
    · exact .inl (.inr ⟨reason, h⟩)
    · exact .inr (.inr ⟨reason, h⟩)
  · rintro ((h | ⟨reason, h⟩) | h | ⟨reason, h⟩)
    · exact .inl (.inl h)
    · exact .inr ⟨reason, .inl h⟩
    · exact .inl (.inr h)
    · exact .inr ⟨reason, .inr h⟩

/-- What a loop tells with its next step. -/
def Watch.tells : Watch → List Milestone
  | .broken reason => [.failed reason]
  | _ => []

/-- A reactor with all that its loop reaches, the loops that have been launched, and the calls that
start and stop it. -/
structure Life (K : Type) where
  /-- System, configuration and reactor. -/
  environment : Environment K
  /-- Ready queues and parkers. -/
  signals : Signals
  /-- The loops that have been launched, the last one first. -/
  loops : List Watch := []
  /-- The calls. -/
  orders : List Order := []

namespace Life

/-- A loop of the reactor with what it works on. -/
def scope (x : Life K) (w : Watch) : Scope K := ⟨x.environment, x.signals, w⟩

/-- The notifier waits to be reported to the loop. -/
def Pending (rule : NotifierRule K) (x : Life K) : Prop :=
  rule.Pending x.environment.kernel x.environment.reactor.poller x.environment.reactor.notifier

/-- **A loop is blocked**: it waits without limit, and there is nothing to deliver. -/
def Blocked (x : Life K) (w : Watch) : Prop :=
  w = .waiting ∧ (Kernel.wait x.environment.kernel x.environment.reactor.poller
    x.environment.reactor.buffer.count none).1 = .ok []

/-- What others may do to the surroundings of the loop: they leave, replace and drop wakers, get
tokens, log, and make system calls, but leave the notifier alone. -/
structure Spares (rule : NotifierRule K) (e e' : Environment K) : Prop where
  /-- Only wakers and tokens of the reactor change. -/
  reactor : e'.reactor =
    { e.reactor with wakers := e'.reactor.wakers, nextToken := e'.reactor.nextToken }
  /-- The notifier is still watched. -/
  watched : rule.watched e.kernel e.reactor.poller e.reactor.notifier →
    rule.watched e'.kernel e.reactor.poller e.reactor.notifier
  /-- It is not read. -/
  readable : rule.readable e.kernel e.reactor.notifier →
    rule.readable e'.kernel e.reactor.notifier

/-- **One atomic step** of a call, of a loop, or of others. -/
inductive Move (rule : NotifierRule K) : Life K → List Milestone → Life K → Prop
  /-- Somebody calls for a start. -/
  | start {x} : Move rule x [] { x with orders := x.orders ++ [.claiming] }
  /-- Somebody calls for a stop. -/
  | stop {x} : Move rule x [] { x with orders := x.orders ++ [.halting] }
  /-- A call makes a step; one that waits for the end of the loop goes on after it. -/
  | order {x} (before : List Order) {o after o' n w r s} (ho : x.orders = before ++ o :: after)
      (hj : ∀ tells, o = .joining tells → ∀ w ∈ x.loops, w = .stopped)
      (h : o.tick x.environment.reactor x.environment.toSystem = (o', n, w, r, s)) :
      Move rule x n { x with
        environment := { x.environment with toSystem := s, reactor := r }
        loops := w.toList ++ x.loops
        orders := before ++ o' :: after }
  /-- A loop makes a step. -/
  | loop {x} (before : List Watch) {w after} (hl : x.loops = before ++ w :: after) :
      Move rule x w.tells { x with
        environment := (x.scope w).tick.environment
        signals := (x.scope w).tick.signals
        loops := before ++ (x.scope w).tick.watch :: after }
  /-- Others do something. -/
  | others {x} (e : Environment K) (s : Signals) (h : Spares rule x.environment e) :
      Move rule x [] { x with environment := e, signals := s }

/-- Any number of steps, with what they tell. -/
inductive Run (rule : NotifierRule K) (x₀ : Life K) : List Milestone → Life K → Prop
  /-- No step. -/
  | refl : Run rule x₀ [] x₀
  /-- One more step. -/
  | step {h x n x'} (hr : Run rule x₀ h x) (hm : Move rule x n x') : Run rule x₀ (h ++ n) x'

/-- **A reactor that has just been made**: nobody has started it, and its poller watches its
notifier. -/
structure Fresh (rule : NotifierRule K) (x : Life K) : Prop where
  /-- It is not marked as started. -/
  started : x.environment.reactor.started = false
  /-- It is not marked as running. -/
  running : x.environment.reactor.running = false
  /-- The poller watches the notifier. -/
  watched : rule.watched x.environment.kernel x.environment.reactor.poller
    x.environment.reactor.notifier
  /-- No loop has been launched. -/
  loops : x.loops = []
  /-- Nobody has called. -/
  orders : x.orders = []

end Life

/-! ### What a step of the loop does to the marks and the notifier -/

/-- The loop has ended, or is about to and will not wait any more. -/
def Watch.Ending : Watch → Prop
  | .unmarking _ => True
  | .alarming _ => True
  | .ringing _ _ => True
  | .stopped => True
  | _ => False

/-- The position that comes after another one, for a reactor that is marked as running or is not. -/
inductive Watch.Follows (running : Bool) : Watch → Watch → Prop
  /-- The loop has found the mark. -/
  | wait (h : running = true) : Follows running .testing .waiting
  /-- The loop has missed the mark. -/
  | leave (h : running = false) : Follows running .testing .stopped
  /-- The wait has been interrupted. -/
  | again : Follows running .waiting .testing
  /-- The wait has delivered events. -/
  | sort (events : List Event) : Follows running .waiting (.sorting events)
  /-- The wait has failed. -/
  | fail (reason : Bytes) : Follows running .waiting (.broken reason)
  /-- All events have been dispatched. -/
  | round : Follows running (.sorting []) .testing
  /-- There is nobody to wake for an event. -/
  | skip (event : Event) (rest : List Event) :
    Follows running (.sorting (event :: rest)) (.sorting rest)
  /-- There is somebody to wake for an event. -/
  | push (event : Event) (w : Waker) (rest : List Event) :
    Follows running (.sorting (event :: rest)) (.pushing w rest)
  /-- The loop has pushed. -/
  | notify (w : Waker) (rest : List Event) : Follows running (.pushing w rest) (.notifying w rest)
  /-- The loop has notified. -/
  | notified (w : Waker) (rest : List Event) : Follows running (.notifying w rest) (.sorting rest)
  /-- The failure has been recorded. -/
  | record (reason : Bytes) (copies : List (Token × Waker)) :
    Follows running (.broken reason) (.unmarking copies)
  /-- The mark has been taken away. -/
  | unmark (copies : List (Token × Waker)) : Follows running (.unmarking copies) (.alarming copies)
  /-- The loop has pushed for a copy. -/
  | alarm (c : Token × Waker) (rest : List (Token × Waker)) :
    Follows running (.alarming (c :: rest)) (.ringing c.2 rest)
  /-- The loop has notified for a copy. -/
  | ring (w : Waker) (rest : List (Token × Waker)) :
    Follows running (.ringing w rest) (.alarming rest)
  /-- All copies have been woken. -/
  | finish : Follows running (.alarming []) .stopped
  /-- The loop has ended. -/
  | rest : Follows running .stopped .stopped

namespace Watch.Follows

variable {running : Bool} {w w' : Watch}

/-- The loop waits only after it has found the mark of running. -/
theorem of_waiting (h : w.Follows running .waiting) : w = .testing ∧ running = true := by
  cases h with
  | wait h => exact ⟨rfl, h⟩

/-- The loop ends after it has missed the mark of running, or after a failure. -/
theorem of_ending (h : w.Follows running w') (he : w'.Ending) :
    w.Ending ∨ w = .testing ∧ running = false ∨ ∃ reason, w = .broken reason := by
  cases h with
  | leave h => exact .inr (.inl ⟨rfl, h⟩)
  | record reason copies => exact .inr (.inr ⟨reason, rfl⟩)
  | unmark copies => exact .inl trivial
  | alarm c rest => exact .inl trivial
  | ring w rest => exact .inl trivial
  | finish => exact .inl trivial
  | rest => exact .inl trivial
  | _ => exact he.elim

end Watch.Follows

namespace Scope

variable {x : Scope K} {rule : NotifierRule K}

/-- The loop leaves the mark of a start alone, and takes the mark of running away only as it
ends. -/
theorem marks_tick (x : Scope K) :
    x.tick.environment.reactor.notifier = x.environment.reactor.notifier ∧
      x.tick.environment.reactor.started = x.environment.reactor.started ∧
      (x.tick.environment.reactor.running = x.environment.reactor.running ∨
        x.watch.Ending ∧ x.tick.environment.reactor.running = false) := by
  obtain ⟨e, s, watch⟩ := x
  cases watch with
  | waiting =>
    rw [tick]
    dsimp only
    rcases Poller.wait e.toSystem e.reactor.poller e.reactor.buffer none with ⟨x | u, buffer, t⟩
    · cases x with
      | os errno doing =>
        dsimp only [waited]
        split <;> exact ⟨rfl, rfl, .inl rfl⟩
      | _ => exact ⟨rfl, rfl, .inl rfl⟩
    · exact ⟨rfl, rfl, .inl rfl⟩
  | sorting events => cases events <;> exact ⟨rfl, rfl, .inl rfl⟩
  | alarming copies => cases copies <;> exact ⟨rfl, rfl, .inl rfl⟩
  | unmarking copies => exact ⟨rfl, rfl, .inr ⟨trivial, rfl⟩⟩
  | _ => exact ⟨rfl, rfl, .inl rfl⟩

/-- Each step of the loop leads to a position that follows the one it starts from. -/
theorem follows_tick (x : Scope K) :
    x.watch.Follows x.environment.reactor.running x.tick.watch := by
  obtain ⟨e, s, watch⟩ := x
  cases watch with
  | testing =>
    rw [tick]
    dsimp only
    split
    · next hr => exact .wait hr
    · next hr => exact .leave (by simpa using hr)
  | waiting =>
    rw [tick]
    dsimp only
    rcases Poller.wait e.toSystem e.reactor.poller e.reactor.buffer none with ⟨x | u, buffer, t⟩
    · cases x with
      | os errno doing =>
        dsimp only [waited]
        split
        · exact .again
        · exact .fail _
      | _ => exact .fail _
    · exact .sort _
  | sorting events =>
    cases events with
    | nil => exact .round
    | cons event rest =>
      rw [tick]
      dsimp only
      rcases e.reactor.dispatch e.toSystem event with ⟨_ | w, t⟩
      · exact .skip event rest
      · exact .push event w rest
  | pushing w events => exact .notify w events
  | notifying w events => exact .notified w events
  | broken reason => exact .record reason _
  | unmarking copies => exact .unmark copies
  | alarming copies =>
    cases copies with
    | nil => exact .finish
    | cons c rest => exact .alarm c rest
  | ringing w copies => exact .ring w copies
  | stopped => exact .rest

/-- The notifier is watched through all steps of the loop. -/
theorem notifier_watched_tick
    (hw : rule.watched x.environment.kernel x.environment.reactor.poller
      x.environment.reactor.notifier) :
    rule.watched x.tick.environment.kernel x.tick.environment.reactor.poller
      x.tick.environment.reactor.notifier := by
  rw [(reactor_tick x).1, (marks_tick x).1]
  by_cases hwait : x.watch = .waiting
  · obtain ⟨-, n, ⟨events, hk, -⟩ | ⟨errno, hk⟩⟩ := tick_waiting hwait
    · have hafter := (rule.wait n none hw).1
      rwa [hk] at hafter
    · have hafter := (rule.wait n none hw).1
      rwa [hk] at hafter
  · obtain ⟨e, s, watch⟩ := x
    cases watch with
    | waiting => exact absurd rfl hwait
    | sorting events =>
      cases events with
      | nil => exact hw
      | cons event rest =>
        show rule.watched (e.reactor.dispatch e.toSystem event).2.kernel _ _
        rw [dispatch_kernel]
        split
        · exact rule.watched_drainNotifier hw
        · exact hw
    | alarming copies => cases copies <;> exact hw
    | _ => exact hw

end Scope

/-! ### What holds at each moment -/

/-- What holds if all starts that have gone on are counted: there is none, or there is one, which
was the first, and all others have been refused. -/
def Counted (h : List Milestone) (started : Bool) : Prop :=
  started = false ∧ verdicts h = [] ∨
    started = true ∧ ∃ n, verdicts h =
      .ok () :: List.replicate n (.error (.misuse .alreadyRunning none))

theorem verdicts_append (h n : List Milestone) : verdicts (h ++ n) = verdicts h ++ verdicts n :=
  List.filterMap_append

/-- A start that has gone on makes all others fail. -/
theorem Counted.append {h n : List Milestone} {started : Bool} (hc : Counted h started)
    (hn : verdicts n = [] ∨
      started = true ∧ verdicts n = [.error (.misuse .alreadyRunning none)]) :
    Counted (h ++ n) started := by
  rw [Counted, verdicts_append]
  rcases hn with hnil | ⟨rfl, hrefused⟩
  · rwa [hnil, List.append_nil]
  · rcases hc with ⟨hfalse, -⟩ | ⟨-, m, hm⟩
    · cases hfalse
    · refine .inr ⟨rfl, m + 1, ?_⟩
      rw [hrefused, hm, List.replicate_succ']
      rfl

namespace Life

/-- **What holds at each moment** of any number of starts, stops and loops. -/
structure Sound (rule : NotifierRule K) (h : List Milestone) (x : Life K) : Prop where
  /-- The poller watches the notifier. -/
  watched : rule.watched x.environment.kernel x.environment.reactor.poller
    x.environment.reactor.notifier
  /-- One start at most has gone on, and has not launched its loop yet or has launched one. -/
  once : x.orders.count .marking + x.orders.count .launching + x.loops.length =
    if x.environment.reactor.started then 1 else 0
  /-- All other starts have been refused. -/
  counted : Counted h x.environment.reactor.started
  /-- The mark of running is set by the start that has gone on, and taken away for a reason. -/
  marked : x.environment.reactor.running = true ∨ Ended h ↔
    x.environment.reactor.started = true ∧ .marking ∉ x.orders
  /-- A mark that a stop has taken away is not set again. -/
  halted : .halted ∈ h → x.environment.reactor.running = false
  /-- Whoever is about to write to the notifier has taken the mark away. -/
  notifying : .notifying ∈ x.orders → .halted ∈ h
  /-- So has whoever has written. -/
  notified : .notified ∈ h → .halted ∈ h
  /-- A loop comes to its end for a reason. -/
  ended : ∀ w ∈ x.loops, w.Ending → Ended h
  /-- **A loop that still waits after a stop has written** finds the notifier readable. -/
  rung : .notified ∈ h → .waiting ∈ x.loops →
    rule.readable x.environment.kernel x.environment.reactor.notifier

variable {rule : NotifierRule K} {h n : List Milestone} {x x' : Life K}

/-- Nobody has started a reactor that has just been made. -/
theorem Fresh.sound (hf : x.Fresh rule) : Sound rule [] x where
  watched := hf.watched
  once := by rw [hf.orders, hf.loops, hf.started]; rfl
  counted := .inl ⟨hf.started, rfl⟩
  marked := by simp [hf.running, hf.started, Ended]
  halted := nofun
  notifying ho := by rw [hf.orders] at ho; cases ho
  notified := nofun
  ended w hw := by rw [hf.loops] at hw; cases hw
  rung := nofun

/-- **A step that is of no concern** to marks and notifier: it may refuse one more start. -/
structure Quiet (rule : NotifierRule K) (n : List Milestone) (x x' : Life K) : Prop where
  /-- The reactor is the same, and its marks. -/
  reactor : x'.environment.reactor.poller = x.environment.reactor.poller ∧
    x'.environment.reactor.notifier = x.environment.reactor.notifier ∧
    x'.environment.reactor.started = x.environment.reactor.started ∧
    x'.environment.reactor.running = x.environment.reactor.running
  /-- The notifier is still watched. -/
  watched : rule.watched x.environment.kernel x.environment.reactor.poller
      x.environment.reactor.notifier →
    rule.watched x'.environment.kernel x.environment.reactor.poller
      x.environment.reactor.notifier
  /-- It is not read. -/
  readable : rule.readable x.environment.kernel x.environment.reactor.notifier →
    rule.readable x'.environment.kernel x.environment.reactor.notifier
  /-- The loops are the same. -/
  loops : x'.loops = x.loops
  /-- The calls that matter are the same. -/
  orders : x'.orders.count .marking = x.orders.count .marking ∧
    x'.orders.count .launching = x.orders.count .launching ∧
    (.notifying ∈ x'.orders → .notifying ∈ x.orders)
  /-- Nothing is told, or that a start has been refused. -/
  tells : n = [] ∨ x.environment.reactor.started = true ∧
    n = [.refused (.misuse .alreadyRunning none)]

/-- What is of no concern keeps all. -/
theorem Sound.quiet (hs : Sound rule h x) (hq : Quiet rule n x x') : Sound rule (h ++ n) x' := by
  obtain ⟨hpoller, hnotifier, hstarted, hrunning⟩ := hq.reactor
  have hmem (k : Milestone) (hk : k.verdict? = none) : k ∈ h ++ n ↔ k ∈ h := by
    rcases hq.tells with rfl | ⟨-, rfl⟩
    · rw [List.append_nil]
    · rw [List.mem_append, List.mem_singleton, or_iff_left]
      rintro rfl
      cases hk
  have hended : Ended (h ++ n) ↔ Ended h := by
    simp only [Ended, hmem .halted rfl, fun reason ↦ hmem (.failed reason) rfl]
  have hmarking : .marking ∈ x'.orders ↔ .marking ∈ x.orders := by
    rw [← List.count_pos_iff, ← List.count_pos_iff, hq.orders.1]
  constructor
  case watched =>
    rw [hpoller, hnotifier]
    exact hq.watched hs.watched
  case once =>
    rw [hq.orders.1, hq.orders.2.1, hq.loops, hstarted]
    exact hs.once
  case counted =>
    rw [hstarted]
    refine hs.counted.append (hq.tells.imp ?_ (And.imp_right ?_)) <;> rintro rfl <;> rfl
  case marked =>
    rw [hstarted, hrunning, hended, hmarking]
    exact hs.marked
  case halted =>
    rw [hmem _ rfl, hrunning]
    exact hs.halted
  case notifying =>
    rw [hmem _ rfl]
    exact fun ho ↦ hs.notifying (hq.orders.2.2 ho)
  case notified =>
    rw [hmem .notified rfl, hmem .halted rfl]
    exact hs.notified
  case ended =>
    rw [hq.loops, hended]
    exact hs.ended
  case rung =>
    rw [hmem _ rfl, hq.loops, hnotifier]
    exact fun hn hw ↦ hq.readable (hs.rung hn hw)

section

variable {before after : List Order}

/-- A start finds the reactor not started, and marks it. -/
theorem Sound.claim (hs : Sound rule h x) (ho : x.orders = before ++ .claiming :: after)
    (hstarted : x.environment.reactor.started = false) :
    Sound rule (h ++ [.claimed]) { x with
      environment := { x.environment with
        reactor := { x.environment.reactor with started := true } }
      orders := before ++ .marking :: after } := by
  have honce := hs.once
  have hmarked := hs.marked
  have hnotifying := hs.notifying
  rw [ho] at honce hmarked hnotifying
  rw [hstarted] at honce hmarked
  constructor
  case watched => exact hs.watched
  case once =>
    simp only [List.count_append, List.count_cons_self, List.count_cons_of_ne, ne_eq, reduceCtorEq,
      not_false_eq_true, if_true, if_false] at honce ⊢
    omega
  case counted =>
    rcases hs.counted with ⟨-, hnil⟩ | ⟨htrue, -⟩
    · refine .inr ⟨rfl, 0, ?_⟩
      rw [verdicts_append, hnil]
      rfl
    · rw [hstarted] at htrue
      cases htrue
  case marked =>
    have hnot : ¬(x.environment.reactor.running = true ∨ Ended h) := by simp [hmarked]
    rw [ended_append, ← or_assoc, or_iff_right hnot]
    simp [Ended]
  case halted => exact fun hh ↦ hs.halted (by simpa using hh)
  case notifying =>
    exact fun hn ↦ List.mem_append_left _ (hnotifying (by simpa using hn))
  case notified =>
    exact fun hn ↦ List.mem_append_left _ (hs.notified (by simpa using hn))
  case ended => exact fun w hw he ↦ ended_append.2 (.inl (hs.ended w hw he))
  case rung => exact fun hn hw ↦ hs.rung (by simpa using hn) hw

/-- The start that has gone on marks the reactor as running, for the first and only time. -/
theorem Sound.mark (hs : Sound rule h x) (ho : x.orders = before ++ .marking :: after) :
    Sound rule h { x with
      environment := { x.environment with
        reactor := { x.environment.reactor with running := true } }
      orders := before ++ .launching :: after } := by
  have honce := hs.once
  have hmarked := hs.marked
  have hnotifying := hs.notifying
  rw [ho] at honce hmarked hnotifying
  simp only [List.count_append, List.count_cons_self, List.count_cons_of_ne, ne_eq, reduceCtorEq,
    not_false_eq_true] at honce
  have hstarted : x.environment.reactor.started = true := by
    by_cases hstarted : x.environment.reactor.started = true
    · exact hstarted
    · rw [if_neg hstarted] at honce
      omega
  rw [if_pos hstarted] at honce
  have hbefore : .marking ∉ before := List.count_eq_zero.1 (by omega)
  have hafter : .marking ∉ after := List.count_eq_zero.1 (by omega)
  have hnot : ¬(x.environment.reactor.running = true ∨ Ended h) := by simp [hmarked]
  exact
    { hs with
      once := by
        simp only [List.count_append, List.count_cons_self, List.count_cons_of_ne, ne_eq,
          reduceCtorEq, not_false_eq_true, hstarted, if_true]
        omega
      marked := by simp [hbefore, hafter, hstarted]
      halted hh := absurd (.inr (.inl hh)) hnot
      notifying hn := hnotifying (by simpa using hn) }

/-- It launches the loop. -/
theorem Sound.launch (hs : Sound rule h x) (ho : x.orders = before ++ .launching :: after) :
    Sound rule h { x with
      environment := { x.environment with
        reactor := { x.environment.reactor with buffer := ⟨x.environment.reactor.capacity, []⟩ } }
      loops := .testing :: x.loops
      orders := before ++ .announcing :: after } := by
  have honce := hs.once
  have hmarked := hs.marked
  have hnotifying := hs.notifying
  rw [ho] at honce hmarked hnotifying
  exact
    { hs with
      once := by
        simp only [List.count_append, List.count_cons_self, List.count_cons_of_ne, ne_eq,
          reduceCtorEq, not_false_eq_true, List.length_cons] at honce ⊢
        omega
      marked := by simpa using hmarked
      notifying hn := hnotifying (by simpa using hn)
      ended w hw he := by
        rcases List.mem_cons.1 hw with rfl | hw
        · exact he.elim
        · exact hs.ended w hw he
      rung hn hw := hs.rung hn (by simpa using hw) }

/-- A stop takes the mark away. -/
theorem Sound.halt (hs : Sound rule h x) (ho : x.orders = before ++ .halting :: after)
    (hrunning : x.environment.reactor.running = true) :
    Sound rule (h ++ [.halted]) { x with
      environment := { x.environment with
        reactor := { x.environment.reactor with running := false } }
      orders := before ++ .notifying :: after } := by
  have honce := hs.once
  have hmarked := hs.marked.1 (.inl hrunning)
  rw [ho] at honce hmarked
  constructor
  case watched => exact hs.watched
  case once =>
    simp only [List.count_append, List.count_cons_of_ne, ne_eq, reduceCtorEq,
      not_false_eq_true] at honce ⊢
    exact honce
  case counted => exact hs.counted.append (.inl rfl)
  case marked => exact iff_of_true (.inr (.inl (by simp))) ⟨hmarked.1, by simpa using hmarked.2⟩
  case halted => exact fun _ ↦ rfl
  case notifying => simp
  case notified => simp
  case ended => exact fun w hw he ↦ ended_append.2 (.inl (hs.ended w hw he))
  case rung => exact fun hn hw ↦ hs.rung (by simpa using hn) hw

/-- **A stop writes to the notifier**, which is readable from then on. -/
theorem Sound.notify {k : K} (hs : Sound rule h x) (ho : x.orders = before ++ .notifying :: after)
    (hwatched : rule.watched k x.environment.reactor.poller x.environment.reactor.notifier)
    (hreadable : rule.readable k x.environment.reactor.notifier) :
    Sound rule (h ++ [.notified]) { x with
      environment := { x.environment with kernel := k }
      orders := before ++ .joining true :: after } := by
  have honce := hs.once
  have hmarked := hs.marked
  have hhalted := hs.notifying (by simp [ho])
  rw [ho] at honce hmarked
  constructor
  case watched => exact hwatched
  case once =>
    simp only [List.count_append, List.count_cons_of_ne, ne_eq, reduceCtorEq,
      not_false_eq_true] at honce ⊢
    exact honce
  case counted => exact hs.counted.append (.inl rfl)
  case marked =>
    rw [ended_append]
    simpa [Ended] using hmarked
  case halted => exact fun _ ↦ hs.halted hhalted
  case notifying => exact fun _ ↦ List.mem_append_left _ hhalted
  case notified => exact fun _ ↦ List.mem_append_left _ hhalted
  case ended => exact fun w hw he ↦ ended_append.2 (.inl (hs.ended w hw he))
  case rung => exact fun _ _ ↦ hreadable

/-- **A step of a call** leads from what holds to what holds. -/
theorem Sound.order {o o' : Order} {w : Option Watch} {r : Reactor} {s : System K}
    (hs : Sound rule h x) (ho : x.orders = before ++ o :: after)
    (ht : o.tick x.environment.reactor x.environment.toSystem = (o', n, w, r, s)) :
    Sound rule (h ++ n) { x with
      environment := { x.environment with toSystem := s, reactor := r }
      loops := w.toList ++ x.loops
      orders := before ++ o' :: after } := by
  -- A step that changes neither the reactor nor the kernel.
  have hquiet {o' : Order} {n : List Milestone} {s : System K}
      (hm : o ≠ .marking ∧ o' ≠ .marking) (hl : o ≠ .launching ∧ o' ≠ .launching)
      (hw : o' ≠ .notifying) (hk : s.kernel = x.environment.kernel) (hn : n = [] ∨
        x.environment.reactor.started = true ∧ n = [.refused (.misuse .alreadyRunning none)]) :
      Sound rule (h ++ n) { x with
        environment := { x.environment with toSystem := s }
        orders := before ++ o' :: after } := by
    refine hs.quiet ⟨⟨rfl, rfl, rfl, rfl⟩, by rw [hk]; exact id, by rw [hk]; exact id, rfl, ?_, hn⟩
    rw [ho]
    refine ⟨by simp [List.count_append, hm], by simp [List.count_append, hl], ?_⟩
    simp only [List.mem_append, List.mem_cons, hw.symm, false_or]
    exact Or.imp_right .inr
  cases o with
  | claiming =>
    rw [Order.tick] at ht
    split at ht
    · next hstarted =>
      cases ht
      exact hquiet (by simp) (by simp) (by simp) rfl (.inr ⟨hstarted, rfl⟩)
    · next hstarted =>
      cases ht
      exact hs.claim ho (Bool.eq_false_iff.2 hstarted)
  | marking =>
    cases ht
    rw [List.append_nil]
    exact hs.mark ho
  | launching =>
    cases ht
    rw [List.append_nil]
    exact hs.launch ho
  | announcing =>
    cases ht
    exact hquiet (by simp) (by simp) (by simp) rfl (.inl rfl)
  | halting =>
    rw [Order.tick] at ht
    split at ht
    · next hrunning =>
      cases ht
      exact hs.halt ho hrunning
    · cases ht
      exact hquiet (by simp) (by simp) (by simp) rfl (.inl rfl)
  | notifying =>
    simp only [Order.tick, System.call] at ht
    rcases hk : Kernel.write x.environment.kernel x.environment.reactor.notifier
      [1, 0, 0, 0, 0, 0, 0, 0] with ⟨errno | count, k⟩
    · obtain ⟨hwatched, hreadable⟩ := rule.write_error hs.watched hk
      rw [hk] at ht
      cases ht
      refine hs.quiet ⟨⟨rfl, rfl, rfl, rfl⟩, fun _ ↦ hwatched, hreadable, rfl, ?_, .inl rfl⟩
      rw [ho]
      exact ⟨by simp [List.count_append], by simp [List.count_append], fun _ ↦ by simp⟩
    · obtain ⟨hwatched, hreadable⟩ := rule.write hs.watched hk
      rw [hk] at ht
      cases ht
      exact hs.notify ho hwatched hreadable
  | joining tells =>
    cases tells <;> cases ht <;>
      exact hquiet (by simp) (by simp) (by simp) rfl (.inl rfl)
  | returned =>
    cases ht
    exact hquiet (by simp) (by simp) (by simp) rfl (.inl rfl)

end

/-- **A step of the loop** leads from what holds to what holds. -/
theorem Sound.loop {before after : List Watch} {w : Watch} (hs : Sound rule h x)
    (hl : x.loops = before ++ w :: after) :
    Sound rule (h ++ w.tells) { x with
      environment := (x.scope w).tick.environment
      signals := (x.scope w).tick.signals
      loops := before ++ (x.scope w).tick.watch :: after } := by
  have honce := hs.once
  have hcases : x.environment.reactor.started = true ∧ before = [] ∧ after = [] ∧
      .marking ∉ x.orders := by
    rw [hl] at honce
    split at honce
    · next hstarted =>
      simp only [List.length_append, List.length_cons] at honce
      exact ⟨hstarted, List.eq_nil_of_length_eq_zero (by omega),
        List.eq_nil_of_length_eq_zero (by omega), List.count_eq_zero.1 (by omega)⟩
    · simp only [List.length_append, List.length_cons] at honce
      omega
  obtain ⟨hstarted, rfl, rfl, hmarking⟩ := hcases
  obtain ⟨hnotifier, hsame, hrunning⟩ := Scope.marks_tick (x.scope w)
  have hfollows := Scope.follows_tick (x.scope w)
  have hended := hs.ended w (by simp [hl])
  have htells : verdicts w.tells = [] ∧ .halted ∉ w.tells ∧ .notified ∉ w.tells := by
    cases w <;> simp [Watch.tells, verdicts, Milestone.verdict?]
  have hhalted : .halted ∈ h ++ w.tells ↔ .halted ∈ h := by simp [htells.2.1]
  have hnotified : .notified ∈ h ++ w.tells ↔ .notified ∈ h := by simp [htells.2.2]
  constructor
  case watched => exact Scope.notifier_watched_tick (x := x.scope w) hs.watched
  case once =>
    rw [hl] at honce
    show _ = if (x.scope w).tick.environment.reactor.started then 1 else 0
    rw [hsame]
    exact honce
  case counted =>
    show Counted _ (x.scope w).tick.environment.reactor.started
    rw [hsame]
    exact hs.counted.append (.inl htells.1)
  case marked =>
    refine iff_of_true ?_ ⟨hsame.trans hstarted, hmarking⟩
    rw [ended_append]
    rcases hs.marked.2 ⟨hstarted, hmarking⟩ with hrun | he
    · rcases hrunning with hr | ⟨he, -⟩
      · exact .inl (hr.trans hrun)
      · exact .inr (.inl (hended he))
    · exact .inr (.inl he)
  case halted =>
    rw [hhalted]
    intro hh
    rcases hrunning with hr | ⟨-, hr⟩
    · exact hr.trans (hs.halted hh)
    · exact hr
  case notifying =>
    rw [hhalted]
    exact hs.notifying
  case notified =>
    rw [hhalted, hnotified]
    exact hs.notified
  case ended =>
    intro w' hw' he
    obtain rfl := List.mem_singleton.1 hw'
    rw [ended_append]
    rcases hfollows.of_ending he with he | ⟨-, hr⟩ | ⟨reason, rfl⟩
    · exact .inl (hended he)
    · rcases hs.marked.2 ⟨hstarted, hmarking⟩ with hrun | he
      · cases hrun.symm.trans hr
      · exact .inl he
    · exact .inr (.inr ⟨reason, by simp [Watch.tells]⟩)
  case rung =>
    -- A loop that begins to wait has just found the mark, which no stop has taken away then.
    rw [hnotified]
    intro hn hw
    rw [← List.mem_singleton.1 hw] at hfollows
    cases hfollows.of_waiting.2.symm.trans (hs.halted (hs.notified hn))

/-- **Each step** leads from what holds to what holds. -/
theorem Sound.move (hs : Sound rule h x) (hm : Move rule x n x') : Sound rule (h ++ n) x' := by
  cases hm with
  | start => exact hs.quiet ⟨⟨rfl, rfl, rfl, rfl⟩, id, id, rfl, by simp, .inl rfl⟩
  | stop => exact hs.quiet ⟨⟨rfl, rfl, rfl, rfl⟩, id, id, rfl, by simp, .inl rfl⟩
  | order before ho _ ht => exact hs.order ho ht
  | loop before hl => exact hs.loop hl
  | others e s ho =>
    have hsame := ho.reactor
    exact hs.quiet ⟨by rw [hsame]; exact ⟨rfl, rfl, rfl, rfl⟩, ho.watched, ho.readable, rfl,
      ⟨rfl, rfl, id⟩, .inl rfl⟩

/-- What holds holds after any number of steps. -/
theorem Run.sound {x₀ : Life K} (hr : Run rule x₀ h x) (hf : x₀.Fresh rule) : Sound rule h x := by
  induction hr with
  | refl => exact hf.sound
  | step _ hm ih => exact ih.move hm

end Life

/-! ### A loop that is left alone after a stop -/

namespace Scope

variable {y : Scope K}

/-- **A loop that is left alone comes to its end**, and does not wait on its way there, but for the
wait that it may be in. -/
structure EndsAlone (y : Scope K) : Prop where
  /-- It ends. -/
  ends : ∃ z, Plays y z ∧ z.watch = .stopped
  /-- It does not wait again. -/
  unblocked : ∀ n, (y.play (n + 1)).watch ≠ .waiting

/-- A loop that is not marked as running is not marked again by its own steps. -/
theorem running_tick (hr : y.environment.reactor.running = false) :
    y.tick.environment.reactor.running = false := by
  rcases (marks_tick y).2.2 with h | ⟨-, h⟩
  · exact h.trans hr
  · exact h

/-- A loop that is not marked as running does not wait again. -/
theorem play_ne_waiting (hr : y.environment.reactor.running = false) (n : Nat) :
    (y.play (n + 1)).watch ≠ .waiting := by
  induction n generalizing y with
  | zero =>
    intro hw
    have hfollows := follows_tick y
    rw [show y.tick.watch = .waiting from hw] at hfollows
    cases hfollows.of_waiting.2.symm.trans hr
  | succ n ih => exact ih (running_tick hr)

theorem Plays.trans {x y z : Scope K} (hxy : Plays x y) (hyz : Plays y z) : Plays x z := by
  obtain ⟨n, rfl⟩ := hxy
  induction n generalizing x with
  | zero => exact hyz
  | succ n ih => exact .tick (ih hyz)

/-- A loop that is not marked as running, and does not wait, comes to its end. -/
theorem plays_stopped (hr : y.environment.reactor.running = false) (hw : y.watch ≠ .waiting) :
    ∃ z, Plays y z ∧ z.watch = .stopped := by
  obtain ⟨e, s, watch⟩ := y
  have hr : e.reactor.running = false := hr
  -- A loop that has dispatched everything looks for the mark, and misses it.
  have htest (s : Signals) (t : System K) :
      Plays ⟨{ e with toSystem := t }, s, .testing⟩ ⟨{ e with toSystem := t }, s, .stopped⟩ :=
    .tick (by rw [tick, hr]; exact .refl)
  have hsort (s : Signals) (events : List Event) :
      ∃ z, Plays ⟨e, s, .sorting events⟩ z ∧ z.watch = .stopped :=
    ⟨_, (plays_sorting e s events).trans (htest _ _), rfl⟩
  have htick {y : Scope K} (h : ∃ z, Plays y.tick z ∧ z.watch = .stopped) :
      ∃ z, Plays y z ∧ z.watch = .stopped := h.imp fun _ h ↦ ⟨h.1.tick, h.2⟩
  cases watch with
  | testing => exact ⟨_, htest s e.toSystem, rfl⟩
  | waiting => exact absurd rfl hw
  | sorting events => exact hsort s events
  | pushing w rest => exact htick (htick (hsort _ rest))
  | notifying w rest => exact htick (hsort _ rest)
  | broken reason => exact ⟨_, plays_broken e s reason, rfl⟩
  | unmarking copies => exact htick ⟨_, plays_alarming _ s copies, rfl⟩
  | alarming copies => exact ⟨_, plays_alarming e s copies, rfl⟩
  | ringing w copies => exact htick ⟨_, plays_alarming e _ copies, rfl⟩
  | stopped => exact ⟨_, .refl, rfl⟩

/-- A loop that is not marked as running comes to its end, once the wait that it may be in has. -/
theorem endsAlone (hr : y.environment.reactor.running = false) : y.EndsAlone where
  ends := by
    by_cases hw : y.watch = .waiting
    · have hnext : y.tick.watch ≠ .waiting := play_ne_waiting hr 0
      obtain ⟨z, hz, hstopped⟩ := plays_stopped (running_tick hr) hnext
      exact ⟨z, hz.tick, hstopped⟩
    · exact plays_stopped hr hw
  unblocked := play_ne_waiting hr

end Scope

/-! ### Calls that are left alone -/

/-- What a round does does not depend on the mark of running, which it leaves as it is or takes
away. -/
theorem turn_unmarked (r : Reactor) (s : System K) :
    { r with running := false }.turn s =
      ((r.turn s).1, { (r.turn s).2.1 with running := false }, (r.turn s).2.2) := by
  have hdispatch (events : List Event) (s : System K) :
      { r with running := false }.dispatchAll events s = r.dispatchAll events s := by
    induction events generalizing s with
    | nil => rfl
    | cons event rest ih =>
      have hd : { r with running := false }.dispatch s event = r.dispatch s event := rfl
      rw [dispatchAll, dispatchAll, hd]
      dsimp only
      rw [ih]
  rw [turn, turn]
  dsimp only
  rcases Poller.wait s r.poller r.buffer none with ⟨x | u, buffer, t⟩
  · cases x with
    | os errno doing =>
      dsimp only
      split <;> rfl
    | _ => rfl
  · dsimp only
    rw [hdispatch]

namespace Life

variable {rule : NotifierRule K} {h : List Milestone} {x₀ x : Life K}

/-- A stop writes to the notifier as the function does. -/
theorem notifying_tick (r : Reactor) (s : System K) :
    ∃ n, Order.tick r s .notifying = (.joining true, n, none, r, r.notify s) := by
  rw [Order.tick, notify]
  rcases s.call (Kernel.write · r.notifier [1, 0, 0, 0, 0, 0, 0, 0]) with ⟨errno | count, t⟩
  · exact ⟨_, rfl⟩
  · exact ⟨_, rfl⟩

/-- A loop that is left alone makes its steps in the run, too. -/
theorem Run.plays {w : Watch} {y : Scope K} (hr : Run rule x₀ h x) (hl : x.loops = [w])
    (hp : (x.scope w).Plays y) : ∃ h', Run rule x₀ (h ++ h')
      { x with environment := y.environment, signals := y.signals, loops := [y.watch] } := by
  obtain ⟨n, hn⟩ := hp
  induction n generalizing x w h with
  | zero =>
    obtain rfl := hn
    refine ⟨[], ?_⟩
    rw [List.append_nil]
    show Run rule x₀ h { x with loops := [w] }
    rw [← hl]
    exact hr
  | succ n ih =>
    obtain ⟨h', hr'⟩ := ih (hr.step (.loop [] hl)) rfl hn
    exact ⟨w.tells ++ h', by rwa [← List.append_assoc]⟩

/-- **A start that is left alone is the function**: it goes as the function says, and launches a
loop if it goes well. -/
theorem run_start (x : Life K) (ho : x.orders = []) : ∃ h, Run rule x h { x with
      environment := { x.environment with
        toSystem := (x.environment.reactor.start x.environment.toSystem).2.2
        reactor := (x.environment.reactor.start x.environment.toSystem).2.1 }
      loops := if x.environment.reactor.started then x.loops else .testing :: x.loops
      orders := [.returned] } ∧
    verdicts h = [(x.environment.reactor.start x.environment.toSystem).1] := by
  have hcalled := (.refl : Run rule x [] x).step .start
  rw [ho] at hcalled
  rw [start]
  cases hstarted : x.environment.reactor.started with
  | true =>
    have hrefused :=
      hcalled.step (.order [] rfl nofun (by rw [Order.tick, hstarted]))
    exact ⟨_, hrefused, rfl⟩
  | false =>
    have hclaimed :=
      hcalled.step (.order [] rfl nofun (by rw [Order.tick, hstarted]))
    have hover := ((hclaimed.step (.order [] rfl nofun rfl)).step
      (.order [] rfl nofun rfl)).step (.order [] rfl nofun rfl)
    exact ⟨_, hover, rfl⟩

/-- **A stop that is left alone with a loop that waits is the function**, followed by the wakes of
the last round. -/
theorem run_stop (x : Life K) (ho : x.orders = []) (hl : x.loops = [.waiting])
    (hr : x.environment.reactor.running = true) : ∃ h, Run rule x h { x with
      environment := { x.environment with
        toSystem := (x.environment.reactor.stop x.environment.toSystem).2.2
        reactor := (x.environment.reactor.stop x.environment.toSystem).2.1 }
      signals := x.signals.wakeAll (x.environment.reactor.stop x.environment.toSystem).1
      loops := [.stopped]
      orders := [.returned] } := by
  have hcalled := (.refl : Run rule x [] x).step .stop
  rw [ho] at hcalled
  have hhalted := hcalled.step (.order [] rfl nofun (by rw [Order.tick, hr]))
  obtain ⟨n, hn⟩ := notifying_tick { x.environment.reactor with running := false }
    x.environment.toSystem
  have hnotified := hhalted.step (.order [] rfl nofun hn)
  obtain ⟨w, hplays, hw⟩ := Scope.plays_waiting
    { x.environment with
      toSystem := x.environment.reactor.notify x.environment.toSystem
      reactor := { x.environment.reactor with running := false } } x.signals
  rw [turn_unmarked] at hplays
  have hstopped : Scope.Plays _ _ := hplays.trans (z := ⟨_, _, .stopped⟩) <| by
    rcases hw with ⟨rfl, -⟩ | ⟨rfl, -⟩
    · exact .tick .refl
    · exact .refl
  obtain ⟨h', hended⟩ := hnotified.plays hl hstopped
  have hover := hended.step
    (.order [] rfl (fun _ _ w hw ↦ List.mem_singleton.1 hw) rfl)
  rw [stop, if_pos hr]
  exact ⟨_, hover⟩

/-! ### No stop is lost -/

theorem pos_count (b : EventBuffer) : 0 < b.count := by
  unfold EventBuffer.count EventBuffer.maxCount
  omega

/-- **No stop is lost.** Once a stop has written to the notifier, no loop waits with nothing to
deliver to it: it has ended, or is at work and will miss the mark of running, or has the notifier
pending; in each case it comes to its end if it is left alone. A loop ends only after a stop or a
failure. One loop at most is launched, and every start but the first is refused. -/
theorem Run.stop_not_lost (hf : x₀.Fresh rule) (hr : Run rule x₀ h x) :
    (.notified ∈ h → ∀ w ∈ x.loops,
      ¬x.Blocked w ∧
        (w = .stopped ∨ w ≠ .waiting ∧ x.environment.reactor.running = false ∨
          w = .waiting ∧ x.Pending rule) ∧
        (x.scope w).EndsAlone) ∧
      (.stopped ∈ x.loops → Ended h) ∧
      x.loops.length ≤ 1 ∧
      (verdicts h = [] ∨ ∃ n, verdicts h =
        .ok () :: List.replicate n (.error (.misuse .alreadyRunning none))) := by
  have hs := hr.sound hf
  refine ⟨fun hn w hw ↦ ?_, fun hw ↦ hs.ended _ hw trivial, ?_, ?_⟩
  · have hrunning := hs.halted (hs.notified hn)
    refine ⟨?_, ?_, Scope.endsAlone (y := x.scope w) hrunning⟩
    · rintro ⟨rfl, hnil⟩
      exact rule.delivers none hs.watched (hs.rung hn hw) (pos_count _) hnil
    · by_cases hwait : w = .waiting
      · subst hwait
        exact .inr (.inr ⟨rfl, hs.watched, hs.rung hn hw⟩)
      · exact .inr (.inl ⟨hwait, hrunning⟩)
  · have honce := hs.once
    split at honce <;> omega
  · rcases hs.counted with ⟨-, hnil⟩ | ⟨-, h⟩
    · exact .inl hnil
    · exact .inr h

/-- A reactor that has just been made on a host. -/
def made : Life Host :=
  let (r, s) := Reactor.create 64 { kernel := default }
  { environment := { toSystem := s, reactor := r.toOption.getD {} }, signals := {} }

theorem fresh_made : made.Fresh Host.notifierRule where
  started := rfl
  running := rfl
  watched := ⟨0, 0, _, ⟨⟨rfl, rfl⟩, rfl, by decide, rfl, fun h ↦ absurd rfl h⟩⟩
  loops := rfl
  orders := rfl

/-- The loop waits when a stop writes: it finds the notifier pending. -/
theorem stop_not_lost_waiting : ∃ x h, Run Host.notifierRule made h x ∧ .notified ∈ h ∧
    x.loops = [.waiting] ∧ x.Pending Host.notifierRule ∧ ¬x.Blocked .waiting := by
  have hstarted := ((((.refl : Run Host.notifierRule made [] made).step .start).step
    (.order [] rfl nofun rfl)).step (.order [] rfl nofun rfl)).step
    (.order [] rfl nofun rfl)
  have hwaits := (hstarted.step (.order [] rfl nofun rfl)).step (.loop [] rfl)
  have hnotified := ((hwaits.step .stop).step (.order [.returned] rfl nofun rfl)).step
    (.order [.returned] rfl nofun rfl)
  obtain ⟨hblocked, h | h | ⟨-, hp⟩, -⟩ :=
    (Run.stop_not_lost fresh_made hnotified).1 (by simp) .waiting (.head _)
  · cases h
  · exact absurd rfl h.1
  · exact ⟨_, _, hnotified, by simp, rfl, hp, hblocked⟩

end Life

end Reactor

end TaskRuntime
