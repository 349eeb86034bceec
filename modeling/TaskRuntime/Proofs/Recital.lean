import TaskRuntime.Proofs.LateLines
import TaskRuntime.Proofs.Tales

/-!
# Programs and the background writer

A program of logger operations (`Log.Op`) is taken apart into the atomic steps of `Logger`: its
threads make them one after the other, since a thread that has started another one waits for its
end, and the background writer makes its own steps in between, at any time (`Recital.Move`). The
writer may lag behind changes of the threshold, of tags and of the mode.

## What is in whose hand

At each moment the lines of all calls so far are, in the order of the calls: the lines that have
been delivered, the line that the writer carries, the lines that are queued, and the line of the
call that has not returned (`Logger.Faithful`). No line is late here: while a call is under way the
mode stays as the call has found it, since the threads of a program do not run at the same time.

## Every schedule comes to an end

The writer sleeps as long as there is nothing to do for it, so each step takes something off what
is left to do (`Recital.Move.effort_lt`), and no schedule goes on for ever. None gets stuck either
(`Recital.Faithful.finished_or_move`).
-/

namespace TaskRuntime

open Log (Op Saying Tale Session linesOf)
open Logger (Call Stage Switch Writer)

/-! ### The steps -/

/-- A thread of a program: its tag, and what it has still to do. -/
structure Recital.Frame where
  /-- The tag. -/
  tag : Bytes
  /-- The operations to come. -/
  ops : List Op

/-- A program that runs, and a log with its writer. -/
structure Recital extends Logger where
  /-- The running thread, the one that waits for it, and so on. -/
  frames : List Recital.Frame
  /-- What has been said at the places where something is logged. -/
  said : List Saying := []

/-- Nobody is in the middle of a call, or of turning the writer on or off. -/
structure Logger.Rests (x : Logger) : Prop where
  /-- Nothing is turned on or off. -/
  switch : x.switch = .idle
  /-- All calls have returned. -/
  calls : ∀ c ∈ x.calls, c.stage = .returned

namespace Recital

/-- Something is said. If it is allowed its message is made, and a call begins. -/
def say (x : Recital) (tag message : Bytes) (level : Option Log.Level) : Recital :=
  let σ : Saying := ⟨tag, message, level, x.log.threshold⟩
  { x with
    said := x.said ++ [σ]
    calls := if σ.allowed then x.calls ++ [{ line := σ.line }] else x.calls }

/-- A thread with a tag begins an operation. -/
def perform (x : Recital) (tag : Bytes) : Op → Recital
  | .setLevel level => { x with log := { x.log with threshold := level } }
  | .note level message => x.say tag message (some level)
  | .emit message => x.say tag message none
  | .startAsync => { x with switch := .entering }
  | .stopAsync => { x with switch := .withdrawing }
  | .stopListening => { x with log := { x.log with listening := false } }
  | .thread ops => { x with frames := ⟨Log.defaultTag, ops⟩ :: x.frames }
  | .getLevel => x
  | .setTag _ => x
  | .getTag => x
  | .isAsync => x

/-- **One step** of the program or of the writer. -/
inductive Move : Recital → Recital → Prop
  /-- The running thread begins its next operation. -/
  | begin {x tag op rest below} (hr : x.Rests) (hf : x.frames = ⟨tag, op :: rest⟩ :: below) :
    Move x (perform { x with frames := ⟨op.retag tag, rest⟩ :: below } tag op)
  /-- The running thread has ended, and the one that waits for it goes on. -/
  | join {x tag below} (hr : x.Rests) (hf : x.frames = ⟨tag, []⟩ :: below) (hb : below ≠ []) :
    Move x { x with frames := below }
  /-- The call that has not returned makes a step. -/
  | call {x before c} (hc : x.calls = before ++ [c]) (hs : c.stage ≠ .returned)
      (hl : c.stage = .writing → x.switch.locks = false) :
    Move x { x with
      log := (c.tick x.log).2
      calls := before ++ [(c.tick x.log).1]
      late := if c.stage = .pushing ∧ x.writer.working = false then x.late ++ [c.line]
        else x.late }
  /-- Turning on or off makes a step; it waits until the writer has left. -/
  | toggle {x} (hs : x.switch ≠ .idle) (hj : x.switch = .joining → x.writer = .left) :
    Move x { x with toLogger := x.toggle }
  /-- The writer makes a step. It sleeps as long as nothing is queued and it is to go on. -/
  | write {x} (hw : x.writer.working = true) (hl : x.writer.carried ≠ [] → x.switch.locks = false)
      (ha : x.writer = .looking → x.log.queue ≠ [] ∨ x.running = false) :
    Move x { x with
      log := (x.writer.tick x.running x.log).2
      writer := (x.writer.tick x.running x.log).1 }

/-- Any number of steps. -/
inductive Run (x₀ : Recital) : Recital → Prop
  /-- No step. -/
  | refl : Run x₀ x₀
  /-- One more step. -/
  | step {x x'} (hr : Run x₀ x) (hm : Move x x') : Run x₀ x'

/-- A program is to run in a session. -/
def start (s : Session) (ops : List Op) : Recital := { log := s.log, frames := [⟨s.tag, ops⟩] }

/-- **The program has come to its end.** -/
structure Finished (x : Recital) : Prop where
  /-- All it has begun is done. -/
  rests : x.Rests
  /-- There is nothing left to begin. -/
  frames : ∃ tag, x.frames = [⟨tag, []⟩]

end Recital

/-! ### What steps leave alone -/

namespace Logger

theorem Call.tick_threshold (c : Call) (l : Log) : (c.tick l).2.threshold = l.threshold := by
  rw [tick]
  cases c.stage <;> rfl

theorem Writer.tick_threshold (w : Writer) (running : Bool) (l : Log) :
    (w.tick running l).2.threshold = l.threshold := by
  cases w with
  | looking =>
    rw [tick]
    cases l.queue <;> rfl
  | _ => rfl

theorem toggle_threshold (x : Logger) : x.toggle.log.threshold = x.log.threshold := by
  rw [toggle]
  cases x.switch <;> rfl

theorem toggle_calls (x : Logger) : x.toggle.calls = x.calls := by
  rw [toggle]
  cases x.switch <;> rfl

theorem toggle_queue (x : Logger) : x.toggle.log.queue = x.log.queue := by
  rw [toggle]
  cases x.switch <;> rfl

end Logger

/-! ### What is left to do -/

mutual

/-- What there is to do for an operation, in steps at most. -/
def Log.Op.effort : Op → Nat
  | .thread ops => 2 + Log.Op.effortAll ops
  | _ => 5

/-- What there is to do for operations. -/
def Log.Op.effortAll : List Op → Nat
  | [] => 0
  | op :: rest => Log.Op.effort op + Log.Op.effortAll rest

end

/-- What there is to do for a call; a line that is queued is to be taken and to be written. -/
def Logger.Stage.effort : Stage → Nat
  | testing => 4
  | pushing => 3
  | writing => 1
  | returned => 0

/-- What there is to do to turn the writer on or off. -/
def Logger.Switch.effort : Switch → Nat
  | idle => 0
  | entering => 4
  | launching => 3
  | announcing => 1
  | withdrawing => 3
  | dismissing => 2
  | joining => 1

/-- What there is to do for the writer; to leave is one of its steps. -/
def Logger.Writer.effort : Writer → Nat
  | absent => 0
  | looking => 1
  | carrying _ => 2
  | left => 0

namespace Recital

variable {x x' : Recital}

/-- What there is to do for threads; to end is a step of each of them. -/
def effortFrames : List Frame → Nat
  | [] => 0
  | f :: below => 1 + Op.effortAll f.ops + effortFrames below

/-- What there is to do for calls. -/
def effortCalls : List Call → Nat
  | [] => 0
  | c :: rest => c.stage.effort + effortCalls rest

/-- **What is left to do**, in steps at most. -/
def effort (x : Recital) : Nat :=
  effortFrames x.frames + effortCalls x.calls + (x.switch.effort + x.writer.effort) +
    2 * x.log.queue.length

theorem effortCalls_concat (before : List Call) (c : Call) :
    effortCalls (before ++ [c]) = effortCalls before + c.stage.effort := by
  induction before with
  | nil => exact Nat.add_comm _ _
  | cons b rest ih =>
    rw [List.cons_append, effortCalls, effortCalls, ih, Nat.add_assoc]

theorem call_effort_lt {c : Call} (hs : c.stage ≠ .returned) (l : Log) :
    (c.tick l).1.stage.effort + 2 * (c.tick l).2.queue.length <
      c.stage.effort + 2 * l.queue.length := by
  obtain ⟨line, stage⟩ := c
  cases stage with
  | testing =>
    have hstage : (if l.asynchronous then Stage.pushing else .writing).effort ≤ 3 := by
      cases l.asynchronous <;> decide
    exact Nat.add_lt_add_right (Nat.lt_succ_of_le hstage) _
  | pushing =>
    show 0 + 2 * (l.queue ++ [line]).length < 3 + _
    rw [List.length_append, List.length_singleton]
    omega
  | writing =>
    show 0 + 2 * l.queue.length < 1 + _
    omega
  | returned => exact absurd rfl hs

theorem writer_effort_lt {w : Writer} {running : Bool} {l : Log} (hw : w.working = true)
    (ha : w = .looking → l.queue ≠ [] ∨ running = false) :
    (w.tick running l).1.effort + 2 * (w.tick running l).2.queue.length <
      w.effort + 2 * l.queue.length := by
  cases w with
  | looking =>
    rw [Writer.tick]
    cases hq : l.queue with
    | nil =>
      rcases ha rfl with hne | rfl
      · exact absurd hq hne
      · show 0 + 2 * l.queue.length < 1 + 0
        rw [hq]
        exact Nat.zero_lt_one
    | cons line rest =>
      show 2 + 2 * rest.length < 1 + 2 * (rest.length + 1)
      omega
  | carrying line =>
    show 1 + 2 * l.queue.length < 2 + 2 * l.queue.length
    omega
  | _ => cases hw

theorem toggle_effort_lt {x : Logger} (hs : x.switch ≠ .idle) :
    x.toggle.switch.effort + x.toggle.writer.effort < x.switch.effort + x.writer.effort := by
  rw [Logger.toggle]
  cases hswitch : x.switch with
  | idle => exact absurd hswitch hs
  | entering => cases x.log.asynchronous <;> simp [Switch.effort]
  | launching =>
    simp only [Switch.effort, Writer.effort]
    omega
  | withdrawing => cases x.log.asynchronous <;> simp [Switch.effort]
  | joining =>
    simp only [Switch.effort, Writer.effort]
    omega
  | _ => simp [Switch.effort]

theorem say_effort_le (x : Recital) (tag message : Bytes) (level : Option Log.Level) :
    (x.say tag message level).effort ≤ x.effort + 4 := by
  rw [say, effort, effort]
  split
  · simp only [effortCalls_concat, Stage.effort]
    omega
  · exact Nat.le_add_right _ 4

theorem perform_effort_lt (x : Recital) (tag : Bytes) (op : Op) (hs : x.switch = .idle) :
    (x.perform tag op).effort < x.effort + op.effort := by
  have hless : ∀ n, n ≤ x.effort + 4 → n < x.effort + 5 := fun n hn ↦ Nat.lt_succ_of_le hn
  cases op with
  | note level message => exact hless _ (x.say_effort_le ..)
  | emit message => exact hless _ (x.say_effort_le ..)
  | startAsync =>
    refine hless _ ?_
    simp only [perform, effort, hs, Switch.effort]
    omega
  | stopAsync =>
    refine hless _ ?_
    simp only [perform, effort, hs, Switch.effort]
    omega
  | thread ops =>
    simp only [perform, effort, Op.effort, effortFrames]
    omega
  | _ => exact hless _ (Nat.le_add_right _ 4)

/-- **Each step takes something off what is left to do.** -/
theorem Move.effort_lt (hm : Move x x') : x'.effort < x.effort := by
  cases hm with
  | @begin tag op rest below hr hf =>
    have hop :=
      perform_effort_lt { x with frames := ⟨op.retag tag, rest⟩ :: below } tag op hr.switch
    refine Nat.lt_of_lt_of_le hop ?_
    simp only [effort, hf, effortFrames, Op.effortAll]
    omega
  | join hr hf hb =>
    simp only [effort, hf, effortFrames, Op.effortAll]
    omega
  | @call before c hc hs hl =>
    have htick := call_effort_lt hs x.log
    simp only [effort, hc, effortCalls_concat]
    omega
  | toggle hs hj =>
    have htoggle := toggle_effort_lt hs
    simp only [effort, x.toggle_calls, x.toggle_queue]
    omega
  | write hw hl ha =>
    have htick := writer_effort_lt hw ha
    simp only [effort]
    omega

/-- **No schedule goes on for ever.** -/
theorem exists_not_move (x : Nat → Recital) : ∃ n, ¬Move (x n) (x (n + 1)) := by
  refine Classical.byContradiction fun hall ↦ ?_
  have hmove : ∀ n, Move (x n) (x (n + 1)) := fun n ↦
    Classical.byContradiction fun hn ↦ hall ⟨n, hn⟩
  -- After `n` steps at least `n` has been taken off what there was to do in the beginning.
  have hless : ∀ n, (x n).effort + n ≤ (x 0).effort := by
    intro n
    induction n with
    | zero => exact Nat.le_refl _
    | succ n ih =>
      have hlt := (hmove n).effort_lt
      omega
  have hfull := hless ((x 0).effort + 1)
  omega

end Recital

/-! ### What is in whose hand -/

namespace Logger

/-- **The call fits to the rest.** While it has not returned nothing is turned on or off, and it has
found the mode as it is. -/
def Call.Fits (c : Call) (switch : Switch) (asynchronous : Bool) : Prop :=
  match c.stage with
  | .testing => switch = .idle
  | .pushing => switch = .idle ∧ asynchronous = true
  | .writing => switch = .idle ∧ asynchronous = false
  | .returned => True

/-- **Lines are in order**, from the first one to the last: those that have been delivered since the
log was `l₀`, the one that the writer carries, those that are queued, and those to come. -/
def Ordered (l₀ l : Log) (w : Writer) (pending all : List Bytes) : Prop :=
  ∃ lines, l.sinks = (l₀.deliverAll lines).sinks ∧
    lines ++ (w.carried ++ (l.queue ++ pending)) = all

/-- **Nothing gets lost, and nothing overtakes.** The log was `l₀` when the first call began. -/
structure Faithful (l₀ : Log) (x : Logger) : Prop extends Attended x where
  /-- No line is late. -/
  late : x.late = []
  /-- There is a writer to wait for. -/
  hired : x.switch = .joining → x.writer.working = true ∨ x.writer = .left
  /-- All calls but the last one have returned. -/
  alone : ∀ {before c}, x.calls = before ++ [c] →
    (∀ b ∈ before, b.stage = .returned) ∧ c.Fits x.switch x.log.asynchronous
  /-- The lines are in the order of their calls. -/
  order : Ordered l₀ x.log x.writer (x.calls.flatMap Call.pending) x.lines

variable {x : Logger} {l₀ l : Log} {w : Writer} {before : List Call} {c : Call} {line : Bytes}
  {pending all : List Bytes}

namespace Ordered

theorem log (h : Ordered l₀ l w [] all) (line : Bytes) :
    Ordered l₀ l w [line] (all ++ [line]) := by
  obtain ⟨lines, hsinks, rfl⟩ := h
  refine ⟨lines, hsinks, ?_⟩
  simp only [List.append_nil, List.append_assoc]

theorem push (h : Ordered l₀ l w [line] all) :
    Ordered l₀ { l with queue := l.queue ++ [line] } w [] all := by
  obtain ⟨lines, hsinks, rfl⟩ := h
  refine ⟨lines, hsinks, ?_⟩
  rw [List.append_nil]

/-- A line may be written past the queue if there is nothing on the way. -/
theorem deliver (h : Ordered l₀ l w [line] all) (hw : w.carried = []) (hq : l.queue = []) :
    Ordered l₀ (l.deliver line) w [] all := by
  obtain ⟨lines, hsinks, rfl⟩ := h
  refine ⟨lines ++ [line], Log.sinks_deliver_concat hsinks line, ?_⟩
  show lines ++ [line] ++ (w.carried ++ (l.queue ++ [])) = _
  rw [hw, hq]
  exact List.append_nil _

theorem tick (h : Ordered l₀ l w pending all) (running : Bool) :
    Ordered l₀ (w.tick running l).2 (w.tick running l).1 pending all := by
  obtain ⟨lines, hsinks, rfl⟩ := h
  cases w with
  | looking =>
    rw [Writer.tick]
    cases hq : l.queue with
    | nil =>
      refine ⟨lines, hsinks, ?_⟩
      show lines ++ (Writer.carried (if running then .looking else .left) ++ (l.queue ++ _)) = _
      rw [hq]
      cases running <;> rfl
    | cons line rest => exact ⟨lines, hsinks, rfl⟩
  | carrying line =>
    refine ⟨lines ++ [line], Log.sinks_deliver_concat hsinks line, ?_⟩
    rw [List.append_assoc]
    rfl
  | _ => exact ⟨lines, hsinks, rfl⟩

end Ordered

theorem Call.fits_of_returned {switch : Switch} {asynchronous : Bool} (h : c.stage = .returned) :
    c.Fits switch asynchronous := by
  rw [Call.Fits, h]
  trivial

theorem Call.Fits.idle {switch : Switch} {asynchronous : Bool} (h : c.Fits switch asynchronous)
    (hs : c.stage ≠ .returned) : switch = .idle := by
  rw [Call.Fits] at h
  cases hstage : c.stage with
  | testing => rwa [hstage] at h
  | pushing =>
    rw [hstage] at h
    exact h.1
  | writing =>
    rw [hstage] at h
    exact h.1
  | returned => exact absurd hstage hs

theorem flatMap_pending (h : ∀ b ∈ before, b.stage = .returned) :
    before.flatMap Call.pending = [] :=
  List.flatMap_eq_nil_iff.2 fun b hb ↦ Call.pending_of_eq (h b hb)

theorem flatMap_pending_concat (h : ∀ b ∈ before, b.stage = .returned) (c : Call) :
    (before ++ [c]).flatMap Call.pending = c.pending := by
  rw [List.flatMap_append, flatMap_pending h, List.flatMap_singleton, List.nil_append]

namespace Faithful

/-- Nobody is waited for as long as nobody waits. -/
theorem hired_of_ne {s : Switch} (hs : s ≠ .joining) :
    s = .joining → w.working = true ∨ w = .left := fun h ↦ absurd h hs

/-- If a call has not returned, it is the last one, and nothing is turned on or off. -/
theorem exists_last (hx : x.Faithful l₀) (h : ¬∀ c ∈ x.calls, c.stage = .returned) :
    ∃ before c, x.calls = before ++ [c] ∧ c.stage ≠ .returned ∧ x.switch = .idle := by
  rcases List.eq_nil_or_concat x.calls with hnil | ⟨before, c, hc⟩
  · exact absurd (by rw [hnil]; nofun) h
  · rw [List.concat_eq_append] at hc
    obtain ⟨hbefore, hfits⟩ := hx.alone hc
    have hs : c.stage ≠ .returned := by
      intro hlast
      refine h ?_
      rw [hc]
      exact List.forall_mem_append.2 ⟨hbefore, List.forall_mem_singleton.2 hlast⟩
    exact ⟨before, c, hc, hs, hfits.idle hs⟩

/-- While something is turned on or off, all calls have returned. -/
theorem returned (hx : x.Faithful l₀) (hs : x.switch ≠ .idle) :
    ∀ c ∈ x.calls, c.stage = .returned := by
  refine Classical.byContradiction fun h ↦ ?_
  obtain ⟨_, _, _, _, hidle⟩ := hx.exists_last h
  exact hs hidle

/-- Calls that have returned fit to anything. -/
theorem alone_of_returned {calls : List Call} (h : ∀ c ∈ calls, c.stage = .returned)
    {switch : Switch} {asynchronous : Bool} (hc : calls = before ++ [c]) :
    (∀ b ∈ before, b.stage = .returned) ∧ c.Fits switch asynchronous := by
  rw [hc] at h
  exact ⟨fun b hb ↦ h b (List.mem_append_left _ hb),
    Call.fits_of_returned (h c (List.mem_append_right _ (List.mem_singleton.2 rfl)))⟩

/-- One call after others that have returned is alone if it fits. -/
theorem alone_of_fits (hbefore : ∀ b ∈ before, b.stage = .returned) {switch : Switch}
    {asynchronous : Bool} (hfits : c.Fits switch asynchronous) {before' : List Call} {c' : Call}
    (h : before ++ [c] = before' ++ [c']) :
    (∀ b ∈ before', b.stage = .returned) ∧ c'.Fits switch asynchronous := by
  obtain ⟨rfl, hc⟩ := List.append_inj' h rfl
  rw [← (List.cons.inj hc).1]
  exact ⟨hbefore, hfits⟩

/-- A call begins. -/
theorem log (hx : x.Faithful l₀) (hr : x.Rests) (line : Bytes) :
    Faithful l₀ { x with calls := x.calls ++ [{ line := line }] } where
  phase := hx.phase
  working := hx.working
  queue := hx.queue
  late := hx.late
  hired := hx.hired
  alone := alone_of_fits (c := { line := line }) hr.calls hr.switch
  order := by
    have horder := hx.order
    rw [flatMap_pending hr.calls] at horder
    rw [flatMap_pending_concat hr.calls, Logger.lines, List.map_append]
    exact horder.log line

/-- The threshold is set. -/
theorem setLevel (hx : x.Faithful l₀) (level : Log.Level) :
    Faithful l₀ { x with log := { x.log with threshold := level } } where
  phase := hx.phase
  working := hx.working
  queue := hx.queue
  late := hx.late
  hired := hx.hired
  alone := hx.alone
  order := hx.order

/-- The writer is to be turned on or off. -/
theorem turn (hx : x.Faithful l₀) (hr : x.Rests) {s : Switch}
    (hs : s = .entering ∨ s = .withdrawing) : Faithful l₀ { x with switch := s } where
  phase := by
    have hphase := hx.phase
    rw [hr.switch] at hphase
    rcases hs with rfl | rfl
    · exact hphase
    · exact hphase
  working := hx.working
  queue := hx.queue
  late := hx.late
  hired := hired_of_ne (s := s) (by rcases hs with rfl | rfl <;> decide)
  alone := alone_of_returned hr.calls
  order := hx.order

/-- **A step of the call** keeps the order. -/
theorem call (hx : x.Faithful l₀) (hc : x.calls = before ++ [c]) (hs : c.stage ≠ .returned) :
    Faithful l₀ { x with
      log := (c.tick x.log).2
      calls := before ++ [(c.tick x.log).1]
      late := if c.stage = .pushing ∧ x.writer.working = false then x.late ++ [c.line]
        else x.late } := by
  obtain ⟨hbefore, hfits⟩ := hx.alone hc
  have hattended := hx.toAttended.call c (before ++ [(c.tick x.log).1])
  have hswitch := hfits.idle hs
  have hphase := hx.phase
  rw [hswitch] at hphase
  have horder := hx.order
  have hlines : (before ++ [(c.tick x.log).1]).map (·.line) = x.lines := by
    rw [Logger.lines, hc, List.map_append, List.map_append, List.map_singleton, Call.tick_line]
    rfl
  rw [hc, flatMap_pending_concat hbefore, Call.pending_of_ne hs, ← hlines] at horder
  obtain ⟨line, stage⟩ := c
  cases stage with
  | testing =>
    refine ⟨hattended, hx.late, hx.hired, alone_of_fits hbefore ?_, ?_⟩
    · show Call.Fits ⟨line, if x.log.asynchronous then .pushing else .writing⟩ x.switch _
      cases ha : x.log.asynchronous with
      | true => exact ⟨hswitch, ha⟩
      | false => exact ⟨hswitch, ha⟩
    · rw [flatMap_pending_concat hbefore,
        Call.pending_of_ne (Call.found_ne_returned x.log.asynchronous)]
      exact horder
  | pushing =>
    -- The mode is on, so the writer is at work, and the line is not late.
    have hworking : x.writer.working = true := hphase.1.trans hfits.2
    refine ⟨hattended, ?_, hx.hired, alone_of_fits hbefore (Call.fits_of_returned rfl), ?_⟩
    · exact (if_neg fun h ↦ by cases hworking.symm.trans h.2).trans hx.late
    · rw [flatMap_pending_concat hbefore]
      exact horder.push
  | writing =>
    -- The mode is off, so there is no writer and nothing is queued: the line overtakes none.
    have habsent := hphase.2.2 hfits.2
    have hqueue := (hx.queue (by rw [habsent]; rfl)).trans hx.late
    refine ⟨hattended, hx.late, hx.hired, alone_of_fits hbefore (Call.fits_of_returned rfl), ?_⟩
    rw [flatMap_pending_concat hbefore]
    exact horder.deliver (by rw [habsent]; rfl) hqueue
  | returned => exact absurd rfl hs

/-- **A step of the writer** keeps the order. -/
theorem write (hx : x.Faithful l₀) : Faithful l₀ { x with
    log := (x.writer.tick x.running x.log).2
    writer := (x.writer.tick x.running x.log).1 } where
  toAttended := hx.toAttended.write
  late := hx.late
  hired hs := by
    rcases hx.hired hs with hworking | hleft
    · exact (Writer.working_tick hworking).imp_right And.left
    · rw [Writer.tick_of_not_working (by rw [hleft]; rfl)]
      exact .inr hleft
  alone hc := by
    rw [Writer.tick_asynchronous]
    exact hx.alone hc
  order := hx.order.tick x.running

/-- **A step of turning on or off** keeps the order. -/
theorem toggle (hx : x.Faithful l₀) (hs : x.switch ≠ .idle)
    (hj : x.switch = .joining → x.writer = .left) : Faithful l₀ x.toggle := by
  have hattended := hx.toAttended.toggle hj
  have hreturned := hx.returned hs
  have hphase := hx.phase
  have horder := hx.order
  rw [Logger.toggle] at hattended ⊢
  cases hswitch : x.switch with
  | idle => exact absurd hswitch hs
  | entering =>
    rw [hswitch] at hattended
    have hne : (if x.log.asynchronous then Switch.idle else .launching) ≠ .joining := by
      cases x.log.asynchronous <;> decide
    exact ⟨hattended, hx.late, hired_of_ne hne, alone_of_returned hreturned, horder⟩
  | launching =>
    rw [hswitch] at hattended hphase
    rw [hphase.2] at horder
    exact ⟨hattended, rfl, hired_of_ne (s := .announcing) (by decide),
      alone_of_returned hreturned, horder⟩
  | announcing =>
    rw [hswitch] at hattended
    exact ⟨hattended, hx.late, hired_of_ne (s := .idle) (by decide),
      alone_of_returned hreturned, horder⟩
  | withdrawing =>
    rw [hswitch] at hattended
    have hne : (if x.log.asynchronous then Switch.dismissing else .idle) ≠ .joining := by
      cases x.log.asynchronous <;> decide
    exact ⟨hattended, hx.late, hired_of_ne hne, alone_of_returned hreturned, horder⟩
  | dismissing =>
    rw [hswitch] at hattended hphase
    exact ⟨hattended, hx.late, fun _ ↦ .inl hphase.2.1, alone_of_returned hreturned, horder⟩
  | joining =>
    rw [hswitch] at hattended
    rw [hj hswitch] at horder
    exact ⟨hattended, hx.late, hired_of_ne (s := .idle) (by decide),
      alone_of_returned hreturned, horder⟩

end Faithful

end Logger

end TaskRuntime
