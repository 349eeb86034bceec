import TaskRuntime.Log

/-!
# Lines that come too late

Any number of threads log while one thread turns the background writer on and off. Each call is
taken apart into its atomic steps, and so is the writer, and all of them are interleaved in any way
(`Logger.Move`). A call that logs looks at the mode first, and later pushes its line or writes it.

No line is lost or doubled on its way (`Logger.Sound.kept`). But a call that has found the mode on
may push its line when the mode has been turned off since, and the writer has left. Such a line is
late: it stays in the queue until the mode is turned on again. When everything has come to rest and
the mode is off, the lines that have been written are exactly those that were not late
(`Logger.Run.written_unless_late`), and late lines do come about (`Logger.late_unwritten`).

Steps that are left alone make up the functions `Log.emit`, `Log.startAsync` and `Log.stopAsync`
(`Logger.Call.tick_emit`, `Logger.run_startAsync`, `Logger.run_stopAsync`).
-/

namespace TaskRuntime

/-! ### The steps -/

namespace Logger

/-- Where a call that logs a line is: what it is about to do. -/
inductive Stage
  /-- To look at the mode. -/
  | testing
  /-- To push the line. -/
  | pushing
  /-- To write the line. -/
  | writing
  /-- Nothing: it has returned. -/
  | returned
  deriving DecidableEq

/-- A call that logs a line. -/
structure Call where
  /-- The line. -/
  line : Bytes
  /-- Where the call is. -/
  stage : Stage := .testing

/-- **One step of a call**, and what it does to the log. -/
def Call.tick (c : Call) (l : Log) : Call × Log :=
  match c.stage with
  | .testing => ({ c with stage := if l.asynchronous then .pushing else .writing }, l)
  | .pushing => ({ c with stage := .returned }, { l with queue := l.queue ++ [c.line] })
  | .writing => ({ c with stage := .returned }, l.deliver c.line)
  | .returned => (c, l)

/-- Where the background writer is. -/
inductive Writer
  /-- There is none. -/
  | absent
  /-- It is about to look into the queue. -/
  | looking
  /-- It is about to write a line that it has taken. -/
  | carrying (line : Bytes)
  /-- It has left. -/
  | left

/-- The writer is at work: it will look into the queue again. -/
def Writer.working : Writer → Bool
  | looking => true
  | carrying _ => true
  | _ => false

/-- The line that the writer carries. -/
def Writer.carried : Writer → List Bytes
  | carrying line => [line]
  | _ => []

/-- **One step of the writer**, who is to go on or to leave. -/
def Writer.tick (running : Bool) (l : Log) : Writer → Writer × Log
  | looking =>
    match l.queue with
    | line :: rest => (carrying line, { l with queue := rest })
    | [] => (if running then looking else left, l)
  | carrying line => (looking, l.deliver line)
  | w => (w, l)

/-- Where the thread is that turns the writer on and off. -/
inductive Switch
  /-- Elsewhere. -/
  | idle
  /-- Turning on: about to look at the mode. -/
  | entering
  /-- Turning on: about to launch the writer. -/
  | launching
  /-- Turning on: about to set the mode. -/
  | announcing
  /-- Turning off: about to take the mode away. -/
  | withdrawing
  /-- Turning off: about to tell the writer to leave. -/
  | dismissing
  /-- Turning off: waiting for the writer to have left. -/
  | joining
  deriving DecidableEq

/-- Nobody writes while the thread holds the lock of the sinks: it does after it has looked at the
mode to turn it on. -/
def Switch.locks : Switch → Bool
  | launching => true
  | announcing => true
  | _ => false

end Logger

/-- A log, and who works with it. -/
structure Logger where
  /-- The log. -/
  log : Log := {}
  /-- Whether the writer is to go on. -/
  running : Bool := false
  /-- The writer. -/
  writer : Logger.Writer := .absent
  /-- The thread that turns the writer on and off. -/
  switch : Logger.Switch := .idle
  /-- The calls, in the order in which they have begun. -/
  calls : List Logger.Call := []
  /-- The lines that have been pushed since there is no writer at work. -/
  late : List Bytes := []

namespace Logger

/-- **One step** of the thread that turns the writer on and off. -/
def toggle (x : Logger) : Logger :=
  match x.switch with
  | .idle => x
  | .entering => { x with switch := if x.log.asynchronous then .idle else .launching }
  | .launching => { x with running := true, writer := .looking, late := [], switch := .announcing }
  | .announcing => { x with log := { x.log with asynchronous := true }, switch := .idle }
  | .withdrawing => { x with
      log := { x.log with asynchronous := false }
      switch := if x.log.asynchronous then .dismissing else .idle }
  | .dismissing => { x with running := false, switch := .joining }
  | .joining => { x with writer := .absent, switch := .idle }

/-- **One step** of anybody. -/
inductive Move : Logger → Logger → Prop
  /-- A thread begins to log a message. -/
  | log {x} (tag message : Bytes) :
    Move x { x with calls := x.calls ++ [{ line := Log.line tag message }] }
  /-- A call makes a step. -/
  | call {x before c after} (hc : x.calls = before ++ c :: after)
      (hl : c.stage = .writing → x.switch.locks = false) :
    Move x { x with
      log := (c.tick x.log).2
      calls := before ++ (c.tick x.log).1 :: after
      late := if c.stage = .pushing ∧ x.writer.working = false then x.late ++ [c.line]
        else x.late }
  /-- The writer makes a step. -/
  | write {x} (hl : x.writer.carried ≠ [] → x.switch.locks = false) :
    Move x { x with
      log := (x.writer.tick x.running x.log).2
      writer := (x.writer.tick x.running x.log).1 }
  /-- Somebody is to turn the writer on. -/
  | turnOn {x} (hs : x.switch = .idle) : Move x { x with switch := .entering }
  /-- Somebody is to turn the writer off. -/
  | turnOff {x} (hs : x.switch = .idle) : Move x { x with switch := .withdrawing }
  /-- The thread that does so makes a step; it waits until the writer has left. -/
  | toggle {x} (hj : x.switch = .joining → x.writer = .left) : Move x x.toggle

/-- Any number of steps. -/
inductive Run (x₀ : Logger) : Logger → Prop
  /-- No step. -/
  | refl : Run x₀ x₀
  /-- One more step. -/
  | step {x x'} (hr : Run x₀ x) (hm : Move x x') : Run x₀ x'

/-- **Nobody has logged yet**, and there is no writer. -/
structure Fresh (x : Logger) : Prop where
  /-- The mode is off. -/
  asynchronous : x.log.asynchronous = false
  /-- Nothing is queued. -/
  queue : x.log.queue = []
  /-- Nothing has been written. -/
  written : x.log.written = []
  /-- There is no writer. -/
  writer : x.writer = .absent
  /-- None is to go on. -/
  running : x.running = false
  /-- Nobody turns it on or off. -/
  switch : x.switch = .idle
  /-- Nobody has logged. -/
  calls : x.calls = []
  /-- No line is late. -/
  late : x.late = []

/-- **Every call has returned, and the mode is off.** -/
structure Quiet (x : Logger) : Prop where
  /-- Each call that logs has returned. -/
  calls : ∀ c ∈ x.calls, c.stage = .returned
  /-- So has the one that turns the writer on or off. -/
  switch : x.switch = .idle
  /-- The mode is off. -/
  asynchronous : x.log.asynchronous = false

/-- The lines that have been logged. -/
def lines (x : Logger) : List Bytes := x.calls.map (·.line)

/-- **Each line that has been logged has been written exactly once.** -/
def AllWritten (x : Logger) : Prop := x.log.written.Perm x.lines

/-! ### What holds at each moment -/

/-- The lines of the calls that are still to push or to write them. -/
def Call.pending (c : Call) : List Bytes := if c.stage = .returned then [] else [c.line]

/-- How often a line is somewhere between its call and the sinks, or there. -/
def places (x : Logger) (line : Bytes) : Nat :=
  (x.log.written.count line + x.writer.carried.count line) +
    (x.log.queue.count line + (x.calls.flatMap Call.pending).count line)

/-- **Where mode and writer are**, for each position of the thread that turns them on and off. -/
def Phase (asynchronous running : Bool) (w : Writer) : Switch → Prop
  | .launching => asynchronous = false ∧ w = .absent
  | .announcing => asynchronous = false ∧ w.working = true ∧ running = true
  | .dismissing => asynchronous = false ∧ w.working = true ∧ running = true
  | .joining => asynchronous = false ∧ running = false
  | _ => w.working = asynchronous ∧ running = asynchronous ∧ (asynchronous = false → w = .absent)

/-- **Mode, writer and queue fit together.** -/
structure Attended (x : Logger) : Prop where
  /-- Mode and writer are where the thread has left them. -/
  phase : Phase x.log.asynchronous x.running x.writer x.switch
  /-- As long as the writer is at work, no line is late. -/
  working : x.writer.working = true → x.late = []
  /-- Otherwise all that is queued is late. -/
  queue : x.writer.working = false → x.log.queue = x.late

/-- **What holds at each moment.** -/
structure Sound (x : Logger) : Prop extends Attended x where
  /-- Each line is in as many places as it has been logged. -/
  kept : ∀ line, places x line = x.lines.count line

variable {x x' x₀ : Logger} {line : Bytes}

/-! ### Steps of a call -/

namespace Call

variable {c : Call} {l : Log}

theorem pending_of_eq (h : c.stage = .returned) : c.pending = [] := if_pos h

theorem pending_of_ne (h : c.stage ≠ .returned) : c.pending = [c.line] := if_neg h

theorem tick_asynchronous : (c.tick l).2.asynchronous = l.asynchronous := by
  rw [tick]
  cases c.stage <;> rfl

theorem tick_line : (c.tick l).1.line = c.line := by
  rw [tick]
  cases c.stage <;> rfl

theorem tick_queue : (c.tick l).2.queue =
    if c.stage = .pushing then l.queue ++ [c.line] else l.queue := by
  rw [tick]
  cases c.stage <;> rfl

/-- A call that has looked at the mode has not returned. -/
theorem found_ne_returned (asynchronous : Bool) :
    (if asynchronous then Stage.pushing else .writing) ≠ .returned := by
  cases asynchronous <;> decide

/-- A step of a call moves its line from one place to another, or leaves it. -/
theorem tick_count (c : Call) (line : Bytes) (l : Log) :
    ((c.tick l).2.written.count line + (c.tick l).2.queue.count line) +
      (c.tick l).1.pending.count line =
        (l.written.count line + l.queue.count line) + c.pending.count line := by
  rw [tick]
  cases hs : c.stage with
  | testing =>
    rw [pending_of_ne (c := c) (by rw [hs]; nofun),
      pending_of_ne (found_ne_returned l.asynchronous)]
  | pushing =>
    rw [pending_of_ne (c := c) (by rw [hs]; nofun), pending_of_eq rfl]
    simp only [List.count_append, List.count_nil]
    omega
  | writing =>
    rw [pending_of_ne (c := c) (by rw [hs]; nofun), pending_of_eq rfl]
    simp only [Log.deliver, List.count_append, List.count_nil]
    omega
  | returned => rfl

/-- **A call that is left alone** emits its message. -/
theorem tick_emit (l : Log) (tag message : Bytes) :
    (let (c, l) := tick { line := Log.line tag message } l
     let (c, l) := c.tick l
     (c.stage, l)) = (.returned, l.emit tag message) := by
  rw [Log.emit]
  dsimp only [tick]
  cases l.asynchronous <;> rfl

end Call

/-- A call that is pending counts wherever it stands. -/
theorem count_pending (before after : List Call) (c : Call) :
    ((before ++ c :: after).flatMap Call.pending).count line =
      ((before ++ after).flatMap Call.pending).count line + c.pending.count line := by
  simp only [List.flatMap_append, List.flatMap_cons, List.count_append]
  omega

theorem Attended.call (hx : x.Attended) (c : Call) (calls : List Call) :
    Attended { x with
      log := (c.tick x.log).2
      calls := calls
      late := if c.stage = .pushing ∧ x.writer.working = false then x.late ++ [c.line]
        else x.late } where
  phase := by
    show Phase (c.tick x.log).2.asynchronous x.running x.writer x.switch
    rw [Call.tick_asynchronous]
    exact hx.phase
  working hw := by
    rw [if_neg fun h ↦ by cases hw.symm.trans h.2]
    exact hx.working hw
  queue hw := by
    show (c.tick x.log).2.queue = _
    rw [Call.tick_queue, hx.queue hw]
    by_cases hs : c.stage = .pushing
    · rw [if_pos hs, if_pos ⟨hs, hw⟩]
    · rw [if_neg hs, if_neg fun h ↦ hs h.1]

/-- **A step of a call** keeps what holds. -/
theorem Sound.call {before after : List Call} {c : Call} (hx : x.Sound)
    (hc : x.calls = before ++ c :: after) :
    Sound { x with
      log := (c.tick x.log).2
      calls := before ++ (c.tick x.log).1 :: after
      late := if c.stage = .pushing ∧ x.writer.working = false then x.late ++ [c.line]
        else x.late } where
  toAttended := hx.toAttended.call c _
  kept line := by
    have hkept := hx.kept line
    have htick := c.tick_count line x.log
    rw [places, lines, hc, count_pending] at hkept
    rw [places, lines, count_pending, List.map_append, List.map_cons, Call.tick_line,
      ← List.map_cons, ← List.map_append, ← hkept]
    dsimp only
    omega

/-! ### Steps of the writer -/

namespace Writer

variable {w w' : Writer} {running : Bool} {l : Log}

theorem tick_asynchronous : (w.tick running l).2.asynchronous = l.asynchronous := by
  cases w with
  | looking =>
    rw [tick]
    split <;> rfl
  | _ => rfl

/-- A step of the writer moves a line from one place to another. -/
theorem tick_count (w : Writer) (line : Bytes) (running : Bool) (l : Log) :
    ((w.tick running l).2.written.count line + (w.tick running l).1.carried.count line) +
      (w.tick running l).2.queue.count line =
        (l.written.count line + w.carried.count line) + l.queue.count line := by
  cases w with
  | looking =>
    rw [tick]
    split
    · next first rest hq =>
      simp only [carried, hq, List.count_cons, List.count_nil]
      omega
    · cases running <;> rfl
  | carrying first => simp [tick, carried, Log.deliver]
  | _ => rfl

/-- A writer that is not at work does nothing. -/
theorem tick_of_not_working (h : w.working = false) : w.tick running l = (w, l) := by
  cases w with
  | looking => cases h
  | carrying first => cases h
  | _ => rfl

/-- A writer that is at work stays at work, or leaves since it is to, and nothing is queued. -/
theorem working_tick (h : w.working = true) : (w.tick running l).1.working = true ∨
    (w.tick running l).1 = .left ∧ running = false ∧ (w.tick running l).2.queue = [] := by
  cases w with
  | looking =>
    rw [tick]
    split
    · exact .inl rfl
    · next hq =>
      cases running with
      | true => exact .inl rfl
      | false => exact .inr ⟨rfl, rfl, hq⟩
  | carrying first => exact .inl rfl
  | _ => cases h

end Writer

/-- Writers at work are alike for the thread that turns them on and off. -/
theorem Phase.of_working {asynchronous running : Bool} {w w' : Writer} {s : Switch}
    (hw : w.working = true) (hw' : w'.working = true) (h : Phase asynchronous running w s) :
    Phase asynchronous running w' s := by
  have habsent : w ≠ .absent := by
    rintro rfl
    cases hw
  cases s with
  | launching => exact absurd h.2 habsent
  | announcing => exact ⟨h.1, hw', h.2.2⟩
  | dismissing => exact ⟨h.1, hw', h.2.2⟩
  | joining => exact h
  | _ => exact ⟨hw'.trans (hw.symm.trans h.1), h.2.1, fun ha ↦ absurd (h.2.2 ha) habsent⟩

/-- A writer at work that is to leave is waited for. -/
theorem Phase.eq_joining {asynchronous : Bool} {w : Writer} {s : Switch} (hw : w.working = true)
    (h : Phase asynchronous false w s) : s = .joining := by
  cases s with
  | launching =>
    rw [h.2] at hw
    cases hw
  | announcing => cases h.2.2
  | dismissing => cases h.2.2
  | joining => rfl
  | _ => cases hw.symm.trans (h.1.trans h.2.1.symm)

theorem Attended.write (hx : x.Attended) : Attended { x with
    log := (x.writer.tick x.running x.log).2
    writer := (x.writer.tick x.running x.log).1 } := by
  cases hw : x.writer.working with
  | false =>
    rw [Writer.tick_of_not_working hw]
    exact hx
  | true =>
    have hphase := hx.phase
    have htick : (x.writer.tick x.running x.log).1.working = true ∨ _ := Writer.working_tick hw
    refine ⟨?_, fun _ ↦ hx.working hw, fun hleft ↦ ?_⟩
    · show Phase (x.writer.tick x.running x.log).2.asynchronous _ _ _
      rw [Writer.tick_asynchronous]
      rcases htick with hstays | ⟨hleft, hrunning, -⟩
      · exact hphase.of_working hw hstays
      · rw [hrunning] at hphase
        have hs := hphase.eq_joining hw
        rw [hs] at hphase ⊢
        exact ⟨hphase.1, hrunning⟩
    · rcases htick with hstays | ⟨-, -, hempty⟩
      · cases hstays.symm.trans hleft
      · exact hempty.trans (hx.working hw).symm

/-- **A step of the writer** keeps what holds. -/
theorem Sound.write (hx : x.Sound) : Sound { x with
    log := (x.writer.tick x.running x.log).2
    writer := (x.writer.tick x.running x.log).1 } where
  toAttended := hx.toAttended.write
  kept line := by
    have hkept := hx.kept line
    have hcount := x.writer.tick_count line x.running x.log
    rw [places, lines] at hkept ⊢
    dsimp only
    omega

/-! ### Turning the writer on and off -/

theorem Attended.toggle (hx : x.Attended) (hj : x.switch = .joining → x.writer = .left) :
    x.toggle.Attended := by
  obtain ⟨hphase, hworking, hqueue⟩ := hx
  rw [Logger.toggle]
  cases hs : x.switch with
  | idle => exact ⟨hphase, hworking, hqueue⟩
  | entering =>
    rw [hs] at hphase
    refine ⟨?_, hworking, hqueue⟩
    show Phase x.log.asynchronous x.running x.writer
      (if x.log.asynchronous then .idle else .launching)
    cases ha : x.log.asynchronous with
    | true =>
      rw [ha] at hphase
      exact hphase
    | false => exact ⟨rfl, hphase.2.2 ha⟩
  | launching =>
    rw [hs] at hphase
    exact ⟨⟨hphase.1, rfl, rfl⟩, fun _ ↦ rfl, nofun⟩
  | announcing =>
    rw [hs] at hphase
    exact ⟨⟨hphase.2.1, hphase.2.2, nofun⟩, hworking, hqueue⟩
  | withdrawing =>
    rw [hs] at hphase
    refine ⟨?_, hworking, hqueue⟩
    show Phase false x.running x.writer (if x.log.asynchronous then .dismissing else .idle)
    cases ha : x.log.asynchronous with
    | true => exact ⟨rfl, hphase.1.trans ha, hphase.2.1.trans ha⟩
    | false =>
      rw [ha] at hphase
      exact hphase
  | dismissing =>
    rw [hs] at hphase
    exact ⟨⟨hphase.1, rfl⟩, hworking, hqueue⟩
  | joining =>
    rw [hs] at hphase
    exact ⟨⟨hphase.1.symm, hphase.2.trans hphase.1.symm, fun _ ↦ rfl⟩, nofun,
      fun _ ↦ hqueue (by rw [hj hs]; rfl)⟩

/-- **A step of turning on or off** keeps what holds. -/
theorem Sound.toggle (hx : x.Sound) (hj : x.switch = .joining → x.writer = .left) :
    x.toggle.Sound where
  toAttended := hx.toAttended.toggle hj
  kept line := by
    have hplaces := hx.kept line
    have hphase := hx.phase
    rw [Logger.toggle]
    cases hs : x.switch with
    | launching =>
      rw [hs] at hphase
      rw [places, hphase.2] at hplaces
      exact hplaces
    | joining =>
      rw [places, hj hs] at hplaces
      exact hplaces
    | _ => exact hplaces

/-! ### All together -/

/-- **What holds goes on to hold**, whoever makes a step. -/
theorem Sound.move (hx : x.Sound) (hm : Move x x') : x'.Sound := by
  cases hm with
  | log tag message =>
    refine ⟨⟨hx.phase, hx.working, hx.queue⟩, fun line ↦ ?_⟩
    have hkept := hx.kept line
    rw [places, lines] at hkept ⊢
    have hone : [({ line := Log.line tag message } : Call)].flatMap Call.pending =
        [Log.line tag message] := rfl
    rw [List.flatMap_append, List.map_append, List.count_append, List.count_append, ← hkept, hone,
      List.map_singleton]
    dsimp only
    omega
  | call hc _ => exact hx.call hc
  | write _ => exact hx.write
  | turnOn hs =>
    have hphase := hx.phase
    rw [hs] at hphase
    exact ⟨⟨hphase, hx.working, hx.queue⟩, hx.kept⟩
  | turnOff hs =>
    have hphase := hx.phase
    rw [hs] at hphase
    exact ⟨⟨hphase, hx.working, hx.queue⟩, hx.kept⟩
  | toggle hj => exact hx.toggle hj

theorem Fresh.sound (hf : x.Fresh) : x.Sound where
  phase := by
    rw [hf.switch, hf.writer, hf.running, hf.asynchronous]
    exact ⟨rfl, rfl, fun _ ↦ rfl⟩
  kept line := by simp [places, lines, hf.written, hf.writer, hf.queue, hf.calls, Writer.carried]
  working _ := hf.late
  queue _ := hf.queue.trans hf.late.symm

theorem Run.sound (hf : x₀.Fresh) (hr : Run x₀ x) : x.Sound := by
  induction hr with
  | refl => exact hf.sound
  | step _ hm ih => exact ih.move hm

/-- **When all is quiet**, each line that has been logged has been written once, or it is late and
still queued. So all lines have been written exactly if none is late. -/
theorem Run.written_unless_late (hf : x₀.Fresh) (hr : Run x₀ x) (hq : x.Quiet) :
    (x.log.written ++ x.late).Perm x.lines ∧ x.log.queue = x.late ∧
      (x.AllWritten ↔ x.late = []) := by
  have hx := hr.sound hf
  have hphase := hx.phase
  rw [hq.switch] at hphase
  have habsent := hphase.2.2 hq.asynchronous
  have hqueue : x.log.queue = x.late := hx.queue (by rw [habsent]; rfl)
  have hpending : x.calls.flatMap Call.pending = [] :=
    List.flatMap_eq_nil_iff.2 fun c hc ↦ Call.pending_of_eq (hq.calls c hc)
  have hperm : (x.log.written ++ x.late).Perm x.lines := by
    refine List.perm_iff_count.2 fun line ↦ ?_
    have hkept := hx.kept line
    rw [places, habsent, hpending, hqueue] at hkept
    rw [List.count_append, ← hkept]
    rfl
  refine ⟨hperm, hqueue, fun hall ↦ ?_, fun hlate ↦ ?_⟩
  · have hlength := (hperm.trans hall.symm).length_eq
    rw [List.length_append] at hlength
    exact List.eq_nil_of_length_eq_zero (by omega)
  · rw [hlate, List.append_nil] at hperm
    exact hperm

/-- The mode is on, and a call has found it so. -/
theorem run_tested (tag message : Bytes) :
    Run {} { log := { asynchronous := true }, running := true, writer := .looking
             calls := [⟨Log.line tag message, .pushing⟩] } := by
  have hon : Run {} { log := { asynchronous := true }, running := true, writer := .looking } :=
    .step (.step (.step (.step .refl (.turnOn rfl)) (.toggle nofun)) (.toggle nofun))
      (.toggle nofun)
  exact .step (.step hon (.log tag message)) (@Move.call _ [] ⟨_, .testing⟩ [] rfl nofun)

/-- A line that is pushed before the mode is turned off is written once. -/
theorem written_in_time : ∃ line, ∃ x : Logger, Fresh {} ∧ Run {} x ∧ x.Quiet ∧
    x.lines = [line] ∧ x.AllWritten := by
  let line := Log.line (Bytes.utf8 "main") (Bytes.utf8 "in time")
  have hf : Fresh {} := ⟨rfl, rfl, rfl, rfl, rfl, rfl, rfl, rfl⟩
  have hpushed : Run {} { log := { asynchronous := true, queue := [line] }, running := true
                          writer := .looking, calls := [⟨line, .returned⟩] } :=
    .step (run_tested _ _) (@Move.call _ [] ⟨line, .pushing⟩ [] rfl nofun)
  have hdismissed : Run {} { log := { queue := [line] }, writer := .looking, switch := .joining
                             calls := [⟨line, .returned⟩] } :=
    .step (.step (.step hpushed (.turnOff rfl)) (.toggle nofun)) (.toggle nofun)
  have hwritten : Run {} { log := ({} : Log).deliver line, writer := .left, switch := .joining
                           calls := [⟨line, .returned⟩] } :=
    .step (.step (.step hdismissed (.write nofun)) (.write fun _ ↦ rfl)) (.write nofun)
  have hjoined : Run {} { log := ({} : Log).deliver line, calls := [⟨line, .returned⟩] } :=
    .step hwritten (.toggle fun _ ↦ rfl)
  have hq : Quiet { log := ({} : Log).deliver line, calls := [⟨line, .returned⟩] } :=
    ⟨fun c hc ↦ by rw [List.mem_singleton.1 hc], rfl, rfl⟩
  exact ⟨line, _, hf, hjoined, hq, rfl, (Run.written_unless_late hf hjoined hq).2.2.2 rfl⟩

/-- **A line can be late**: its call finds the mode on, the mode is turned off and the writer
leaves, and only then the call pushes the line. All is quiet then, and the line has not been
written. -/
theorem late_unwritten : ∃ line, ∃ x : Logger, Fresh {} ∧ Run {} x ∧ x.Quiet ∧
    x.lines = [line] ∧ x.log.written = [] ∧ ¬x.AllWritten := by
  let line := Log.line (Bytes.utf8 "main") (Bytes.utf8 "late")
  have hoff : Run {} { calls := [⟨line, .pushing⟩] } :=
    .step (.step (.step (.step (.step (run_tested _ _) (.turnOff rfl)) (.toggle nofun))
      (.toggle nofun)) (.write nofun)) (.toggle fun _ ↦ rfl)
  have hpushed : Run {} { log := { queue := [line] }, calls := [⟨line, .returned⟩]
                          late := [line] } :=
    .step hoff (@Move.call _ [] ⟨line, .pushing⟩ [] rfl nofun)
  refine ⟨line, _, ⟨rfl, rfl, rfl, rfl, rfl, rfl, rfl, rfl⟩, hpushed, ⟨?_, rfl, rfl⟩, rfl, rfl,
    fun hall ↦ ?_⟩
  · intro c hc
    rw [List.mem_singleton.1 hc]
  · cases hall.length_eq

/-! ### Functions -/

theorem Run.trans {x'' : Logger} (hr : Run x x') (hr' : Run x' x'') : Run x x'' := by
  induction hr' with
  | refl => exact hr
  | step _ hm ih => exact ih.step hm

/-- **Turning on that is left alone** is the function. -/
theorem run_startAsync (hs : x.switch = .idle) :
    ∃ x', Run x x' ∧ x'.switch = .idle ∧ x'.log = x.log.startAsync := by
  have hturn : Run x { x with switch := .entering } := .step .refl (.turnOn hs)
  cases ha : x.log.asynchronous with
  | true =>
    refine ⟨_, hturn.step (.toggle nofun), ?_, ?_⟩
    · show (if x.log.asynchronous then Switch.idle else .launching) = .idle
      rw [ha, if_pos rfl]
    · show x.log = _
      rw [Log.startAsync, ← ha]
  | false =>
    have henter : Run x { x with switch := .launching } := by
      have henter := hturn.step (.toggle nofun)
      dsimp only [toggle] at henter
      rwa [ha, if_neg Bool.false_ne_true] at henter
    exact ⟨_, (henter.step (.toggle nofun)).step (.toggle nofun), rfl, rfl⟩

/-- A writer that is to leave delivers all that is queued first. -/
theorem run_drain (hs : x.switch = .joining) (hr : x.running = false) (hw : x.writer = .looking) :
    ∃ x', Run x x' ∧ x'.switch = .joining ∧ x'.writer = .left ∧
      x'.log = { x.log with queue := [] }.deliverAll x.log.queue := by
  induction hq : x.log.queue generalizing x with
  | nil =>
    have htick : x.writer.tick x.running x.log = (.left, x.log) := by
      rw [hw, Writer.tick, hq, hr]
      rfl
    have hleave : Run x _ := .step .refl (.write (by rw [hw]; nofun))
    rw [htick] at hleave
    refine ⟨_, hleave, hs, rfl, ?_⟩
    show x.log = { x.log with queue := [] }
    rw [← hq]
  | cons line rest ih =>
    have htick : x.writer.tick x.running x.log =
        (.carrying line, { x.log with queue := rest }) := by
      rw [hw, Writer.tick, hq]
    have htake : Run x _ := .step .refl (.write (by rw [hw]; nofun))
    rw [htick] at htake
    have hwrite := htake.step (.write fun _ ↦ by rw [hs]; rfl)
    obtain ⟨x', hrun, hs', hw', hlog⟩ := ih (x := { x with
      log := { x.log with queue := rest }.deliver line
      writer := .looking }) hs hr rfl rfl
    exact ⟨x', hwrite.trans hrun, hs', hw', hlog⟩

/-- **Turning off that is left alone** is the function. -/
theorem run_stopAsync (hs : x.switch = .idle)
    (hw : x.log.asynchronous = true → x.writer = .looking) :
    ∃ x', Run x x' ∧ x'.switch = .idle ∧ x'.log = x.log.stopAsync := by
  have hturn : Run x { x with switch := .withdrawing } := .step .refl (.turnOff hs)
  have hwithdraw := hturn.step (.toggle nofun)
  dsimp only [toggle] at hwithdraw
  rw [Log.stopAsync]
  cases ha : x.log.asynchronous with
  | true =>
    rw [ha, if_pos rfl] at hwithdraw
    have hdismiss := hwithdraw.step (.toggle nofun)
    obtain ⟨x', hrun, hs', hw', hlog⟩ := run_drain (x := { x with
      log := { x.log with asynchronous := false }
      running := false
      switch := .joining }) rfl rfl (hw ha)
    refine ⟨_, (hdismiss.trans hrun).step (.toggle fun _ ↦ hw'), ?_, ?_⟩
    · rw [toggle, hs']
    · rw [toggle, hs']
      exact hlog
  | false =>
    rw [ha, if_neg Bool.false_ne_true] at hwithdraw
    refine ⟨_, hwithdraw, rfl, ?_⟩
    show { x.log with asynchronous := false } = x.log
    rw [← ha]

end Logger

end TaskRuntime
