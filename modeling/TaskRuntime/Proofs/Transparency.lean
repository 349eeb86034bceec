import TaskRuntime.Proofs.Recital

/-!
# Asynchronous logging is transparent

What a program comes to is determined from the beginning: each step of the program or of the writer
leads to the same tale (`Recital.Move.destiny_eq`), which is the tale of the session
(`Log.Session.tale`). Nobody gets stuck (`Recital.Kept.finished_or_move`), so each schedule ends
where the program has come to its end; and if the mode is off there, all lines have been delivered,
and the log is that of the program without its switches (`Recital.transparent`).

## What is assumed

The program does not remove the listener, and it begins in synchronous mode with nothing queued.
Threads of a program do not run at the same time: with calls that do, a line may be late
(`Logger.late_unwritten`).
-/

namespace TaskRuntime

open Log (Op Saying Tale Session linesOf)
open Logger (Call Writer)

namespace Recital

variable {x x' : Recital} {s : Session} {ops : List Op} {l₀ : Log} {tag : Bytes} {op : Op}

/-! ### The tale of a run -/

/-- The tale after the threads of all frames have ended. -/
def tellFrames : List Frame → Tale → Tale
  | [], t => t
  | f :: below, t => tellFrames below (Op.tellAll f.ops f.tag t)

/-- Whether the mode is on once what has been begun is done. -/
def coming (x : Logger) : Bool :=
  match x.switch with
  | .idle => x.log.asynchronous
  | .entering => true
  | .launching => true
  | .announcing => true
  | .withdrawing => false
  | .dismissing => false
  | .joining => false

/-- The tale so far. -/
def tale (x : Recital) : Tale := ⟨x.log.threshold, coming x.toLogger, x.said⟩

/-- **What the program will have come to** at its end. -/
def destiny (x : Recital) : Tale := tellFrames x.frames x.tale

theorem perform_destiny {rest : List Op} {below : List Frame}
    (hf : x.frames = ⟨tag, op :: rest⟩ :: below) :
    (perform { x with frames := ⟨op.retag tag, rest⟩ :: below } tag op).destiny = x.destiny := by
  rw [destiny, destiny, hf]
  cases op <;> rfl

theorem coming_toggle {x : Logger} (hx : x.Attended) (hne : x.switch ≠ .idle) :
    coming x.toggle = coming x := by
  have hphase := hx.phase
  rw [coming, coming, Logger.toggle]
  cases hs : x.switch with
  | idle => exact absurd hs hne
  | entering => cases ha : x.log.asynchronous <;> rfl
  | withdrawing => cases x.log.asynchronous <;> rfl
  | joining =>
    rw [hs] at hphase
    exact hphase.1
  | _ => rfl

/-- **Each step leads to the same end.** -/
theorem Move.destiny_eq (hm : Move x x') (hx : x.toLogger.Attended) : x'.destiny = x.destiny := by
  cases hm with
  | begin hr hf => exact perform_destiny hf
  | join hr hf hb =>
    rw [destiny, destiny, hf]
    rfl
  | @call before c hc hs hl =>
    have htale : Recital.tale { x with log := (c.tick x.log).2 } = x.tale := by
      have hmode : (c.tick x.log).2.asynchronous = x.log.asynchronous := Call.tick_asynchronous
      rw [tale, tale, coming, coming, hmode, c.tick_threshold]
    exact congrArg (tellFrames x.frames) htale
  | toggle hs hj =>
    have htale : Recital.tale { x with toLogger := x.toggle } = x.tale := by
      rw [tale, tale, coming_toggle hx hs, x.toggle_threshold]
    exact congrArg (tellFrames x.frames) htale
  | write hw hl ha =>
    have htale : Recital.tale { x with log := (x.writer.tick x.running x.log).2 } = x.tale := by
      have hmode : (x.writer.tick x.running x.log).2.asynchronous = x.log.asynchronous :=
        Writer.tick_asynchronous
      rw [tale, tale, coming, coming, hmode, x.writer.tick_threshold]
    exact congrArg (tellFrames x.frames) htale

/-! ### What holds at each moment -/

/-- **What holds at each moment** of a program that runs in a session. -/
structure Kept (s : Session) (ops : List Op) (x : Recital) : Prop where
  /-- The lines are in order. -/
  faithful : x.toLogger.Faithful s.log
  /-- The calls are those for what is allowed. -/
  lines : x.lines = linesOf x.said
  /-- There is a running thread. -/
  nonempty : x.frames ≠ []
  /-- No thread is to remove the listener. -/
  steady : ∀ f ∈ x.frames, Op.steadyAll f.ops = true
  /-- The end is determined. -/
  destiny : x.destiny = s.tale ops

theorem say_faithful (hx : x.toLogger.Faithful l₀) (hr : x.Rests) (tag message : Bytes)
    (level : Option Log.Level) : (x.say tag message level).toLogger.Faithful l₀ := by
  rw [say]
  cases (⟨tag, message, level, x.log.threshold⟩ : Saying).allowed with
  | true => exact hx.log hr _
  | false => exact hx

theorem perform_faithful (hx : x.toLogger.Faithful l₀) (hr : x.Rests)
    (hop : op.steady = true) : (x.perform tag op).toLogger.Faithful l₀ := by
  cases op with
  | setLevel level => exact hx.setLevel level
  | note level message => exact say_faithful hx hr ..
  | emit message => exact say_faithful hx hr ..
  | startAsync => exact hx.turn hr (.inl rfl)
  | stopAsync => exact hx.turn hr (.inr rfl)
  | stopListening => cases hop
  | _ => exact hx

theorem say_lines (hx : x.lines = linesOf x.said) (tag message : Bytes)
    (level : Option Log.Level) :
    (x.say tag message level).lines = linesOf (x.say tag message level).said := by
  let σ : Saying := ⟨tag, message, level, x.log.threshold⟩
  show (if σ.allowed then x.calls ++ [{ line := σ.line }] else x.calls).map (·.line) =
    linesOf (x.said ++ [σ])
  rw [Log.linesOf_concat, ← hx]
  cases σ.allowed with
  | true => exact List.map_append
  | false => exact (List.append_nil _).symm

theorem perform_lines (hx : x.lines = linesOf x.said) :
    (x.perform tag op).lines = linesOf (x.perform tag op).said := by
  cases op with
  | note level message => exact say_lines hx ..
  | emit message => exact say_lines hx ..
  | _ => exact hx

theorem perform_nonempty (hx : x.frames ≠ []) : (x.perform tag op).frames ≠ [] := by
  cases op with
  | thread ops => nofun
  | _ => exact hx

theorem perform_steady (hop : op.steady = true) (hx : ∀ f ∈ x.frames, Op.steadyAll f.ops = true) :
    ∀ f ∈ (x.perform tag op).frames, Op.steadyAll f.ops = true := by
  cases op with
  | thread ops => exact List.forall_mem_cons.2 ⟨hop, hx⟩
  | _ => exact hx

/-- **What holds goes on to hold.** -/
theorem Kept.move (hx : x.Kept s ops) (hm : Move x x') : x'.Kept s ops := by
  have hdestiny := (hm.destiny_eq hx.faithful.toAttended).trans hx.destiny
  cases hm with
  | @begin tag op rest below hr hf =>
    have hsteady := hx.steady
    rw [hf, List.forall_mem_cons] at hsteady
    obtain ⟨hop, hrest⟩ := Bool.and_eq_true_iff.1 hsteady.1
    let x₁ : Recital := { x with frames := ⟨op.retag tag, rest⟩ :: below }
    exact ⟨perform_faithful (x := x₁) hx.faithful hr hop, perform_lines (x := x₁) hx.lines,
      perform_nonempty (x := x₁) nofun,
      perform_steady (x := x₁) hop (List.forall_mem_cons.2 ⟨hrest, hsteady.2⟩), hdestiny⟩
  | join hr hf hb =>
    have hsteady := hx.steady
    rw [hf, List.forall_mem_cons] at hsteady
    exact ⟨hx.faithful, hx.lines, hb, hsteady.2, hdestiny⟩
  | @call before c hc hs hl =>
    refine ⟨hx.faithful.call hc hs, ?_, hx.nonempty, hx.steady, hdestiny⟩
    rw [← hx.lines]
    show (before ++ [(c.tick x.log).1]).map (·.line) = x.calls.map (·.line)
    rw [hc, List.map_append, List.map_append, List.map_singleton, Call.tick_line]
    rfl
  | toggle hs hj =>
    refine ⟨hx.faithful.toggle hs hj, ?_, hx.nonempty, hx.steady, hdestiny⟩
    rw [← hx.lines]
    exact congrArg (List.map (·.line)) x.toggle_calls
  | write hw hl ha => exact ⟨hx.faithful.write, hx.lines, hx.nonempty, hx.steady, hdestiny⟩

theorem start_kept (hops : Op.steadyAll ops = true) (hoff : s.log.asynchronous = false)
    (hempty : s.log.queue = []) : (start s ops).Kept s ops where
  faithful :=
    { phase := ⟨hoff.symm, hoff.symm, fun _ ↦ rfl⟩
      working := fun _ ↦ rfl
      queue := fun _ ↦ hempty
      late := rfl
      hired := nofun
      alone := fun h ↦ nomatch List.append_eq_nil_iff.1 h.symm
      order := ⟨[], rfl, congrArg (· ++ []) hempty⟩ }
  lines := rfl
  nonempty := nofun
  steady := fun f hf ↦ by rwa [List.mem_singleton.1 hf]
  destiny := by
    show Op.tellAll ops s.tag ⟨s.log.threshold, s.log.asynchronous, []⟩ = _
    rw [hoff]
    rfl

theorem Run.trans {x'' : Recital} (hr : Run x x') (hr' : Run x' x'') : Run x x'' := by
  induction hr' with
  | refl => exact hr
  | step _ hm ih => exact ih.step hm

theorem Run.kept (hx : x.Kept s ops) (hr : Run x x') : x'.Kept s ops := by
  induction hr with
  | refl => exact hx
  | step _ hm ih => exact ih.move hm

/-! ### A program can go on until it has come to its end -/

/-- A call that has not returned makes a step. -/
theorem exists_call (hx : x.toLogger.Faithful l₀) (hc : ¬∀ c ∈ x.calls, c.stage = .returned) :
    ∃ x', Move x x' := by
  obtain ⟨before, c, hlast, hs, hidle⟩ := hx.exists_last hc
  exact ⟨_, .call hlast hs fun _ ↦ by rw [hidle]; rfl⟩

/-- Turning on or off makes a step, or the writer does, who is waited for. -/
theorem exists_toggle (hx : x.toLogger.Faithful l₀) (hs : x.switch ≠ .idle) : ∃ x', Move x x' := by
  by_cases hj : x.switch = .joining → x.writer = .left
  · exact ⟨_, .toggle hs hj⟩
  · obtain ⟨hjoining, hleft⟩ := Classical.not_imp.1 hj
    have hphase := hx.phase
    rw [hjoining] at hphase
    have hworking : x.writer.working = true := (hx.hired hjoining).resolve_right hleft
    exact ⟨_, .write hworking (fun _ ↦ by rw [hjoining]; rfl) fun _ ↦ .inr hphase.2⟩

/-- **Nobody gets stuck**: somebody can make a step unless the program has come to its end. -/
theorem Kept.finished_or_move (hx : x.Kept s ops) : x.Finished ∨ ∃ x', Move x x' := by
  by_cases hc : ∀ c ∈ x.calls, c.stage = .returned
  · by_cases hs : x.switch = .idle
    · have hrests : x.Rests := ⟨hs, hc⟩
      cases hf : x.frames with
      | nil => exact absurd hf hx.nonempty
      | cons f below =>
        obtain ⟨tag, todo⟩ := f
        cases todo with
        | cons op rest => exact .inr ⟨_, .begin hrests hf⟩
        | nil =>
          cases below with
          | nil => exact .inl ⟨hrests, tag, hf⟩
          | cons f below => exact .inr ⟨_, .join hrests hf nofun⟩
    · exact .inr (exists_toggle hx.faithful hs)
  · exact .inr (exists_call hx.faithful hc)

/-- A run can be completed, wherever it has got to. -/
theorem Kept.exists_finished (hx : x.Kept s ops) : ∃ x', Run x x' ∧ x'.Finished := by
  induction h : x.effort using Nat.strongRecOn generalizing x with
  | ind n ih =>
    subst h
    rcases hx.finished_or_move with hfinished | ⟨x₁, hm⟩
    · exact ⟨x, .refl, hfinished⟩
    · obtain ⟨x', hr, hfinished⟩ := ih _ hm.effort_lt (hx.move hm) rfl
      exact ⟨x', (Run.step .refl hm).trans hr, hfinished⟩

/-! ### The end -/

theorem Kept.tale_of_finished (hx : x.Kept s ops) (hf : x.Finished) : x.tale = s.tale ops := by
  obtain ⟨tag, hframes⟩ := hf.frames
  rw [← hx.destiny, Recital.destiny, hframes]
  rfl

/-- The mode at the end is the one that the program leaves. -/
theorem Kept.mode_of_finished (hx : x.Kept s ops) (hf : x.Finished) :
    x.log.asynchronous = (s.tale ops).on := by
  rw [← hx.tale_of_finished hf]
  show _ = coming x.toLogger
  rw [coming, hf.rests.switch]

/-- When the mode is off at the end, all is delivered. -/
theorem Kept.log_of_finished (hx : x.Kept s ops) (hf : x.Finished)
    (hoff : x.log.asynchronous = false) : x.log = (s.tale ops).log s.log := by
  have hphase := hx.faithful.phase
  rw [hf.rests.switch] at hphase
  have habsent := hphase.2.2 hoff
  have hqueue := (hx.faithful.queue (by rw [habsent]; rfl)).trans hx.faithful.late
  obtain ⟨lines, hsinks, hlines⟩ := hx.faithful.order
  rw [habsent, hqueue, Logger.flatMap_pending hf.rests.calls, hx.lines] at hlines
  have hall : lines = linesOf x.said := (List.append_nil lines).symm.trans hlines
  rw [← hx.tale_of_finished hf]
  rw [hall] at hsinks
  exact Log.eq_of_sinks hsinks rfl hoff hqueue

/-- **What has come out**, when a program has come to its end and the mode is off. -/
structure Outcome (s : Session) (ops : List Op) (x : Recital) : Prop where
  /-- The log is as after the program without its switches. -/
  log : x.log = (Op.runAll (Op.synchronousAll ops) s).2.log
  /-- What has been said is what the tale says. -/
  said : x.said = (s.tale ops).said
  /-- The error stream has got one line for each saying that was allowed, with the tag that its
  thread had, in the order of the sayings. -/
  written : x.log.written = s.log.written ++ linesOf x.said
  /-- So has the listener, if there is one. -/
  heard : x.log.heard = s.log.heard ++ if s.log.listening then linesOf x.said else []
  /-- The calls, whose messages have been made, are those for the sayings that were allowed. -/
  made : x.lines = linesOf x.said
  /-- The program without its switches makes the messages of the same sayings. -/
  same : Log.Answer.madeAll (Op.runAll (Op.synchronousAll ops) s).1 = x.said.map (·.allowed)
  /-- So does the program with its switches when each function is left alone, whatever the pace of
  the writer, and it comes to the same log. -/
  paced : ∀ pace, (Op.runAll ops { s with pace := pace }).2.log = x.log ∧
    Log.Answer.madeAll (Op.runAll ops { s with pace := pace }).1 = x.said.map (·.allowed)

/-- **Asynchronous logging is transparent** to a program in a session. -/
structure Transparent (s : Session) (ops : List Op) : Prop where
  /-- No schedule goes on for ever. -/
  ends : ∀ x : Nat → Recital, x 0 = start s ops → ∃ n, ¬Move (x n) (x (n + 1))
  /-- None gets stuck before the program has come to its end. -/
  finishes : ∀ {x}, Run (start s ops) x → (∀ x', ¬Move x x') → x.Finished
  /-- At the end the mode is what the last switch has made it. -/
  mode : ∀ {x}, Run (start s ops) x → x.Finished → x.log.asynchronous = (s.tale ops).on
  /-- If it is off, what has come out does not depend on the schedule. -/
  outcome : ∀ {x}, Run (start s ops) x → x.Finished → x.log.asynchronous = false → Outcome s ops x

/-- **Asynchronous logging is transparent** to each program that does not remove the listener, if
nothing is queued when it begins and the mode is off. -/
theorem transparent (hops : Op.steadyAll ops = true) (hoff : s.log.asynchronous = false)
    (hempty : s.log.queue = []) : Transparent s ops where
  ends x _ := exists_not_move x
  finishes hr hstuck := by
    rcases (hr.kept (start_kept hops hoff hempty)).finished_or_move with hf | ⟨x', hm⟩
    · exact hf
    · exact absurd hm (hstuck x')
  mode hr hf := (hr.kept (start_kept hops hoff hempty)).mode_of_finished hf
  outcome {x} hr hf hend := by
    have hx := hr.kept (start_kept hops hoff hempty)
    have hlog := hx.log_of_finished hf hend
    have hsaid : x.said = (s.tale ops).said := congrArg Tale.said (hx.tale_of_finished hf)
    have hsync := Op.runAll_synchronousAll hops hoff hempty
    have htale : (s.tale ops).on = false := (hx.mode_of_finished hf).symm.trans hend
    refine ⟨hlog.trans hsync.1.symm, hsaid, ?_, ?_, hx.lines, ?_, fun pace ↦ ⟨?_, ?_⟩⟩
    · rw [hlog, hsaid]
      exact Log.deliverAll_written ..
    · rw [hlog, hsaid, Tale.log, Log.deliverAll_eq]
    · rw [hsync.2, hsaid]
    · rw [hlog]
      exact Op.runAll_log (s := { s with pace := pace }) hops hoff hempty htale
    · rw [hsaid]
      exact Op.runAll_made (s := { s with pace := pace }) hops hoff hempty

/-- Two threads, of which one turns the writer on and the other one turns it off: three of the four
messages are logged, each under the tag of its thread. -/
theorem transparent_to_threads :
    let ops : List Op := [.startAsync, .emit [97],
      .thread [.setTag [116], .note .error [98], .note .debug [99], .stopAsync], .note .info [100]]
    let s : Session := { log := {} }
    Op.steadyAll ops = true ∧ s.log.asynchronous = false ∧ s.log.queue = [] ∧
      ∃ x, Run (start s ops) x ∧ x.Finished ∧
        x.log.written = [Log.line Log.defaultTag [97], Log.line [116] [98],
          Log.line Log.defaultTag [100]] ∧
        x.log.heard = x.log.written ∧ x.said.map (·.allowed) = [true, true, false, true] := by
  intro ops s
  have htransparent : Transparent s ops := transparent rfl rfl rfl
  have hkept : (start s ops).Kept s ops := start_kept rfl rfl rfl
  obtain ⟨x, hr, hf⟩ := hkept.exists_finished
  have hout := htransparent.outcome hr hf (htransparent.mode hr hf)
  refine ⟨rfl, rfl, rfl, x, hr, hf, ?_, ?_, ?_⟩
  · rw [hout.log]
    rfl
  · rw [hout.log]
    rfl
  · rw [← hout.same]
    rfl

end Recital

end TaskRuntime
