import TaskRuntime.Log.Session

/-!
# What a session says

`Op.tellAll` goes through the operations of a session and notes what each of them says, with the
tag and the threshold at that point (`Saying`). Nobody writes a line there, and there is no queue:
what is said depends on the program, the tag and the threshold, and on nothing else.

A session follows its tale (`Op.follows_runAll`): what has been delivered and what is still queued
are together the lines of what has been said, in the order in which it has been said. This holds
for every pace of the background writer. When the mode is off nothing is queued, so the log is
determined (`Follows.eq_of_off`). Taking the asynchronous switches out of a program changes nothing
in its tale but the mode (`Op.tellAll_synchronousAll`).

A program is steady if it does not remove the listener. In a program that does, a line that is
still queued at that moment is not heard, and it would have been without the queue.
-/

namespace TaskRuntime

namespace Log

/-! ### Sayings -/

/-- What a thread says at one place: a message, and the circumstances. -/
structure Saying where
  /-- The tag of the thread. -/
  tag : Bytes
  /-- The message. -/
  message : Bytes
  /-- The level; a message without one is logged whatever the threshold is. -/
  level : Option Level
  /-- The threshold at this moment. -/
  threshold : Level

namespace Saying

/-- Whether the threshold allows the level. -/
def allowed (σ : Saying) : Bool :=
  match σ.level with
  | none => true
  | some level => σ.threshold.rank ≤ level.rank

/-- The line. -/
def line (σ : Saying) : Bytes := Log.line σ.tag σ.message

end Saying

/-- The lines of what is said: one for each saying that is allowed. -/
def linesOf (said : List Saying) : List Bytes := (said.filter (·.allowed)).map (·.line)

theorem linesOf_concat (said : List Saying) (σ : Saying) :
    linesOf (said ++ [σ]) = linesOf said ++ if σ.allowed then [σ.line] else [] := by
  rw [linesOf, List.filter_append, List.map_append, ← linesOf, List.filter_cons]
  cases σ.allowed <;> rfl

/-! ### Tales -/

/-- What a session comes to, whoever writes its lines. -/
structure Tale where
  /-- The threshold. -/
  threshold : Level
  /-- Whether the last switch has turned the background writer on. -/
  on : Bool := false
  /-- What has been said. -/
  said : List Saying := []

/-- Something is said under a tag. -/
def Tale.say (t : Tale) (tag message : Bytes) (level : Option Level) : Tale :=
  { t with said := t.said ++ [⟨tag, message, level, t.threshold⟩] }

/-- The log of a session that has come to its tale, when the mode is off and all is delivered. -/
def Tale.log (t : Tale) (l₀ : Log) : Log :=
  { l₀.deliverAll (linesOf t.said) with
    threshold := t.threshold, asynchronous := false, queue := [] }

/-- The tag of a thread after an operation. -/
def Op.retag : Op → Bytes → Bytes
  | .setTag tag, _ => tag
  | _, tag => tag

mutual

/-- The tale after an operation of a thread that has a tag. -/
def Op.tell : Op → Bytes → Tale → Tale
  | .setLevel level, _, t => { t with threshold := level }
  | .note level message, tag, t => t.say tag message (some level)
  | .emit message, tag, t => t.say tag message none
  | .startAsync, _, t => { t with on := true }
  | .stopAsync, _, t => { t with on := false }
  | .thread ops, _, t => Op.tellAll ops defaultTag t
  | _, _, t => t

/-- The tale after operations. -/
def Op.tellAll : List Op → Bytes → Tale → Tale
  | [], _, t => t
  | op :: rest, tag, t => Op.tellAll rest (op.retag tag) (Op.tell op tag t)

end

/-- What a program comes to in a session. -/
def Session.tale (s : Session) (ops : List Op) : Tale :=
  Op.tellAll ops s.tag { threshold := s.log.threshold }

mutual

/-- The operation does not remove the listener. -/
def Op.steady : Op → Bool
  | .stopListening => false
  | .thread ops => Op.steadyAll ops
  | _ => true

/-- None of the operations removes the listener. -/
def Op.steadyAll : List Op → Bool
  | [] => true
  | op :: rest => Op.steady op && Op.steadyAll rest

end

mutual

/-- Whether the messages were made, for all that is said in an answer. -/
def Answer.made : Answer → List Bool
  | .evaluated made => [made]
  | .thread answers => Answer.madeAll answers
  | _ => []

/-- Whether the messages were made, for all that is said in answers. -/
def Answer.madeAll : List Answer → List Bool
  | [] => []
  | answer :: rest => Answer.made answer ++ Answer.madeAll rest

end

/-! ### Sinks -/

/-- What the sinks have got, and whether there is a listener. -/
def sinks (l : Log) : List Bytes × List Bytes × Bool := (l.written, l.heard, l.listening)

variable {l l' l₀ : Log} {t : Tale} {s : Session} {tag : Bytes}

theorem sinks_deliver (h : l.sinks = l'.sinks) (line : Bytes) :
    (l.deliver line).sinks = (l'.deliver line).sinks := by
  simp only [sinks, Prod.mk.injEq] at h
  obtain ⟨hwritten, hheard, hlistening⟩ := h
  simp only [sinks, deliver, hwritten, hheard, hlistening]

/-- Sinks that have got lines get one more. -/
theorem sinks_deliver_concat {lines : List Bytes} (h : l.sinks = (l₀.deliverAll lines).sinks)
    (line : Bytes) : (l.deliver line).sinks = (l₀.deliverAll (lines ++ [line])).sinks := by
  rw [sinks_deliver h, deliverAll, deliverAll, List.foldl_append]
  rfl

theorem sinks_deliverAll {lines queue : List Bytes} (h : l.sinks = (l₀.deliverAll lines).sinks) :
    (l.deliverAll queue).sinks = (l₀.deliverAll (lines ++ queue)).sinks := by
  induction queue generalizing l lines with
  | nil => rwa [List.append_nil]
  | cons line rest ih =>
    rw [List.append_cons, ← ih (sinks_deliver_concat h line)]
    rfl

/-- A log is what its sinks have got, its threshold, its mode and its queue. -/
theorem eq_of_sinks (hsinks : l.sinks = l'.sinks) (hthreshold : l.threshold = l'.threshold)
    (hmode : l.asynchronous = l'.asynchronous) (hqueue : l.queue = l'.queue) : l = l' := by
  cases l
  cases l'
  simp only [sinks, Prod.mk.injEq] at hsinks hthreshold hmode hqueue
  obtain ⟨rfl, rfl, rfl⟩ := hsinks
  rw [hthreshold, hmode, hqueue]

/-- Handing lines to the sinks changes nothing else. -/
theorem deliverAll_eq (l : Log) (lines : List Bytes) :
    l.deliverAll lines = { l with
      written := l.written ++ lines
      heard := l.heard ++ if l.listening then lines else [] } := by
  induction lines generalizing l with
  | nil => rw [ite_self, List.append_nil, List.append_nil]; rfl
  | cons line rest ih =>
    refine (ih (l.deliver line)).trans ?_
    cases hl : l.listening <;> simp [deliver, hl]

/-! ### A log follows a tale -/

/-- A log that was `l₀` **follows a tale**: the lines that have been delivered since and those that
are queued are the lines of what has been said. -/
structure Follows (l₀ : Log) (t : Tale) (l : Log) : Prop where
  /-- The threshold. -/
  threshold : l.threshold = t.threshold
  /-- The mode. -/
  on : l.asynchronous = t.on
  /-- Delivered lines come first, then queued ones. -/
  lines : ∃ lines, l.sinks = (l₀.deliverAll lines).sinks ∧ lines ++ l.queue = linesOf t.said
  /-- Nothing is queued while the mode is off. -/
  empty : t.on = false → l.queue = []

namespace Follows

theorem writeOne (h : Follows l₀ t l) : Follows l₀ t l.writeOne := by
  rw [Log.writeOne]
  cases hq : l.queue with
  | nil => exact h
  | cons line rest =>
    obtain ⟨lines, hsinks, hlines⟩ := h.lines
    refine ⟨h.threshold, h.on, ⟨lines ++ [line], ?_, ?_⟩, fun hoff ↦ ?_⟩
    · exact sinks_deliver_concat (l := { l with queue := rest }) hsinks line
    · rw [← hlines, hq, ← List.append_cons]
      rfl
    · rw [h.empty hoff] at hq
      cases hq

/-- The background writer may work at any time. -/
theorem writer (h : Follows l₀ t s.log) : Follows l₀ t s.writer.log := by
  rw [Session.writer]
  cases s.pace with
  | nil => exact h
  | cons n rest =>
    show Follows l₀ t (n.repeat Log.writeOne s.log)
    induction n with
    | zero => exact h
    | succ n ih => exact ih.writeOne

/-- A line on its way to the sinks, or to the queue. -/
theorem emit (h : Follows l₀ t l) {σ : Saying} (hσ : σ.allowed = true) :
    Follows l₀ { t with said := t.said ++ [σ] } (l.emit σ.tag σ.message) := by
  obtain ⟨lines, hsinks, hlines⟩ := h.lines
  have hsaid : linesOf (t.said ++ [σ]) = lines ++ (l.queue ++ [σ.line]) := by
    rw [linesOf_concat, if_pos hσ, ← hlines, List.append_assoc]
  rw [Log.emit]
  cases ha : l.asynchronous with
  | true =>
    rw [if_pos rfl]
    exact ⟨h.threshold, ha.symm.trans h.on, ⟨lines, hsinks, hsaid.symm⟩,
      fun hoff ↦ nomatch ha.symm.trans (h.on.trans hoff)⟩
  | false =>
    have hempty : l.queue = [] := h.empty (h.on.symm.trans ha)
    rw [if_neg Bool.false_ne_true]
    refine ⟨h.threshold, h.on, ⟨lines ++ [σ.line], sinks_deliver_concat hsinks _, ?_⟩, h.empty⟩
    rw [hsaid, hempty]
    exact (congrArg _ hempty).trans (List.append_nil _)

theorem allows (h : Follows l₀ t l) (tag message : Bytes) (level : Level) :
    l.allows level = (⟨tag, message, some level, t.threshold⟩ : Saying).allowed := by
  rw [Log.allows, h.threshold]
  rfl

theorem note (h : Follows l₀ t l) (tag message : Bytes) (level : Level) :
    Follows l₀ (t.say tag message (some level)) (l.note tag level message) := by
  let σ : Saying := ⟨tag, message, some level, t.threshold⟩
  rw [Log.note, h.allows tag message]
  by_cases hσ : σ.allowed = true
  · rw [if_pos hσ]
    exact h.emit hσ
  · rw [if_neg hσ]
    have hsaid : linesOf (t.said ++ [σ]) = linesOf t.said := by
      rw [linesOf_concat, if_neg hσ, List.append_nil]
    obtain ⟨lines, hsinks, hlines⟩ := h.lines
    exact ⟨h.threshold, h.on, ⟨lines, hsinks, hlines.trans hsaid.symm⟩, h.empty⟩

theorem startAsync (h : Follows l₀ t l) : Follows l₀ { t with on := true } l.startAsync :=
  ⟨h.threshold, rfl, h.lines, nofun⟩

theorem stopAsync (h : Follows l₀ t l) : Follows l₀ { t with on := false } l.stopAsync := by
  rw [Log.stopAsync]
  cases ha : l.asynchronous with
  | true =>
    obtain ⟨lines, hsinks, hlines⟩ := h.lines
    have hall : ({ l with asynchronous := false, queue := [] }.deliverAll l.queue).sinks =
        (l₀.deliverAll (lines ++ l.queue)).sinks := sinks_deliverAll hsinks
    rw [deliverAll_eq] at hall
    rw [if_pos rfl, deliverAll_eq]
    exact ⟨h.threshold, rfl, ⟨lines ++ l.queue, hall, (List.append_nil _).trans hlines⟩,
      fun _ ↦ rfl⟩
  | false => exact ⟨h.threshold, ha, h.lines, fun _ ↦ h.empty (h.on.symm.trans ha)⟩

/-- When the mode is off, the tale says what the log is. -/
theorem eq_of_off (h : Follows l₀ t l) (hoff : t.on = false) : l = t.log l₀ := by
  obtain ⟨lines, hsinks, hlines⟩ := h.lines
  rw [h.empty hoff, List.append_nil] at hlines
  rw [hlines] at hsinks
  exact eq_of_sinks hsinks h.threshold (h.on.trans hoff) (h.empty hoff)

end Follows

/-- A log that is synchronous and has nothing queued follows the tale that begins with it. -/
theorem follows_start (hoff : l.asynchronous = false) (hempty : l.queue = []) :
    Follows l { threshold := l.threshold } l :=
  ⟨rfl, hoff, ⟨[], rfl, hempty⟩, fun _ ↦ hempty⟩

/-! ### A session follows its tale -/

theorem Session.writer_tag (s : Session) : s.writer.tag = s.tag := by
  rw [Session.writer]
  cases s.pace <;> rfl

theorem Op.run_tag (op : Op) (s : Session) : (op.run s).2.tag = op.retag s.tag := by
  cases op with
  | setTag tag => rfl
  | _ => exact s.writer_tag

mutual

/-- **An operation follows its tale**, and answers which messages it has made. -/
theorem Op.follows_run (op : Op) (s : Session) (t : Tale) (hop : op.steady = true)
    (h : Follows l₀ t s.log) :
    Follows l₀ (op.tell s.tag t) (op.run s).2.log ∧
      (op.tell s.tag t).said.map (·.allowed) = t.said.map (·.allowed) ++ (op.run s).1.made := by
  have hw := h.writer
  have hsame : t.said.map (·.allowed) = t.said.map (·.allowed) ++ [] := (List.append_nil _).symm
  cases op with
  | setLevel level => exact ⟨⟨rfl, hw.on, hw.lines, hw.empty⟩, hsame⟩
  | note level message =>
    rw [Op.run, Session.writer_tag]
    refine ⟨hw.note s.tag message level, ?_⟩
    rw [hw.allows s.tag message]
    exact List.map_append
  | emit message =>
    rw [Op.run, Session.writer_tag]
    have hallowed : (⟨s.tag, message, none, t.threshold⟩ : Saying).allowed = true := rfl
    exact ⟨hw.emit hallowed, List.map_append⟩
  | startAsync => exact ⟨hw.startAsync, hsame⟩
  | stopAsync => exact ⟨hw.stopAsync, hsame⟩
  | stopListening => cases hop
  | thread ops =>
    have hinner := Op.follows_runAll ops { s.writer with tag := defaultTag } t hop hw
    exact hinner
  | _ => exact ⟨hw, hsame⟩

/-- **A session follows its tale**, and answers which messages it has made. -/
theorem Op.follows_runAll (ops : List Op) (s : Session) (t : Tale) (hops : Op.steadyAll ops = true)
    (h : Follows l₀ t s.log) :
    Follows l₀ (Op.tellAll ops s.tag t) (Op.runAll ops s).2.log ∧
      (Op.tellAll ops s.tag t).said.map (·.allowed) =
        t.said.map (·.allowed) ++ Answer.madeAll (Op.runAll ops s).1 := by
  cases ops with
  | nil => exact ⟨h, (List.append_nil _).symm⟩
  | cons op rest =>
    obtain ⟨hop, hrest⟩ := Bool.and_eq_true_iff.1 hops
    obtain ⟨hlog, hmade⟩ := Op.follows_run op s t hop h
    have htail := Op.follows_runAll rest (op.run s).2 (op.tell s.tag t) hrest hlog
    rw [Op.run_tag, hmade, List.append_assoc] at htail
    exact htail

end

/-! ### Without switches -/

mutual

theorem Op.steadyAll_synchronous_append (op : Op) (rest : List Op) :
    Op.steadyAll (Op.synchronous op ++ rest) = (op.steady && Op.steadyAll rest) := by
  cases op with
  | thread ops =>
    show (Op.steadyAll (Op.synchronousAll ops) && Op.steadyAll rest) = _
    rw [Op.steadyAll_synchronousAll]
    rfl
  | _ => rfl

/-- A program without its switches is as steady as it was. -/
theorem Op.steadyAll_synchronousAll (ops : List Op) :
    Op.steadyAll (Op.synchronousAll ops) = Op.steadyAll ops := by
  cases ops with
  | nil => rfl
  | cons op rest =>
    rw [Op.synchronousAll, Op.steadyAll_synchronous_append, Op.steadyAll_synchronousAll rest]
    rfl

end

mutual

theorem Op.tellAll_synchronous_append (op : Op) (rest : List Op) (tag : Bytes) (t : Tale)
    (on : Bool) : Op.tellAll (Op.synchronous op ++ rest) tag { t with on := on } =
      Op.tellAll rest (op.retag tag) { op.tell tag t with on := on } := by
  cases op with
  | thread ops =>
    show Op.tellAll rest tag (Op.tellAll (Op.synchronousAll ops) defaultTag { t with on := on }) = _
    rw [Op.tellAll_synchronousAll]
    rfl
  | _ => rfl

/-- **Without its switches a program tells the same**, in the mode in which it has begun. -/
theorem Op.tellAll_synchronousAll (ops : List Op) (tag : Bytes) (t : Tale) (on : Bool) :
    Op.tellAll (Op.synchronousAll ops) tag { t with on := on } =
      { Op.tellAll ops tag t with on := on } := by
  cases ops with
  | nil => rfl
  | cons op rest =>
    rw [Op.synchronousAll, Op.tellAll_synchronous_append, Op.tellAll_synchronousAll rest]
    rfl

end

variable {ops : List Op}

/-- **A session that ends with the mode off** comes to its tale, whatever the pace of the writer. -/
theorem Op.runAll_log (hops : Op.steadyAll ops = true) (hoff : s.log.asynchronous = false)
    (hempty : s.log.queue = []) (hend : (s.tale ops).on = false) :
    (Op.runAll ops s).2.log = (s.tale ops).log s.log :=
  (Op.follows_runAll ops s _ hops (follows_start hoff hempty)).1.eq_of_off hend

/-- A session answers which messages it has made. -/
theorem Op.runAll_made (hops : Op.steadyAll ops = true) (hoff : s.log.asynchronous = false)
    (hempty : s.log.queue = []) :
    Answer.madeAll (Op.runAll ops s).1 = (s.tale ops).said.map (·.allowed) :=
  (Op.follows_runAll ops s _ hops (follows_start hoff hempty)).2.symm

/-- **A session without its switches** comes to the tale of the session with them, and answers which
messages it has made. -/
theorem Op.runAll_synchronousAll (hops : Op.steadyAll ops = true)
    (hoff : s.log.asynchronous = false) (hempty : s.log.queue = []) :
    (Op.runAll (Op.synchronousAll ops) s).2.log = (s.tale ops).log s.log ∧
      Answer.madeAll (Op.runAll (Op.synchronousAll ops) s).1 =
        (s.tale ops).said.map (·.allowed) := by
  have htale : s.tale (Op.synchronousAll ops) = { s.tale ops with on := false } :=
    Op.tellAll_synchronousAll ops s.tag { threshold := s.log.threshold } false
  rw [← Op.steadyAll_synchronousAll] at hops
  refine ⟨?_, ?_⟩
  · rw [Op.runAll_log hops hoff hempty (by rw [htale]), htale]
    rfl
  · rw [Op.runAll_made hops hoff hempty, htale]

end Log

end TaskRuntime
