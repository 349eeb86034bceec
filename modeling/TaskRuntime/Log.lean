import TaskRuntime.Failure

/-!
# The log

Lines with a level, written either at once or by a background writer. A line is the tag of the
thread that logs it in brackets, a space, and the message.

## Levels

A level is a number; a message is logged when the threshold is at most its level. Any number may be
a threshold, not only the five that have a name.

## Two ways to the sinks

`Log.deliver` hands a line to the sinks: the error stream, and a listener if there is one. In
asynchronous mode a line goes into a queue first, and `Log.writeOne`, the step of the background
writer, delivers the oldest line of the queue. Turning the mode off delivers all that is queued.
-/

namespace TaskRuntime

namespace Log

/-- A level of importance. -/
structure Level where
  /-- The higher, the more important. -/
  rank : Int
  deriving DecidableEq, Repr, Inhabited

namespace Level

/-- Every message. -/
def debug : Level := ⟨0⟩

/-- What happens in the normal course of events. -/
def info : Level := ⟨1⟩

/-- Problems. -/
def warning : Level := ⟨2⟩

/-- Errors. -/
def error : Level := ⟨3⟩

/-- As a threshold, nothing. -/
def none : Level := ⟨4⟩

/-- The level with a given name, in any mixture of cases; a name that is none means `info`. -/
def ofName (name : Bytes) : Level :=
  let name := name.lower
  if name = Bytes.utf8 "debug" then debug
  else if name = Bytes.utf8 "info" then info
  else if name = Bytes.utf8 "warn" ∨ name = Bytes.utf8 "warning" then warning
  else if name = Bytes.utf8 "error" then error
  else if name = Bytes.utf8 "none" then none
  else info

end Level

/-- The tag of a thread that has not chosen one. -/
def defaultTag : Bytes := Bytes.utf8 "main"

/-- A line: the tag in brackets, a space, the message. -/
def line (tag message : Bytes) : Bytes := 91 :: tag ++ 93 :: Bytes.space :: message

end Log

/-- The log of a process. -/
structure Log where
  /-- Messages below this level are dropped. -/
  threshold : Log.Level := .info
  /-- Whether lines go through the background writer. -/
  asynchronous : Bool := false
  /-- Lines on their way to the writer, oldest first. -/
  queue : List Bytes := []
  /-- Lines on the error stream, oldest first. -/
  written : List Bytes := []
  /-- Whether a listener hears every line. -/
  listening : Bool := true
  /-- Lines that the listener has heard, oldest first. -/
  heard : List Bytes := []
  deriving Repr, Inhabited

namespace Log

/-! ### Lines on their way -/

/-- Hands a line to the sinks. -/
def deliver (l : Log) (line : Bytes) : Log :=
  { l with
    written := l.written ++ [line]
    heard := if l.listening then l.heard ++ [line] else l.heard }

/-- Hands lines to the sinks, the first one first. -/
def deliverAll (l : Log) (lines : List Bytes) : Log := lines.foldl deliver l

/-- The writer takes the oldest queued line, if there is one, and delivers it. -/
def writeOne (l : Log) : Log :=
  match l.queue with
  | [] => l
  | line :: rest => { l with queue := rest }.deliver line

/-- Logs a message whatever its level. -/
def emit (l : Log) (tag message : Bytes) : Log :=
  if l.asynchronous then { l with queue := l.queue ++ [line tag message] }
  else l.deliver (line tag message)

/-- Whether messages of a level are logged. -/
def allows (l : Log) (level : Level) : Bool := l.threshold.rank ≤ level.rank

/-- Logs a message if its level is allowed. -/
def note (l : Log) (tag : Bytes) (level : Level) (message : Bytes) : Log :=
  if l.allows level then l.emit tag message else l

/-! ### Modes -/

/-- Turns the background writer on. -/
def startAsync (l : Log) : Log := { l with asynchronous := true }

/-- Turns the background writer off, after it has delivered all that is queued. -/
def stopAsync (l : Log) : Log :=
  if l.asynchronous then { l with asynchronous := false, queue := [] }.deliverAll l.queue else l

/-- Forgets what the listener has heard, and returns it. -/
def takeHeard (l : Log) : List Bytes × Log := (l.heard, { l with heard := [] })

/-- What the error stream holds: each line with a line feed. -/
def stream (l : Log) : Bytes := (l.written.map (· ++ [Bytes.lineFeed])).flatten

/-! ### Laws of delivery -/

@[simp] theorem deliver_written (l : Log) (line : Bytes) :
    (l.deliver line).written = l.written ++ [line] := rfl

@[simp] theorem deliverAll_written (l : Log) (lines : List Bytes) :
    (l.deliverAll lines).written = l.written ++ lines := by
  unfold deliverAll
  induction lines generalizing l with
  | nil => simp
  | cons line rest ih => simp [ih]

/-- A step of the writer moves a line from the queue to the stream, and loses none. -/
theorem writeOne_written_append_queue (l : Log) :
    l.writeOne.written ++ l.writeOne.queue = l.written ++ l.queue := by
  obtain ⟨_, _, queue, _, _, _⟩ := l
  cases queue <;> simp [writeOne, deliver]

end Log

end TaskRuntime
