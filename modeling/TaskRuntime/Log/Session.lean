import TaskRuntime.Log

/-!
# Logging sessions

A session is a finite program of logger operations on one thread: levels, tags, messages, the
asynchronous switches, and sub-sessions on threads of their own that are joined before going on.

## The background writer's schedule

While a session runs, the writer may deliver queued lines at any time. `Session.pace` says how many
it delivers before each operation; when the list is used up it delivers nothing until asynchronous
mode is turned off. `Op.synchronous` takes the asynchronous switches out of a program, which gives
the session to compare with.
-/

namespace TaskRuntime

namespace Log

/-- An operation of a logging session. -/
inductive Op
  /-- Sets the threshold. -/
  | setLevel (level : Level)
  /-- Asks for the threshold. -/
  | getLevel
  /-- Logs a message at a level. -/
  | note (level : Level) (message : Bytes)
  /-- Logs a message whatever the threshold is. -/
  | emit (message : Bytes)
  /-- Sets the tag of the thread. -/
  | setTag (tag : Bytes)
  /-- Asks for the tag of the thread. -/
  | getTag
  /-- Turns the background writer on. -/
  | startAsync
  /-- Turns the background writer off. -/
  | stopAsync
  /-- Asks whether the background writer is on. -/
  | isAsync
  /-- Removes the listener. -/
  | stopListening
  /-- Runs operations on a new thread and waits for its end. -/
  | thread (ops : List Op)
  deriving Inhabited

/-- What an operation answers. -/
inductive Answer
  /-- Nothing. -/
  | done
  /-- A threshold. -/
  | level (level : Level)
  /-- Whether the message was made. -/
  | evaluated (made : Bool)
  /-- A tag. -/
  | tag (tag : Bytes)
  /-- Whether the background writer is on. -/
  | async (on : Bool)
  /-- The answers of a thread. -/
  | thread (answers : List Answer)

/-- A running session. -/
structure Session where
  /-- The log of the process. -/
  log : Log
  /-- The tag of the running thread. -/
  tag : Bytes := defaultTag
  /-- How many lines the writer delivers before each of the coming operations. -/
  pace : List Nat := []

namespace Session

/-- Lets the writer work before an operation, as its schedule says. -/
def writer (s : Session) : Session :=
  match s.pace with
  | [] => s
  | n :: rest => { s with log := n.repeat writeOne s.log, pace := rest }

end Session

mutual

/-- Runs one operation. -/
def Op.run : Op → Session → Answer × Session
  | .setLevel level, s =>
    let s := s.writer
    (.done, { s with log := { s.log with threshold := level } })
  | .getLevel, s =>
    let s := s.writer
    (.level s.log.threshold, s)
  | .note level message, s =>
    let s := s.writer
    (.evaluated (s.log.allows level), { s with log := s.log.note s.tag level message })
  | .emit message, s =>
    let s := s.writer
    (.evaluated true, { s with log := s.log.emit s.tag message })
  | .setTag tag, s =>
    let s := s.writer
    (.done, { s with tag := tag })
  | .getTag, s =>
    let s := s.writer
    (.tag s.tag, s)
  | .startAsync, s =>
    let s := s.writer
    (.done, { s with log := s.log.startAsync })
  | .stopAsync, s =>
    let s := s.writer
    (.done, { s with log := s.log.stopAsync })
  | .isAsync, s =>
    let s := s.writer
    (.async s.log.asynchronous, s)
  | .stopListening, s =>
    let s := s.writer
    (.done, { s with log := { s.log with listening := false } })
  | .thread ops, s =>
    let s := s.writer
    let (answers, t) := Op.runAll ops { s with tag := defaultTag }
    (.thread answers, { t with tag := s.tag })

/-- Runs operations in order. -/
def Op.runAll : List Op → Session → List Answer × Session
  | [], s => ([], s)
  | op :: rest, s =>
    let (answer, s) := Op.run op s
    let (answers, s) := Op.runAll rest s
    (answer :: answers, s)

end

mutual

/-- The operation without asynchronous switches: nothing in place of a switch. -/
def Op.synchronous : Op → List Op
  | .startAsync => []
  | .stopAsync => []
  | .thread ops => [.thread (Op.synchronousAll ops)]
  | op => [op]

/-- The program without asynchronous switches. -/
def Op.synchronousAll : List Op → List Op
  | [] => []
  | op :: rest => Op.synchronous op ++ Op.synchronousAll rest

end

end Log

end TaskRuntime
