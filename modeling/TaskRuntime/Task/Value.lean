import TaskRuntime.Failure
import TaskRuntime.Numeral

/-!
# Values of tasks

Scripted tasks result in nothing, in a 64-bit integer or in a byte string. Continuations turn one
value into another, and may leave a mark on the stage on which the tasks play.
-/

namespace TaskRuntime

/-- What a task results in. -/
inductive Value
  /-- Nothing but the fact. -/
  | unit
  /-- A 64-bit integer; arithmetic wraps around. -/
  | int (i : Int64)
  /-- A byte string. -/
  | text (b : Bytes)
  deriving DecidableEq, Repr, Inhabited

/-- What to do with the value of a first future. -/
inductive Continuation
  /-- Adds a number to a number. -/
  | add (n : Int64)
  /-- Multiplies a number by a number. -/
  | mul (n : Int64)
  /-- Writes a number. -/
  | decimal
  /-- Counts the bytes of a text. -/
  | length
  /-- Reverses the bytes of a text. -/
  | reverse
  /-- Puts a text behind a text. -/
  | append (b : Bytes)
  /-- Shows a value on the stage. -/
  | sink
  /-- Leaves a mark on the stage. -/
  | mark
  /-- Results in a given value. -/
  | const (v : Value)
  /-- Shows a value on the stage, under a name. -/
  | record (name : Bytes)
  /-- Fails. -/
  | throw (e : Failure)
  deriving Repr

/-- The value that a continuation results in when it does not fail. A continuation that does not fit
the value results in nothing. -/
def Continuation.result : Continuation → Value → Value
  | add n, .int i => .int (i + n)
  | mul n, .int i => .int (i * n)
  | decimal, .int i => .text (Numeral.ofInt i.toInt)
  | length, .text b => .int (Int64.ofNat b.length)
  | reverse, .text b => .text b.reverse
  | append b, .text a => .text (a ++ b)
  | const v, _ => v
  | _, _ => .unit

end TaskRuntime
