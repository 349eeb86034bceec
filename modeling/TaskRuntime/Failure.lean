import TaskRuntime.Errno

/-!
# Failures

Everything that a poll, a call on an executor or a call on the reactor can fail with, by cause. The
wording is in one function, `Failure.message`.

## Two kinds of cause

* A system call failed: `Failure.os` carries the error number and what was being done.
* The library was misused, or its event loop is dead: `Failure.misuse` carries one of the causes of
  `Misuse` and, where there is more to say, a detail.

The other constructors are told by their text alone; those of tasks pass through unchanged.
-/

namespace TaskRuntime

/-- Why a call was refused. -/
inductive Misuse
  /-- Something that may exist once exists already. -/
  | alreadyRunning
  /-- Something that has to exist first does not. -/
  | notInitialized
  /-- A future was polled after it had resolved. -/
  | resolvedFutureReused
  /-- The event loop has died. -/
  | reactorFailed
  /-- A cause outside the list, by its number. -/
  | other (code : Int)
  deriving DecidableEq, Repr, Inhabited

namespace Misuse

/-- The cause with a given number. -/
def ofCode : Int → Misuse
  | 1 => alreadyRunning
  | 2 => notInitialized
  | 3 => resolvedFutureReused
  | 4 => reactorFailed
  | code => other code

/-- The number of a cause. -/
def code : Misuse → Int
  | alreadyRunning => 1
  | notInitialized => 2
  | resolvedFutureReused => 3
  | reactorFailed => 4
  | other code => code

/-- The wording of a cause. -/
def text : Misuse → String
  | alreadyRunning => "already running"
  | notInitialized => "called outside a runtime context"
  | resolvedFutureReused => "polled a resolved future"
  | reactorFailed => "reactor event loop failed"
  | other _ => "unknown runtime error"

/-- Numbers are kept. -/
@[simp] theorem code_ofCode (c : Int) : (ofCode c).code = c := by
  unfold ofCode
  split <;> rfl

end Misuse

/-- Why something failed. -/
inductive Failure
  /-- A system call failed while something was being done. -/
  | os (error : Errno) (doing : Bytes)
  /-- The library refused, with a detail or without. -/
  | misuse (cause : Misuse) (detail : Option Bytes)
  /-- A failure told only by its text. -/
  | general (text : Bytes)
  /-- A broken contract of a task, told by its text. -/
  | logic (text : Bytes)
  /-- The environment has nothing left that could ever wake the thread. -/
  | stalled
  deriving DecidableEq, Repr, Inhabited

namespace Failure

/-- The full wording, before a reader cuts it. -/
def wording : Failure → Bytes
  | os error doing => doing ++ Bytes.utf8 ": " ++ error.text
  | misuse cause none => Bytes.utf8 cause.text
  | misuse cause (some detail) => Bytes.utf8 cause.text ++ Bytes.utf8 ": " ++ detail
  | general text => text
  | logic text => text
  | stalled => []

/-- **The message of a failure**, as a NUL-terminated text: what stands after a NUL is lost. -/
def message (f : Failure) : Bytes := Bytes.upToNul f.wording

/-- A future polled after it had resolved names itself in the detail. -/
def reused (what : String) : Failure := misuse .resolvedFutureReused (some (Bytes.utf8 what))

end Failure

end TaskRuntime
