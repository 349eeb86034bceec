import TaskRuntime.Numeral

/-!
# Request targets of the delay server

A request head asks for `/<delay>/<message>`: the delay in milliseconds, and the text to answer
with.

## What is read

The target is what stands between the first two spaces of the head. Its first segment, between the
leading slash and the next one, is the delay; all that follows the next slash is the message, which
may hold further slashes. The delay segment is read as far as its first NUL, must be a numeral in
full, and is saturated to 64 bits and then cut to 32.

A head may be refused before or after its message has been found, so the message is part of both
answers.
-/

namespace TaskRuntime

namespace DelayServer

/-- What the server makes of a request head. -/
structure Target where
  /-- The delay in milliseconds; nothing if the head is refused. -/
  delay : Option Int
  /-- The message; nothing if the head is refused before a message is found. -/
  message : Option Bytes
  deriving DecidableEq, Repr

/-- What stands between the first two spaces of a head. -/
def targetText (head : Bytes) : Option Bytes := do
  let (_, rest) ← Bytes.splitFirst Bytes.space head
  let (target, _) ← Bytes.splitFirst Bytes.space rest
  return target

/-- The segment before the next slash, and what follows that slash. -/
def splitSegment (s : Bytes) : Bytes × Bytes := (Bytes.splitFirst Bytes.slash s).getD (s, [])

/-- The delay that a segment asks for. A segment that is cut to nothing by a NUL asks for none. -/
def delayOf (segment : Bytes) : Option Int :=
  if segment.isEmpty then none
  else
    let seen := Bytes.upToNul segment
    match Numeral.read? seen with
    | none => if seen.isEmpty then some 0 else none
    | some (n, rest) =>
      let n := Numeral.saturate64 n
      if rest.isEmpty ∧ 0 ≤ n then some (Numeral.wrap32 n) else none

/-- **Reads a request head.** -/
def Target.ofHead (head : Bytes) : Target :=
  match targetText head with
  | some (b :: rest) =>
    if b = Bytes.slash then
      let (segment, message) := splitSegment rest
      ⟨delayOf segment, some message⟩
    else ⟨none, none⟩
  | _ => ⟨none, none⟩

end DelayServer

end TaskRuntime
