import TaskRuntime.Numeral

/-!
# Events

An event tells the holder of a token which conditions hold on the source that was registered under
that token. Conditions and interests are bits of a 32-bit word, as the operating system defines
them.
-/

namespace TaskRuntime

/-- The number under which a source is registered. -/
abbrev Token := UInt64

/-- A set of conditions or interests, as bits. -/
abbrev Interests := UInt32

namespace Interests

/-- There is something to read. -/
def readable : Interests := 1

/-- There is room for writing. -/
def writable : Interests := 4

/-- Nobody can read what would be written. -/
def broken : Interests := 8

/-- Nobody will write any more. -/
def hangUp : Interests := 16

/-- Report changes only, not conditions that merely persist. -/
def edge : Interests := 0x80000000

/-- Whether two sets have a bit in common. -/
def meets (a b : Interests) : Bool := a &&& b != 0

end Interests

/-- What a source reports. -/
structure Event where
  /-- The conditions. -/
  events : Interests := 0
  /-- The token of the source. -/
  token : Token := 0
  deriving DecidableEq, Repr, Inhabited

namespace Event

/-- Whether there is something to read. -/
def isReadable (e : Event) : Bool := Interests.meets e.events Interests.readable

/-- Whether the event, taken as a registration, asks for changes only. -/
def isEdgeTriggered (e : Event) : Bool := Interests.meets e.events Interests.edge

end Event

end TaskRuntime
