import TaskRuntime.Kernel.System

/-!
# Pollers

Registering sources with a poller and waiting for their events.

## The buffer

Events are fetched into a buffer. A wait asks for as many events as the buffer has room for, but for
at least one, so that a buffer without room works; the buffer then holds exactly the events that
came, and none after a failure. Its room never shrinks.
-/

namespace TaskRuntime

/-- A buffer for events. -/
structure EventBuffer where
  /-- How many events it has room for. -/
  capacity : Nat := 0
  /-- The events of the last wait. -/
  events : List Event := []
  deriving Repr, Inhabited

namespace EventBuffer

/-- The largest number of events that can be asked for. -/
def maxCount : Nat := 0x7FFFFFFF

/-- How many events a wait asks for. -/
def count (b : EventBuffer) : Nat := min (max b.capacity 1) maxCount

end EventBuffer

namespace Poller

variable {K : Type} [Kernel K]

/-- A truth value as a digit. -/
def digit (b : Bool) : Bytes := Bytes.utf8 (if b then "1" else "0")

/-- Opens a poller. -/
def create (s : System K) : Except Failure Descriptor × System K :=
  match s.call Kernel.createPoller with
  | (.error e, s) => (.error (.os e (Bytes.utf8 "epoll_create1")), s)
  | (.ok d, s) => (.ok d, s)

/-- Registers a source with a poller under a token. -/
def register (s : System K) (poller source : Descriptor) (token : Token) (interests : Interests) :
    Except Failure Unit × System K :=
  let e : Event := ⟨interests, token⟩
  let s := s.note .debug
    (Bytes.utf8 "Poll: register fd=" ++ Numeral.ofInt source ++
      Bytes.utf8 " token=" ++ Numeral.ofNat token.toNat ++
      Bytes.utf8 " readable=" ++ digit e.isReadable ++
      Bytes.utf8 " edge=" ++ digit e.isEdgeTriggered)
  match s.call (Kernel.add · poller source e) with
  | (.error e, s) => (.error (.os e (Bytes.utf8 "epoll_ctl(ADD) fd=" ++ Numeral.ofInt source)), s)
  | (.ok (), s) => (.ok (), s)

/-- Takes a source out of a poller. -/
def deregister (s : System K) (poller source : Descriptor) : Except Failure Unit × System K :=
  match s.call (Kernel.remove · poller source) with
  | (.error e, s) => (.error (.os e (Bytes.utf8 "epoll_ctl(DEL) fd=" ++ Numeral.ofInt source)), s)
  | (.ok (), s) =>
    (.ok (), s.note .debug (Bytes.utf8 "Poll: deregister fd=" ++ Numeral.ofInt source))

/-- Waits for events, for a limited time in milliseconds or without limit. -/
def wait (s : System K) (poller : Descriptor) (b : EventBuffer) (timeout : Option Int) :
    Except Failure Unit × EventBuffer × System K :=
  let capacity := max b.capacity b.count
  match s.call (Kernel.wait · poller b.count timeout) with
  | (.error e, s) => (.error (.os e (Bytes.utf8 "epoll_wait")), ⟨capacity, []⟩, s)
  | (.ok events, s) => (.ok (), ⟨capacity, events⟩, s)

end Poller

end TaskRuntime
