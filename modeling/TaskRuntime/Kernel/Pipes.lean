import TaskRuntime.Kernel.Host
import TaskRuntime.Reactor

/-!
# Pipes by name

Pipes of a host that go by name and are opened when a name is first used, and what a reactor on that
host does once they change: `Reactor.settle` lets its loop run until nothing is queued any more.
-/

namespace TaskRuntime

namespace Host

/-- The ends of a pipe; an end that is closed, or taken out, is owned by nobody here. -/
structure Ends where
  /-- The end to read from. -/
  reader : Owned := .nothing
  /-- The end to write to. -/
  writer : Owned := .nothing
  deriving Repr, Inhabited

/-- Pipes by name. -/
abbrev Pipes := Table Bytes Ends

/-- The ends of a pipe, which is opened if the name is new. -/
def pipe (h : Host) (pipes : Pipes) (name : Bytes) : Ends × Pipes × Host :=
  match pipes.get? name with
  | some ends => (ends, pipes, h)
  | none =>
    match h.openPipe with
    | (.ok (r, w), h) => (⟨⟨r⟩, ⟨w⟩⟩, pipes.insert name ⟨⟨r⟩, ⟨w⟩⟩, h)
    | (.error _, h) => ({}, pipes.insert name {}, h)

/-- Writes into a pipe. What cannot be written is lost. -/
def feed (h : Host) (pipes : Pipes) (name bytes : Bytes) : Pipes × Host :=
  let (ends, pipes, h) := h.pipe pipes name
  if bytes.isEmpty then (pipes, h) else (pipes, (h.write ends.writer.number bytes).2)

/-- Reads all that a pipe holds. -/
def takeAll (h : Host) (pipes : Pipes) (name : Bytes) : Bytes × Pipes × Host :=
  let (ends, pipes, h) := h.pipe pipes name
  match h.read ends.reader.number h.unread with
  | (.ok bytes, h) => (bytes, pipes, h)
  | (.error _, h) => ([], pipes, h)

/-- Closes the end of a pipe to write to. -/
def closeWriter (h : Host) (pipes : Pipes) (name : Bytes) : Pipes × Host :=
  let (ends, pipes, h) := h.pipe pipes name
  (pipes.insert name { ends with writer := .nothing }, (h.close ends.writer.number).2)

/-- Closes the end of a pipe to read from. -/
def closeReader (h : Host) (pipes : Pipes) (name : Bytes) : Pipes × Host :=
  let (ends, pipes, h) := h.pipe pipes name
  (pipes.insert name { ends with reader := .nothing }, (h.close ends.reader.number).2)

/-- Whether an end of a pipe is open anywhere. -/
def isOpen (h : Host) (source : Source) : Bool := !(h.descriptorsOf source).isEmpty

/-- How many descriptors a poller has queued. -/
def queued (h : Host) (d : Descriptor) : Nat := (h.poller? d).elim 0 fun p ↦ p.2.queue.length

end Host

namespace Reactor

/-- Lets the loop run until it has dispatched all that is queued. -/
def settle (r : Reactor) (s : System Host) : List Waker × Reactor × System Host :=
  Reactor.turns (s.kernel.queued r.poller) r s

/-- Makes every further call on the poller fail. A pipe gets a byte, so that the loop, if it runs,
comes back from its wait and then finds out. -/
def sabotage (r : Reactor) (s : System Host) (pipes : Host.Pipes) (name : Bytes) :
    List Waker × Host.Pipes × Reactor × System Host :=
  let (pipes, kernel) := s.kernel.feed pipes name [120]
  let s := { s with kernel }
  let (ws, r, s) := r.settle s
  let s := { s with kernel := s.kernel.disable r.poller }
  let (more, r, s) := Reactor.turns 1 r s
  (ws ++ more, pipes, r, s)

end Reactor

end TaskRuntime
