import TaskRuntime.Kernel.Pipes

/-!
# Descriptor sessions

Owners of descriptors, pipes and an event buffer by name on a host, and the operations on them.
-/

namespace TaskRuntime

namespace Host

/-- Owners, pipes and a buffer. -/
structure Session where
  /-- The system. -/
  system : System Host
  /-- The kind of the owners. -/
  owner : Owner := .file
  /-- The owners by name. -/
  holders : Holder.Holders := .empty
  /-- The pipes by name. -/
  pipes : Pipes := .empty
  /-- The pipes that owners have taken a descriptor of, by name. -/
  taken : Table Bytes Source := .empty
  /-- The buffer for events. -/
  buffer : EventBuffer := {}

/-- A descriptor that an operation refers to. -/
inductive Target
  /-- A number. -/
  | number (d : Descriptor)
  /-- The end of a pipe to read from. -/
  | reader (pipe : Bytes)
  /-- The end of a pipe to write to. -/
  | writer (pipe : Bytes)

namespace Session

/-- What an owner owns. -/
def owned (s : Session) (name : Bytes) : Owned := Holder.owned s.holders name

/-- Carries an operation on owners out. -/
def hold (s : Session) (op : Holder.Op) : Session :=
  let (holders, system) := op.run s.owner s.holders s.system
  { s with holders, system }

/-- Changes host and pipes. -/
def onPipes {A : Type} (s : Session) (f : Host → Pipes → A × Pipes × Host) : A × Session :=
  let (a, pipes, kernel) := f s.system.kernel s.pipes
  (a, { s with pipes, system := { s.system with kernel } })

/-- Changes the system. -/
def onSystem {A : Type} (s : Session) (f : System Host → A × System Host) : A × Session :=
  let (a, system) := f s.system
  (a, { s with system })

/-- The descriptor that is referred to. -/
def target (s : Session) : Target → Descriptor × Session
  | .number d => (d, s)
  | .reader pipe => s.onPipes fun h pipes ↦
    let (ends, pipes, h) := h.pipe pipes pipe
    (ends.reader.number, pipes, h)
  | .writer pipe => s.onPipes fun h pipes ↦
    let (ends, pipes, h) := h.pipe pipes pipe
    (ends.writer.number, pipes, h)

/-- The end to read from of a new pipe, which is known by its name from now on. -/
def newPipe (s : Session) (name : Bytes) : Descriptor × Session :=
  match s.system.kernel.openPipe with
  | (.error _, kernel) => (-1, { s with system := { s.system with kernel } })
  | (.ok (r, _), kernel) =>
    (r, { s with
      system := { s.system with kernel }
      taken := s.taken.insert name ((kernel.source? r).getD .other) })

/-- Forgets what has been logged, and returns it. -/
def takeLog (s : Session) : List Bytes × Session :=
  let (lines, log) := s.system.log.takeHeard
  (lines, { s with system := { s.system with log } })

end Session

/-- Something that can be done to pipes. -/
inductive PipeOp
  /-- Opens the pipe, if it is new. -/
  | touch (pipe : Bytes)
  /-- Writes into some pipes. -/
  | write (pipes : List Bytes) (bytes : Bytes)
  /-- Reads all that there is. -/
  | read (pipe : Bytes)
  /-- Closes the end to write to. -/
  | closeWriter (pipe : Bytes)
  /-- Closes the end to read from. -/
  | closeReader (pipe : Bytes)

/-- Carries an operation on pipes out: the bytes that were read, if it was a read. -/
def PipeOp.run (h : Host) (pipes : Pipes) : PipeOp → Option Bytes × Pipes × Host
  | touch name => (none, (h.pipe pipes name).2)
  | write names bytes =>
    (none, names.foldl (fun (pipes, h) name ↦ h.feed pipes name bytes) (pipes, h))
  | read name =>
    let (bytes, pipes, h) := h.takeAll pipes name
    (some bytes, pipes, h)
  | closeWriter name => (none, h.closeWriter pipes name)
  | closeReader name => (none, h.closeReader pipes name)

/-- An operation on owners, pipes and the buffer. -/
inductive Op
  /-- An operation on pipes. -/
  | pipes (op : PipeOp)
  /-- An operation on owners. -/
  | hold (op : Holder.Op)
  /-- An owner takes a new poller; so many descriptors can be opened. -/
  | adoptPoller (name : Bytes) (slack : Option Nat)
  /-- An owner takes the end to read from of a new pipe. -/
  | adoptPipe (name pipe : Bytes)
  /-- Asks whether an owner owns anything. -/
  | isValid (name : Bytes)
  /-- Asks what an owner owns. -/
  | number (name : Bytes)
  /-- Puts what an owner owns into non-blocking mode. -/
  | setNonblocking (name : Bytes)
  /-- Asks whether what an owner owns is in non-blocking mode. -/
  | isNonblocking (name : Bytes)
  /-- Asks whether the end of a pipe that was taken is still open. -/
  | isOpen (pipe : Bytes)
  /-- Registers a descriptor with a poller. -/
  | register (poller : Bytes) (target : Target) (token : Token) (interests : Interests)
  /-- Takes a descriptor out of a poller. -/
  | deregister (poller : Bytes) (target : Target)
  /-- Waits on a poller, perhaps while signals keep arriving. -/
  | wait (poller : Bytes) (timeout : Option Int) (signalled : Bool)
  /-- Takes a new buffer. -/
  | reserve (capacity : Nat)
  /-- Asks how many events the buffer holds. -/
  | buffered

/-- What an operation answers. -/
inductive Answer
  /-- Nothing. -/
  | done
  /-- A failure. -/
  | failed (e : Failure)
  /-- Bytes that were read. -/
  | data (b : Bytes)
  /-- Yes or no. -/
  | truth (b : Bool)
  /-- A descriptor. -/
  | number (d : Descriptor)
  /-- Events. -/
  | events (l : List Event)
  /-- A size. -/
  | size (n : Nat)

/-- The answer to something that may fail. -/
def Answer.ofResult : Except Failure Unit → Answer
  | .ok () => done
  | .error e => failed e

/-- Carries an operation out. -/
def Op.run (s : Session) : Op → Answer × Session
  | pipes op =>
    let (data, s) := s.onPipes op.run
    (data.elim .done .data, s)
  | hold op =>
    (match op with
      | .release name => .truth (s.owned name).isValid
      | _ => .done, s.hold op)
  | adoptPoller name slack =>
    let limited := { s.system with kernel := { s.system.kernel with slack } }
    let (made, system) := Poller.create limited
    let s := { s with system := { system with kernel := { system.kernel with slack := none } } }
    match made with
    | .ok d => (.done, s.hold (.adopt name d))
    | .error e => (.failed e, s)
  | adoptPipe name pipe =>
    let (d, s) := s.newPipe pipe
    (.done, s.hold (.adopt name d))
  | isValid name => (.truth (s.owned name).isValid, s)
  | number name => (.number (s.owned name).number, s)
  | setNonblocking name =>
    let (result, s) := s.onSystem (·.setNonblocking (s.owned name))
    (.ofResult result, s)
  | isNonblocking name =>
    (.truth ((s.system.kernel.isNonblocking (s.owned name).number).toOption.getD false), s)
  | isOpen pipe => (.truth ((s.taken.get? pipe).elim false s.system.kernel.isOpen), s)
  | register poller target token interests =>
    let (d, s) := s.target target
    let (result, s) := s.onSystem (Poller.register · (s.owned poller).number d token interests)
    (.ofResult result, s)
  | deregister poller target =>
    let (d, s) := s.target target
    let (result, s) := s.onSystem (Poller.deregister · (s.owned poller).number d)
    (.ofResult result, s)
  | wait poller timeout signalled =>
    let during := { s.system with kernel := { s.system.kernel with signalled } }
    let (result, buffer, system) := Poller.wait during (s.owned poller).number s.buffer timeout
    let system := { system with kernel := { system.kernel with signalled := false } }
    (match result with
      | .ok () => .events buffer.events
      | .error e => .failed e, { s with system, buffer })
  | reserve capacity => (.done, { s with buffer := ⟨capacity, []⟩ })
  | buffered => (.size s.buffer.events.length, s)

end Host

end TaskRuntime
