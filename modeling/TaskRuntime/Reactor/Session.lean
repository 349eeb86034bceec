import TaskRuntime.Kernel.Session
import TaskRuntime.Wake.Session

/-!
# Reactor sessions

A reactor on a host, with pipes for sources and wakers for tasks, and the operations on it. After
each operation the loop, if it runs, dispatches all that is queued.
-/

namespace TaskRuntime

namespace Reactor

/-- A reactor with its surroundings. -/
structure Session where
  /-- System and pipes. -/
  host : Host.Session
  /-- Queues, parkers and wakers. -/
  wakes : Wake.Session := {}
  /-- The reactor, if there is one. -/
  reactor : Option Reactor := none

/-- An operation on a reactor. -/
inductive Op
  /-- Makes a reactor, in place of the one that there is; so many descriptors can be opened. -/
  | create (capacity : Nat) (slack : Option Nat)
  /-- Starts the loop. -/
  | start
  /-- Stops the loop. -/
  | stop
  /-- Destroys the reactor. -/
  | drop
  /-- Issues a token. -/
  | issue
  /-- Issues tokens. -/
  | issueMany (n : Nat)
  /-- Registers a descriptor. -/
  | register (target : Host.Target) (token : Token) (interests : Interests)
  /-- Leaves the waker of a task, or one that wakes nothing. -/
  | setWaker (token : Token) (task : Option (TaskId × Bytes))
  /-- Takes a descriptor and its waker out. -/
  | deregister (target : Host.Target) (token : Token)
  /-- An operation on queues and wakers. -/
  | wakes (op : Wake.Op)
  /-- An operation on pipes. -/
  | pipes (op : Host.PipeOp)
  /-- Asks whether a waker is stored. -/
  | has (token : Token)
  /-- Asks for the state. -/
  | state
  /-- Interrupts the loop by a signal. -/
  | signal
  /-- Lets the loop die. -/
  | sabotage (pipe : Bytes)

/-- What an operation answers. -/
inductive Answer
  /-- Nothing. -/
  | done
  /-- A failure. -/
  | failed (e : Failure)
  /-- A token. -/
  | token (t : Token)
  /-- The least and the greatest of some tokens. -/
  | tokens (count : Nat) (least greatest : Token)
  /-- Yes or no. -/
  | truth (b : Bool)
  /-- Whether the loop is to go on, why it has died, and how many wakers are stored. -/
  | state (running : Bool) (failure : Option Bytes) (wakers : Nat)
  /-- What an operation on queues answers. -/
  | wakes (a : Wake.Answer)
  /-- Bytes that were read. -/
  | data (b : Bytes)

/-- The answer to something that may fail. -/
def Answer.ofResult : Except Failure Unit → Answer
  | .ok () => done
  | .error e => failed e

/-- Issues tokens: the least and the greatest. -/
def issueMany : Nat → Reactor → Token → Token → Token × Token × Reactor
  | 0, r, least, greatest => (least, greatest, r)
  | n + 1, r, least, greatest =>
    let (t, r) := r.issue
    issueMany n r (min t least) (max t greatest)

namespace Session

/-- Puts back what a call on the reactor has left. -/
def put (s : Session) (ws : List Waker) (r : Option Reactor) (system : System Host) : Session where
  host := { s.host with system }
  wakes := s.wakes.wakeAll ws
  reactor := r

/-- Destroys the reactor, if there is one. -/
def destroy (s : Session) : Session :=
  match s.reactor with
  | none => s
  | some r =>
    let (ws, system) := r.destroy s.host.system
    s.put ws none system

/-- The loop dispatches all that is queued. -/
def settle (s : Session) : Session :=
  match s.reactor with
  | none => s
  | some r =>
    let (ws, r, system) := r.settle s.host.system
    s.put ws (some r) system

/-- The reactor, or an inert one. -/
def current (s : Session) : Reactor := s.reactor.getD {}

/-- The lines that count: once the loop has died, it does not matter whom it had woken before. -/
def counts (s : Session) (line : Bytes) : Bool :=
  (s.current.failure).isNone || !(Bytes.utf8 "[reactor] Reactor: waking ").isPrefixOf line

/-- Forgets what has been logged, and returns it in order of bytes. -/
def takeLog (s : Session) : List Bytes × Session :=
  let (lines, host) := s.host.takeLog
  ((lines.filter s.counts).mergeSort Config.Value.nameLe, { s with host })

end Session

/-- Carries an operation out. -/
def Op.perform (s : Session) : Op → Answer × Session
  | create capacity slack =>
    let s := s.destroy
    let system := s.host.system
    let limited := { system with kernel := { system.kernel with slack } }
    let (made, system) := Reactor.create capacity limited
    let system := { system with kernel := { system.kernel with slack := none } }
    match made with
    | .ok r => (.done, s.put [] (some r) system)
    | .error e => (.failed e, s.put [] none system)
  | start =>
    let (result, r, system) := s.current.start s.host.system
    (.ofResult result, s.put [] (some r) system)
  | stop =>
    let (ws, r, system) := s.current.stop s.host.system
    (.done, s.put ws (some r) system)
  | drop => (.done, s.destroy)
  | issue =>
    let (t, r) := s.current.issue
    (.token t, { s with reactor := some r })
  | issueMany n =>
    let (least, greatest, r) := Reactor.issueMany n s.current notifyToken 0
    (.tokens n least greatest, { s with reactor := some r })
  | register target token interests =>
    let (d, host) := s.host.target target
    let (result, host) := host.onSystem (s.current.register · d interests token)
    (.ofResult result, { s with host })
  | setWaker token task =>
    let (w, waking) := match task with
      | none => (Waker.idle, s.wakes)
      | some (id, queue) => s.wakes.taskWaker id queue
    let (result, r) := s.current.setWaker token w
    (.ofResult result, { s with wakes := waking, reactor := some r })
  | deregister target token =>
    let (d, host) := s.host.target target
    let (result, r, system) := s.current.deregister host.system d token
    (.ofResult result, { s with host := { host with system }, reactor := some r })
  | wakes op =>
    let (a, waking) := op.run s.wakes
    (.wakes a, { s with wakes := waking })
  | pipes op =>
    let (data, host) := s.host.onPipes op.run
    (data.elim .done .data, { s with host })
  | has token => (.truth (s.current.wakers.contains token), s)
  | state => (.state s.current.running s.current.failure s.current.wakers.size, s)
  | signal =>
    let system := s.host.system
    let (ws, r, system) :=
      Reactor.turns 1 s.current { system with kernel := { system.kernel with signalled := true } }
    let system := { system with kernel := { system.kernel with signalled := false } }
    (.done, s.put ws (s.reactor.map fun _ ↦ r) system)
  | sabotage pipe =>
    let (ws, ends, r, system) := s.current.sabotage s.host.system s.host.pipes pipe
    (.done, { s with host := { s.host with pipes := ends } }.put ws (some r) system)

/-- Carries an operation out, and lets the loop dispatch. -/
def Op.run (s : Session) (op : Op) : Answer × Session :=
  let (a, s) := op.perform s
  (a, s.settle)

end Reactor

end TaskRuntime
