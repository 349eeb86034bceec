import TaskRuntime.Errno
import TaskRuntime.Kernel.Event

/-!
# System calls

The calls that the library makes to the operating system, as an interface: a type of kernel states,
and for each call a function that gives the outcome and the next state. Theorems hold for every
kernel; `Host` is the one that programs run on.

## Patience

A read that delivers data, and a call that is interrupted, are repeated at once by their callers.
Such repetition ends because it uses up the patience of the kernel: a natural number that each of
these outcomes makes smaller.
-/

namespace TaskRuntime

/-- The number of a descriptor; negative for none. -/
abbrev Descriptor := Int

/-- One of the addresses that a host and a port stand for. -/
structure Address where
  /-- The host, as it was asked for. -/
  host : Bytes
  /-- The port. -/
  port : Int
  deriving DecidableEq, Repr, Inhabited

/-- A kernel: what each system call does. -/
class Kernel (K : Type) where
  /-- Opens a poller. -/
  createPoller : K → Except Errno Descriptor × K
  /-- Opens a notifier: a descriptor that is readable from a write to it until it is read. -/
  createNotifier : K → Except Errno Descriptor × K
  /-- Registers a descriptor with a poller. -/
  add : K → Descriptor → Descriptor → Event → Except Errno Unit × K
  /-- Takes a descriptor out of a poller. -/
  remove : K → Descriptor → Descriptor → Except Errno Unit × K
  /-- Waits for at most so many events, for a limited time in milliseconds or without limit. -/
  wait : K → Descriptor → Nat → Option Int → Except Errno (List Event) × K
  /-- Whether a descriptor is in non-blocking mode. -/
  isNonblocking : K → Descriptor → Except Errno Bool × K
  /-- Puts a descriptor into non-blocking mode. -/
  setNonblocking : K → Descriptor → Except Errno Unit × K
  /-- Reads at most so many bytes; no byte at the end of the file. -/
  read : K → Descriptor → Nat → Except Errno Bytes × K
  /-- Writes bytes, and tells how many were taken. -/
  write : K → Descriptor → Bytes → Except Errno Nat × K
  /-- Closes a descriptor. -/
  close : K → Descriptor → Except Errno Unit × K
  /-- The addresses of a host and a port, or why there are none. -/
  resolve : K → Bytes → Int → Except Bytes (List Address) × K
  /-- Opens a socket for an address. -/
  socket : K → Address → Except Errno Descriptor × K
  /-- Connects a socket. -/
  connect : K → Descriptor → Address → Except Errno Unit × K
  /-- Sends bytes through a socket, and tells how many were taken. -/
  send : K → Descriptor → Bytes → Except Errno Nat × K
  /-- How many more times a call may have to be repeated. -/
  patience : K → Nat
  /-- Data uses up patience. -/
  read_data : ∀ {k k' : K} {d : Descriptor} {n : Nat} {b : UInt8} {bs : Bytes},
    read k d n = (.ok (b :: bs), k') → patience k' < patience k
  /-- An interrupted read uses up patience. -/
  read_interrupted : ∀ {k k' : K} {d : Descriptor} {n : Nat},
    read k d n = (.error .interrupted, k') → patience k' < patience k
  /-- An interrupted attempt to connect uses up patience. -/
  connect_interrupted : ∀ {k k' : K} {d : Descriptor} {a : Address},
    connect k d a = (.error .interrupted, k') → patience k' < patience k
  /-- An interrupted send uses up patience. -/
  send_interrupted : ∀ {k k' : K} {d : Descriptor} {bs : Bytes},
    send k d bs = (.error .interrupted, k') → patience k' < patience k
  /-- A send that is not refused takes something. -/
  send_pos : ∀ {k k' : K} {d : Descriptor} {bs : Bytes} {n : Nat},
    bs ≠ [] → send k d bs = (.ok n, k') → 0 < n

end TaskRuntime
