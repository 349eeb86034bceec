import TaskRuntime.Kernel
import TaskRuntime.Log
import TaskRuntime.Table

/-!
# Systems, and owners of descriptors

A system is a kernel together with the log, as the running thread sees it. Most operations of the
library are functions from systems to systems with an answer.

## Ownership

An `Owned` value owns a descriptor or nothing. Whoever takes a descriptor over leaves the former
owner with nothing, and letting go of an owned descriptor closes it. `Holder.Op` are the ways in
which descriptors come to, pass between and leave owners that go by name.
-/

namespace TaskRuntime

/-- A kernel and the log, as seen by the running thread. -/
structure System (K : Type) where
  /-- The kernel. -/
  kernel : K
  /-- The log. -/
  log : Log := {}
  /-- The tag of the running thread. -/
  tag : Bytes := Log.defaultTag

namespace System

variable {K : Type}

/-- Logs a message of the running thread. -/
def note (s : System K) (level : Log.Level) (message : Bytes) : System K :=
  { s with log := s.log.note s.tag level message }

/-- Makes a system call. -/
def call {A : Type} (s : System K) (f : K → A × K) : A × System K :=
  ((f s.kernel).1, { s with kernel := (f s.kernel).2 })

end System

/-- What owns a descriptor or nothing. -/
structure Owned where
  /-- The descriptor; negative for nothing. -/
  number : Descriptor := -1
  deriving DecidableEq, Repr, Inhabited

namespace Owned

/-- The owner of nothing. -/
def nothing : Owned := {}

/-- Whether there is a descriptor. -/
def isValid (x : Owned) : Bool := 0 ≤ x.number

end Owned

/-- The two kinds of owner, which differ in how they report that closing failed. -/
inductive Owner
  /-- Owner of a file, pipe end or socket. -/
  | file
  /-- Owner of a poller. -/
  | poller
  deriving DecidableEq, Repr

namespace Owner

/-- What is logged when closing a descriptor fails. -/
def closeFailure (d : Descriptor) (e : Errno) : Owner → Log.Level × Bytes
  | file => (.warning,
      Bytes.utf8 "close(" ++ Numeral.ofInt d ++ Bytes.utf8 ") failed: " ++ e.text)
  | poller => (.error,
      Bytes.utf8 "Poll: error closing epoll descriptor " ++ Numeral.ofInt d ++ Bytes.utf8 ": " ++
        e.text)

end Owner

/-- Closes what is owned, if anything is. A failure is only logged: the descriptor is gone. -/
def System.release {K : Type} [Kernel K] (s : System K) (o : Owner) (x : Owned) : System K :=
  if x.isValid then
    match s.call (Kernel.close · x.number) with
    | (.ok (), s) => s
    | (.error e, s) =>
      let (level, message) := o.closeFailure x.number e
      s.note level message
  else s

/-- Puts an owned descriptor into non-blocking mode, unless it is in that mode. -/
def System.setNonblocking {K : Type} [Kernel K] (s : System K) (x : Owned) :
    Except Failure Unit × System K :=
  match s.call (Kernel.isNonblocking · x.number) with
  | (.error e, s) => (.error (.os e (Bytes.utf8 "fcntl(F_GETFL)")), s)
  | (.ok true, s) => (.ok (), s)
  | (.ok false, s) =>
    match s.call (Kernel.setNonblocking · x.number) with
    | (.error e, s) => (.error (.os e (Bytes.utf8 "fcntl(F_SETFL)")), s)
    | (.ok (), s) => (.ok (), s)

/-! ### Owners by name -/

namespace Holder

/-- A way in which descriptors come to, pass between and leave owners. -/
inductive Op
  /-- A new owner takes a descriptor; a former owner of that name is destroyed. -/
  | adopt (name : Bytes) (d : Descriptor)
  /-- A new owner takes what another one owns; a former owner of its name is destroyed. -/
  | move (source target : Bytes)
  /-- An owner lets go of what it owns and takes what another one owns. -/
  | assign (source target : Bytes)
  /-- An owner gives up what it owns, without closing it. -/
  | release (name : Bytes)
  /-- An owner lets go of what it owns and takes a descriptor. -/
  | reset (name : Bytes) (d : Descriptor)
  /-- An owner is destroyed. -/
  | drop (name : Bytes)
  deriving Repr

variable {K : Type} [Kernel K]

/-- Owners by name. -/
abbrev Holders := Table Bytes Owned

/-- What an owner owns; nothing, for a name that has none. -/
def owned (t : Holders) (name : Bytes) : Owned := t.getD name .nothing

/-- Gives a name an owner of a descriptor, in place of the one it has. -/
def replace (o : Owner) (t : Holders) (s : System K) (name : Bytes) (x : Owned) :
    Holders × System K :=
  (t.insert name x, s.release o (owned t name))

/-- Carries an operation out. -/
def Op.run (o : Owner) (t : Holders) (s : System K) : Op → Holders × System K
  | adopt name d => replace o t s name ⟨d⟩
  | move source target => replace o (t.insert source .nothing) s target (owned t source)
  | assign source target =>
    if source = target then (t, s)
    else replace o (t.insert source .nothing) s target (owned t source)
  | release name => (t.insert name .nothing, s)
  | reset name d => replace o t s name ⟨d⟩
  | drop name => (t.erase name, s.release o (owned t name))

end Holder

end TaskRuntime
