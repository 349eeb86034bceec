import TaskRuntime.Executor.Act
import TaskRuntime.Net.Environment

/-!
# Reading to the end

A future that reads a descriptor until its end, and results in all that was read.

## Polls

The first poll prepares the future: an opening of the caller's choice, non-blocking mode,
registration with the reactor for changes of readability, and leaving the waker. Preparation happens
once, also if one of its steps fails. Every poll then reads until there is nothing to read at the
moment, which leaves the waker and means "pending", or until the end, which takes the registration
back and means "ready". Reads that are interrupted are repeated; any other failure fails the poll,
and what was read is kept.

Each poll reads into a new piece of memory of the size of a chunk, and that there is so much memory
is taken for granted. A chunk of more than `2 ^ 63 - 1` bytes is more than any poll could get: it
would fail there, before its first read.
-/

namespace TaskRuntime

/-- A future that reads a descriptor to its end. -/
structure ReadToEnd where
  /-- The descriptor. -/
  owned : Owned
  /-- The token under which it is registered. -/
  token : Token
  /-- How many bytes are read at once. -/
  chunk : Nat
  /-- What has been read. -/
  buffer : Bytes := []
  /-- Whether preparation has begun. -/
  started : Bool := false
  /-- Whether the registration is the future's to take back. -/
  registered : Bool := false
  /-- Whether there is nothing to poll for any more. -/
  finished : Bool := false
  deriving Inhabited

namespace ReadToEnd

/-- Why reading stopped. -/
inductive Pause
  /-- The end has been reached. -/
  | endOfFile
  /-- There is nothing to read at the moment. -/
  | wouldBlock
  /-- A read has failed. -/
  | failed (e : Errno)
  deriving DecidableEq, Repr

variable {K : Type} [Kernel K]

/-- Reads until there is a pause. The pieces that were read are put in front of the given ones. -/
def drain (d : Descriptor) (chunk : Nat) (pieces : List Bytes) (k : K) : Pause × List Bytes × K :=
  match _read : Kernel.read k d chunk with
  | (.ok [], k) => (.endOfFile, pieces, k)
  | (.ok (b :: bs), k') => drain d chunk ((b :: bs) :: pieces) k'
  | (.error e, k') =>
    if _again : e = .interrupted then drain d chunk pieces k'
    else if e.isWouldBlock then (.wouldBlock, pieces, k')
    else (.failed e, pieces, k')
termination_by Kernel.patience k
decreasing_by
  · exact Kernel.read_data _read
  · exact Kernel.read_interrupted (_again ▸ _read)

/-! ### Construction, moving and destruction -/

/-- A future for a descriptor that reads so many bytes at once; zero stands for "as configured". -/
def create (owned : Owned) (requested : Nat) (e : Environment K) : ReadToEnd × Environment K :=
  let (token, e) := e.issueToken
  if 0 < requested then ({ owned, token, chunk := requested }, e)
  else
    let (configured, e) := e.setting Config.readBuffer
    ({ owned, token, chunk := Config.chunkSize 0 configured }, e)

/-- A future takes over from another one: the new one, and what is left of the other. -/
def move (f : ReadToEnd) : ReadToEnd × ReadToEnd :=
  (f, { f with owned := .nothing, buffer := [], registered := false, finished := true })

/-- What is logged when the registration of a destroyed future cannot be taken back. -/
def dropFailure (x : Failure) : Bytes :=
  Bytes.utf8 "ReadToEndFuture: deregister on drop failed: " ++ x.message

/-- Destroys a future: takes its registration back, and closes its descriptor. -/
def drop (f : ReadToEnd) (e : Environment K) : Environment K :=
  let e :=
    if f.registered then
      match e.deregister f.owned.number f.token with
      | (.ok (), e) => e
      | (.error x, e) => e.note .warning (dropFailure x)
    else e
  { e with toSystem := e.toSystem.release .file f.owned }

/-! ### Polls -/

/-- How a future is opened on its first poll. -/
abbrev Opening (K : Type) := Owned → System K → Except Failure Owned × System K

/-- The opening that does nothing. -/
def Opening.none : Opening K := fun x s ↦ (.ok x, s)

/-- The token of a future as text. -/
def tokenText (f : ReadToEnd) : Bytes := Numeral.ofNat f.token.toNat

/-- Prepares a future on its first poll. -/
def prepare (f : ReadToEnd) (opening : Opening K) (w : Waker) (e : Environment K) :
    Except Failure Unit × ReadToEnd × Environment K :=
  if f.started then (.ok (), f, e)
  else
    let e := e.note .debug
      (Bytes.utf8 "FIRST POLL - STARTING OPERATION (token " ++ f.tokenText ++ Bytes.utf8 ")")
    let f := { f with started := true }
    match e.onSystem (opening f.owned) with
    | (.error x, e) => (.error x, f, e)
    | (.ok owned, e) =>
      let f := { f with owned }
      match e.onSystem (·.setNonblocking owned) with
      | (.error x, e) => (.error x, f, e)
      | (.ok (), e) =>
        match e.register owned.number (Interests.readable ||| Interests.edge) f.token with
        | (.error x, e) => (.error x, f, e)
        | (.ok (), e) =>
          let f := { f with registered := true }
          match e.setWaker f.token w with
          | (.error x, e) => (.error x, f, e)
          | (.ok (), e) => (.ok (), f, e)

/-- What a future makes of a pause. -/
def conclude (f : ReadToEnd) (w : Waker) (e : Environment K) :
    Pause → Polled Bytes × ReadToEnd × Environment K
  | .endOfFile =>
    let e := e.note .debug
      (Bytes.utf8 "Completed read (token " ++ f.tokenText ++ Bytes.utf8 ", " ++
        Numeral.ofNat f.buffer.length ++ Bytes.utf8 " bytes)")
    let f := { f with registered := false }
    match e.deregister f.owned.number f.token with
    | (.error x, e) => (.error x, f, e)
    | (.ok (), e) => (.ok (.ready f.buffer), { f with finished := true, buffer := [] }, e)
  | .wouldBlock =>
    let e := e.note .debug (Bytes.utf8 "WOULD BLOCK (token " ++ f.tokenText ++ Bytes.utf8 ")")
    match e.setWaker f.token w with
    | (.error x, e) => (.error x, f, e)
    | (.ok (), e) => (.ok .pending, f, e)
  | .failed x =>
    (.error (.os x (Bytes.utf8 "read fd=" ++ Numeral.ofInt f.owned.number)), f, e)

/-- Reads until there is a pause, and concludes. -/
def advance (f : ReadToEnd) (w : Waker) (e : Environment K) :
    Polled Bytes × ReadToEnd × Environment K :=
  let (pause, pieces, kernel) := drain f.owned.number f.chunk [] e.kernel
  let f := { f with buffer := f.buffer ++ pieces.reverse.flatten }
  f.conclude w { e with kernel } pause

/-- **Polls a future** that is opened in a certain way. -/
def poll (f : ReadToEnd) (opening : Opening K) (w : Waker) (e : Environment K) :
    Polled Bytes × ReadToEnd × Environment K :=
  if f.finished then
    (.error (.misuse .resolvedFutureReused
      (some (Bytes.utf8 "ReadToEndFuture token " ++ f.tokenText))), f, e)
  else
    match f.prepare opening w e with
    | (.error x, f, e) => (.error x, f, e)
    | (.ok (), f, e) => f.advance w e

end ReadToEnd

end TaskRuntime
