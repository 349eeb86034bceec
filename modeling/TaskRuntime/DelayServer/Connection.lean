import TaskRuntime.DelayServer.Target
import TaskRuntime.Kernel.Sending
import TaskRuntime.Kernel.System
import TaskRuntime.Net.Request

/-!
# Connections of the delay server

What the delay server does with a connection: it reads the head of the request, waits for as long as
the request asks, and answers with the message of the request.

## Where a head ends

A head is read in pieces until it holds an empty line, until it has reached `headLimit`, or until
nothing more comes. It ends with the piece that brought the end, so more than the head may have been
read. An interrupted read is repeated; any other failure counts as the end.

Waiting takes time and does nothing else, so it does not show here.
-/

namespace TaskRuntime

namespace DelayServer

/-- How many bytes are read at once. -/
def pieceSize : Nat := 1024

/-- A head of this size is read no further. -/
def headLimit : Nat := 16 * 1024

/-- Whether a head is read no further. -/
def isHead (head : Bytes) : Bool := Bytes.hasInfix Http.blankLine head || headLimit ≤ head.length

/-- The answer to a request with a message. -/
def success (message : Bytes) : Bytes :=
  Bytes.utf8 "HTTP/1.1 200 OK" ++ Http.lineEnd ++
    Bytes.utf8 "content-length: " ++ Numeral.ofNat message.length ++ Http.lineEnd ++
    Bytes.utf8 "connection: close" ++ Http.lineEnd ++
    Bytes.utf8 "content-type: text/plain; charset=utf-8" ++ Http.blankLine ++ message

/-- The answer to a request that is refused. -/
def refusal : Bytes :=
  Bytes.utf8 "HTTP/1.1 400 Bad Request" ++ Http.lineEnd ++
    Bytes.utf8 "content-length: 0" ++ Http.lineEnd ++
    Bytes.utf8 "connection: close" ++ Http.blankLine

/-- The delay and the message of a request that is not refused. -/
def Target.accepted? (t : Target) : Option (Int × Bytes) :=
  t.delay.map fun delay ↦ (delay, t.message.getD [])

/-- **The answer to a request head.** -/
def answer (head : Bytes) : Bytes :=
  match (Target.ofHead head).accepted? with
  | some (_, message) => success message
  | none => refusal

variable {K : Type} [Kernel K]

/-- **Reads a head**, of which a part has been read already. -/
def readHead (d : Descriptor) (head : Bytes) (k : K) : Bytes × K :=
  if isHead head then (head, k)
  else
    match _read : Kernel.read k d pieceSize with
    | (.ok [], k') => (head, k')
    | (.ok (b :: bs), k') => readHead d (head ++ b :: bs) k'
    | (.error e, k') =>
      if _again : e = .interrupted then readHead d head k' else (head, k')
termination_by Kernel.patience k
decreasing_by
  · exact Kernel.read_data _read
  · exact Kernel.read_interrupted (_again ▸ _read)

/-- Logs that an answer is delayed. -/
def noteDelay (d : Descriptor) (head : Bytes) (s : System K) : System K :=
  match (Target.ofHead head).accepted? with
  | none => s
  | some (delay, message) =>
    s.note .info
      (Bytes.utf8 "#" ++ Numeral.ofInt d ++ Bytes.utf8 " delaying " ++ Numeral.ofInt delay ++
        Bytes.utf8 "ms: " ++ message)

/-- **Serves a connection**: reads a head, answers it, and closes the connection. -/
def serve (d : Descriptor) (s : System K) : System K :=
  let (head, s) := s.call (readHead d [])
  let s := noteDelay d head s
  let (sent, s) := s.call (Kernel.sendAll d (answer head))
  let s := match sent with
    | .ok () => s
    | .error e => s.note .warning (Bytes.utf8 "send failed: " ++ e.text)
  (s.call (Kernel.close · d)).2

end DelayServer

end TaskRuntime
