import TaskRuntime.Kernel.Sending
import TaskRuntime.Net.ReadToEnd
import TaskRuntime.Net.Request

/-!
# GET requests

A future that connects to a server, sends a GET request and reads the answer to its end. Connecting
and sending happen on the first poll and block the thread; reading does not.

## Addresses

A host and a port stand for several addresses, which are tried in order until one accepts. The
socket of a failed attempt is closed before the next one is opened. When all fail, the last reason
is reported.
-/

namespace TaskRuntime

/-- A future for the answer to a GET request. -/
structure Get where
  /-- The future that reads the answer. -/
  answer : ReadToEnd
  /-- The host. -/
  host : Bytes
  /-- The port. -/
  port : Int
  /-- The path. -/
  path : Bytes
  deriving Inhabited

namespace Get

variable {K : Type} [Kernel K]

/-! ### Connecting and sending -/

/-- Connects a socket; an interrupted attempt is repeated. -/
def connect (d : Descriptor) (a : Address) (k : K) : Except Errno Unit × K :=
  match _connect : Kernel.connect k d a with
  | (.ok (), k') => (.ok (), k')
  | (.error e, k') => if _again : e = .interrupted then connect d a k' else (.error e, k')
termination_by Kernel.patience k
decreasing_by exact Kernel.connect_interrupted (_again ▸ _connect)

/-- Tries addresses in order: a connected socket, or the reason why the last attempt failed. -/
def connectAny (last : Errno) : List Address → System K → Except Errno Owned × System K
  | [], s => (.error last, s)
  | a :: rest, s =>
    match s.call (Kernel.socket · a) with
    | (.error e, s) => connectAny e rest s
    | (.ok d, s) =>
      match s.call (connect d a) with
      | (.ok (), s) => (.ok ⟨d⟩, s)
      | (.error e, s) => connectAny e rest (s.release .file ⟨d⟩)

/-- Opens a connection to a host and a port. -/
def openConnection (host : Bytes) (port : Int) (s : System K) : Except Failure Owned × System K :=
  match s.call (Kernel.resolve · (Bytes.upToNul host) port) with
  | (.error reason, s) =>
    (.error (.general
      (Bytes.utf8 "getaddrinfo(" ++ host ++ Bytes.utf8 "): " ++ reason)), s)
  | (.ok addresses, s) =>
    match connectAny ⟨0⟩ addresses s with
    | (.ok x, s) => (.ok x, s)
    | (.error e, s) =>
      (.error (.os e
        (Bytes.utf8 "connect " ++ host ++ Bytes.utf8 ":" ++ Numeral.ofInt port)), s)

/-- Connects and sends the request; a connection whose request could not be sent is closed. -/
def opening (host : Bytes) (port : Int) (path : Bytes) : ReadToEnd.Opening K := fun x s ↦
  let s := s.note .debug
    (Bytes.utf8 "HTTP GET " ++ path ++ Bytes.utf8 " -> " ++ host ++ Bytes.utf8 ":" ++
      Numeral.ofInt port)
  match openConnection host port s with
  | (.error e, s) => (.error e, s)
  | (.ok connection, s) =>
    match s.call (Kernel.sendAll connection.number (Http.getRequest path)) with
    | (.error e, s) => (.error (.os e (Bytes.utf8 "send")), s.release .file connection)
    | (.ok (), s) => (.ok connection, s.release .file x)

/-! ### The future -/

/-- A request to a host and a port. -/
def create (host : Bytes) (port : Int) (path : Bytes) (e : Environment K) : Get × Environment K :=
  let (answer, e) := ReadToEnd.create .nothing 0 e
  ({ answer, host, port, path }, e)

/-- A request to the configured host and port. -/
def createConfigured (path : Bytes) (e : Environment K) : Get × Environment K :=
  let (host, e) := e.setting Config.host
  let (port, e) := e.setting Config.port
  create host port path e

/-- **Polls a request.** -/
def poll (g : Get) (w : Waker) (e : Environment K) : Polled Bytes × Get × Environment K :=
  let (result, answer, e) := g.answer.poll (opening g.host g.port g.path) w e
  (result, { g with answer }, e)

/-- Destroys a request. -/
def drop (g : Get) (e : Environment K) : Environment K := g.answer.drop e

end Get

end TaskRuntime
