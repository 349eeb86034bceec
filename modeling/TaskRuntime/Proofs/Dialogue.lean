import TaskRuntime.Proofs.Lines
import TaskRuntime.Proofs.SlowTalk
import TaskRuntime.Proofs.Texts

/-!
# A request and its answer

A client polls a GET request for a message after a delay, and the delay server serves the connection
that comes about. Both make their calls step by step, in any order, on one kernel, and others may do
whatever leaves the connection and the reactor of the client alone (`Dialogue.Move`). A blocking
call that would have to wait has not returned yet, so its caller makes no step.

At each moment the request is what the server has read of it, what is on its way, and what the
client has not sent yet; and the answer is what the client has read of it, what is on its way, and
what the server has not sent yet (`Dialogue.Talking`). `Dialogue.Sound` adds what holds before there
is a connection, and what the polls have resulted in.

What is left to do is counted in bytes and steps (`Dialogue.left`).
-/

namespace TaskRuntime

/-- A request being polled, and a server that serves it. -/
structure Dialogue (K : Type) where
  /-- The environment of the client, with the kernel of both. -/
  environment : Environment K
  /-- The request. -/
  get : Get
  /-- The waker of the poll in progress, and where the poll is. -/
  poll : Option (Waker × Get.Stage) := none
  /-- The results of the polls that have ended. -/
  past : List (Polled Bytes) := []
  /-- Where the server is with the connection, if there is one. -/
  server : Option DelayServer.Serving := none
  /-- The heads that the server has taken for complete. -/
  heard : List Bytes := []
  /-- The log of the server. -/
  serverLog : Log := {}
  /-- The tag of the server's thread. -/
  serverTag : Bytes := Log.defaultTag

namespace Dialogue

variable {K : Type}

/-- The kernel, as the server sees it. -/
def system (x : Dialogue K) : System K where
  kernel := x.environment.kernel
  log := x.serverLog
  tag := x.serverTag

/-- A poll has resulted in the answer. -/
structure Resolved (x : Dialogue K) : Prop where
  /-- No poll is in progress. -/
  poll : x.poll = none
  /-- The future has been read to its end. -/
  finished : x.get.answer.finished = true

section

variable [Kernel K]

/-- A call would have to wait. -/
def Waits {A : Type} (r : Except Errno A × K) : Prop := ∃ e, r.1 = .error e ∧ e.isWouldBlock = true

/-- The client waits for its next call to return. -/
def Asks (k : K) : Get.Stage → Prop
  | .sending connection rest => rest ≠ [] ∧ Waits (Kernel.send k connection.number rest)
  | _ => False

/-- The server waits for its next call to return. -/
def Listens (d : Descriptor) (k : K) : DelayServer.Serving → Prop
  | .reading head =>
    DelayServer.isHead head = false ∧ Waits (Kernel.read k d DelayServer.pieceSize)
  | .sending rest => rest ≠ [] ∧ Waits (Kernel.send k d rest)
  | _ => False

/-- **One step** of the client, the server, or others. -/
inductive Move (rule : LineRule K) (line : Line) : Dialogue K → Dialogue K → Prop
  /-- Others do something that leaves the connection and the reactor of the client alone. -/
  | others {x} {e : Environment K} (hp : e.reactor.poller = x.environment.reactor.poller)
      (hf : e.reactor.failure = none)
      (ht : rule.traffic e.kernel line = rule.traffic x.environment.kernel line) :
    Move rule line x { x with environment := e }
  /-- A poll begins. -/
  | begin {x} (w : Waker) (hp : x.poll = none) (hf : x.get.answer.finished = false) :
    Move rule line x { x with poll := some (w, (Get.begin x.get.answer).stage) }
  /-- The client connects, and the server accepts the connection. -/
  | connect {x w f e} (hp : x.poll = some (w, .connecting)) (hs : x.server = none)
      (h : Get.Asking.tick x.get w ⟨x.get.answer, .connecting⟩ x.environment =
        (⟨f, .sending ⟨line.client⟩ (Http.getRequest x.get.path)⟩, e))
      (ht : rule.traffic e.kernel line = some {}) :
    Move rule line x { x with
      environment := e
      get := { x.get with answer := f }
      poll := some (w, .sending ⟨line.client⟩ (Http.getRequest x.get.path))
      server := some (.reading []) }
  /-- The client makes another step of its poll. -/
  | ask {x w stage a e} (hp : x.poll = some (w, stage)) (hs : stage ≠ .connecting)
      (hw : ¬Asks x.environment.kernel stage)
      (h : Get.Asking.tick x.get w ⟨x.get.answer, stage⟩ x.environment = (a, e)) :
    Move rule line x { x with
      environment := e
      get := { x.get with answer := a.future }
      poll := some (w, a.stage) }
  /-- The poll ends. -/
  | finish {x w r} (hp : x.poll = some (w, .polling (.complete r))) :
    Move rule line x { x with poll := none, past := x.past ++ [r] }
  /-- The server makes a step. -/
  | serve {x v v' s} (hs : x.server = some v)
      (hw : ¬Listens line.server x.environment.kernel v)
      (h : v.tick line.server x.system = (v', s)) :
    Move rule line x { x with
      environment := { x.environment with kernel := s.kernel }
      server := some v'
      heard := x.heard ++ (match v with | .noting head => [head] | _ => [])
      serverLog := s.log
      serverTag := s.tag }

/-- Any number of steps. -/
inductive Run (rule : LineRule K) (line : Line) (x₀ : Dialogue K) : Dialogue K → Prop
  /-- No step. -/
  | refl : Run rule line x₀ x₀
  /-- One more step. -/
  | step {x x'} (hr : Run rule line x₀ x) (hm : Move rule line x x') : Run rule line x₀ x'

/-- **Nobody has polled the request yet**, for which there is a reactor. -/
structure Fresh (line : Line) (delay : Int) (message : Bytes) (x : Dialogue K) : Prop where
  /-- The request is for the message after the delay. -/
  path : x.get.path = DelayServer.path delay message
  /-- It has not been polled. -/
  started : x.get.answer.started = false
  /-- Nothing has been read. -/
  buffer : x.get.answer.buffer = []
  /-- There is something to poll for. -/
  finished : x.get.answer.finished = false
  /-- There is no descriptor. -/
  owned : x.get.answer.owned = .nothing
  /-- At least one byte is read at once. -/
  chunk : 0 < x.get.answer.chunk
  /-- The reactor has the poller of the line. -/
  poller : x.environment.reactor.poller = line.poller
  /-- The reactor has not failed. -/
  alive : x.environment.reactor.failure = none
  /-- Nobody polls. -/
  poll : x.poll = none
  /-- Nobody has polled. -/
  past : x.past = []
  /-- There is no connection. -/
  server : x.server = none
  /-- The server has not heard anything. -/
  heard : x.heard = []

omit [Kernel K] in
/-- A request that has just been made is fresh, in an environment with a reactor. -/
theorem fresh_create {line : Line} {e : Environment K} (host : Bytes) (port : Int) (delay : Int)
    (message : Bytes) (hp : e.reactor.poller = line.poller) (hf : e.reactor.failure = none) :
    Fresh line delay message
      { environment := (Get.create host port (DelayServer.path delay message) e).2
        get := (Get.create host port (DelayServer.path delay message) e).1 } where
  path := rfl
  started := rfl
  buffer := rfl
  finished := rfl
  owned := rfl
  chunk := by
    show 0 < Config.chunkSize 0 _
    rw [Config.chunkSize, if_neg (Nat.lt_irrefl 0)]
    split
    · assumption
    · decide
  poller := hp
  alive := hf
  poll := rfl
  past := rfl
  server := rfl
  heard := rfl

end

/-! ### What is where -/

/-- What the server has read of a request. -/
def seen (request : Bytes) : DelayServer.Serving → Bytes
  | .reading head => head
  | _ => request

/-- What the server has taken for complete is the request. -/
def Whole (request : Bytes) : DelayServer.Serving → Prop
  | .noting head => head = request
  | _ => True

/-- What the server has not sent of an answer. -/
def unsaid (answer : Bytes) : DelayServer.Serving → Bytes
  | .reading _ => answer
  | .noting _ => answer
  | .sending rest => rest
  | _ => []

/-- What the client has not sent of its request. -/
def unsent : Option (Waker × Get.Stage) → Bytes
  | some (_, .sending _ rest) => rest
  | _ => []

/-- What the client has read of an answer. -/
def received (answer : Bytes) (f : ReadToEnd) : Bytes := if f.finished then answer else f.buffer

/-- Whether the server is done with the connection. -/
def isGone : DelayServer.Serving → Bool
  | .gone => true
  | _ => false

/-- The heads that the server has taken for complete. -/
def noted (request : Bytes) : DelayServer.Serving → List Bytes
  | .reading _ => []
  | .noting _ => []
  | _ => [request]

/-- The future is being prepared: it has nothing yet, but a connection. -/
structure Preparing (line : Line) (f : ReadToEnd) (watched : Bool) : Prop where
  /-- The connection is the future's. -/
  owned : f.owned = ⟨line.client⟩
  /-- The client's end is not registered. -/
  watched : watched = false
  /-- Nothing has been read. -/
  buffer : f.buffer = []
  /-- There is something to poll for. -/
  finished : f.finished = false

/-- The future reads. -/
structure Reading (line : Line) (f : ReadToEnd) (watched : Bool) : Prop where
  /-- The connection is the future's. -/
  owned : f.owned = ⟨line.client⟩
  /-- The client's end is registered. -/
  watched : watched = true
  /-- There is something to poll for. -/
  finished : f.finished = false

/-- **Where the client is**, between its polls and at each moment of a poll; its end is registered
or not. -/
def Client (line : Line) (answer : Bytes) (f : ReadToEnd) (watched : Bool) :
    Option (Waker × Get.Stage) → Prop
  | none => f.finished = true ∨ Reading line f watched
  | some (_, .connecting) => False
  | some (_, .sending connection _) => connection = ⟨line.client⟩ ∧ f.owned = .nothing ∧
      watched = false ∧ f.buffer = [] ∧ f.finished = false
  | some (_, .polling .opening) => False
  | some (_, .polling .unblocking) => Preparing line f watched
  | some (_, .polling .checking) => Preparing line f watched
  | some (_, .polling .adding) => Preparing line f watched
  | some (_, .polling .arming) => Reading line f watched
  | some (_, .polling .reading) => Reading line f watched
  | some (_, .polling .rearming) => Reading line f watched
  | some (_, .polling .forgetting) => Reading line f watched ∧ f.buffer = answer
  | some (_, .polling .removing) => Reading line f watched ∧ f.buffer = answer
  | some (_, .polling (.complete (.ok .pending))) => Reading line f watched
  | some (_, .polling (.complete (.ok (.ready b)))) => f.finished = true ∧ b = answer
  | some (_, .polling (.complete (.error _))) => False

/-- **What holds once there is a connection**: of request and answer, each byte is in one place. -/
structure Talking (line : Line) (request answer : Bytes) (x : Dialogue K)
    (v : DelayServer.Serving) (t : Traffic) : Prop where
  /-- Each byte of the request has been read, is on its way, or has not been sent. -/
  asked : seen request v ++ t.toServer.content ++ unsent x.poll = request
  /-- Each byte of the answer has been read, is on its way, or has not been sent. -/
  told : received answer x.get.answer ++ t.toClient.content ++ unsaid answer v = answer
  /-- A head that is taken for complete is the request. -/
  complete : Whole request v
  /-- The client has not closed. -/
  open_ : t.toServer.closed = false
  /-- The server has closed when it is gone, and not before. -/
  closed : t.toClient.closed = isGone v
  /-- The future has been prepared, or is being prepared. -/
  started : x.get.answer.started = true
  /-- The client is where it is. -/
  client : Client line answer x.get.answer t.watched x.poll
  /-- The server has heard the request, and nothing else. -/
  heard : x.heard = noted request v

/-- What holds as long as there is no connection. -/
structure Silent (x : Dialogue K) : Prop where
  /-- The future has not been prepared. -/
  started : x.get.answer.started = false
  /-- Nothing has been read. -/
  buffer : x.get.answer.buffer = []
  /-- There is something to poll for. -/
  finished : x.get.answer.finished = false
  /-- There is no descriptor. -/
  owned : x.get.answer.owned = .nothing
  /-- Nobody polls, or the poll is about to connect. -/
  poll : x.poll = none ∨ ∃ w, x.poll = some (w, .connecting)
  /-- The server has not heard anything. -/
  heard : x.heard = []

/-- **What holds at each moment.** -/
structure Sound [Kernel K] (rule : LineRule K) (line : Line) (delay : Int) (message : Bytes)
    (x : Dialogue K) : Prop where
  /-- The request is for the message after the delay. -/
  path : x.get.path = DelayServer.path delay message
  /-- At least one byte is read at once. -/
  chunk : 0 < x.get.answer.chunk
  /-- The reactor has the poller of the line. -/
  poller : x.environment.reactor.poller = line.poller
  /-- The reactor has not failed. -/
  alive : x.environment.reactor.failure = none
  /-- Polls are pending, and the last one results in the answer. -/
  past : ∃ n, x.past = List.replicate n (.ok .pending) ++
    (if x.poll = none ∧ x.get.answer.finished = true then
      [.ok (.ready (DelayServer.success message))] else [])
  /-- There is no connection, or both talk. -/
  talk : x.server = none ∧ Silent x ∨ ∃ v t, x.server = some v ∧
    rule.traffic x.environment.kernel line = some t ∧
    Talking line (DelayServer.request delay message) (DelayServer.success message) x v t

/-! ### What is left to do -/

/-- The steps that the server has to make, other than reading and sending. -/
def serverSteps : DelayServer.Serving → Nat
  | .reading _ => 4
  | .noting _ => 3
  | .sending _ => 2
  | .closing => 1
  | .gone => 0

/-- The steps that the client has to make, other than sending and reading, and than polling
again. -/
def clientSteps (f : ReadToEnd) : Option (Waker × Get.Stage) → Nat
  | none => if f.finished then 0 else 6
  | some (_, .connecting) => 12
  | some (_, .sending _ _) => 11
  | some (_, .polling .opening) => 12
  | some (_, .polling .unblocking) => 10
  | some (_, .polling .checking) => 9
  | some (_, .polling .adding) => 8
  | some (_, .polling .arming) => 7
  | some (_, .polling .reading) => 6
  | some (_, .polling .rearming) => 6
  | some (_, .polling .forgetting) => 3
  | some (_, .polling .removing) => 2
  | some (_, .polling (.complete (.ok .pending))) => 6
  | some (_, .polling (.complete _)) => 1

/-- **What is left to do**, in bytes and steps. A byte that has not been sent counts twice, since it
has to be sent and to be read. -/
def left (answer : Bytes) (x : Dialogue K) (v : DelayServer.Serving) (t : Traffic) : Nat :=
  2 * (unsent x.poll).length + t.toServer.content.length + 2 * (unsaid answer v).length +
    t.toClient.content.length + serverSteps v + clientSteps x.get.answer x.poll

end Dialogue

end TaskRuntime
