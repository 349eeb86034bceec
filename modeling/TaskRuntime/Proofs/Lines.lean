import TaskRuntime.Kernel.Sending

/-!
# Connections

What a kernel has to tell about a connection between a client and a server. In each direction bytes
are on their way in order (`Flow`): none is lost, doubled or changed, a send puts some at the end
and a read takes some from the front. How many a call takes is up to the kernel, and a call may
always be interrupted, or find that it would have to wait.

`LineRule` states this as laws of the calls. Two further ones say that nothing stays on its way
forever: what has been sent can arrive (`LineRule.delivers`), and where nothing is in the way there
comes to be room (`LineRule.takes`).
-/

namespace TaskRuntime

/-- The ends of a connection. -/
inductive Side
  /-- The end that has connected. -/
  | client
  /-- The end that has been accepted. -/
  | server

/-- The opposite end. -/
def Side.other : Side → Side
  | client => server
  | server => client

/-- The descriptors of a connection. -/
structure Line where
  /-- That of the client. -/
  client : Descriptor
  /-- That of the server. -/
  server : Descriptor
  /-- The poller of the client. -/
  poller : Descriptor
  deriving DecidableEq

/-- The descriptor of an end. -/
def Line.at (l : Line) : Side → Descriptor
  | .client => l.client
  | .server => l.server

/-- Bytes on their way in one direction. -/
structure Flow where
  /-- What has been sent and not been read. -/
  content : Bytes := []
  /-- Whether nothing more will be sent. -/
  closed : Bool := false

/-- What is on its way between two ends. -/
structure Traffic where
  /-- What the client is going to read. -/
  toClient : Flow := {}
  /-- What the server is going to read. -/
  toServer : Flow := {}
  /-- Whether the client's end is registered with the poller. -/
  watched : Bool := false

namespace Traffic

/-- What an end is going to read. -/
def toward (t : Traffic) : Side → Flow
  | .client => t.toClient
  | .server => t.toServer

/-- Changes what an end is going to read. -/
def put (t : Traffic) (f : Flow) : Side → Traffic
  | .client => { t with toClient := f }
  | .server => { t with toServer := f }

/-- Whether both ends are open. -/
structure Open (t : Traffic) : Prop where
  /-- The server is. -/
  toClient : t.toClient.closed = false
  /-- The client is. -/
  toServer : t.toServer.closed = false

/-- The call could not do anything: it has been interrupted, or would have to wait. -/
def Idle (e : Errno) : Prop := e = .interrupted ∨ e.isWouldBlock = true

/-- **What a read at an end can come to.** -/
inductive Reads (t : Traffic) (s : Side) : Except Errno Bytes → Traffic → Prop
  /-- The end: everything has been read, and nothing more will be sent. -/
  | ended (hn : (t.toward s).content = []) (hc : (t.toward s).closed = true) :
    Reads t s (.ok []) t
  /-- The next bytes. -/
  | piece {b : UInt8} {bs rest : Bytes} (h : (t.toward s).content = b :: bs ++ rest) :
    Reads t s (.ok (b :: bs)) (t.put { t.toward s with content := rest } s)
  /-- Nothing. -/
  | idle {e : Errno} (h : Idle e) : Reads t s (.error e) t

/-- **What a send at an end can come to.** -/
inductive Sends (t : Traffic) (s : Side) (text : Bytes) : Except Errno Nat → Traffic → Prop
  /-- Some bytes are on their way. -/
  | taken (n : Nat) : Sends t s text (.ok n)
      (t.put { t.toward s.other with content := (t.toward s.other).content ++ text.take n } s.other)
  /-- Nothing. -/
  | idle {e : Errno} (h : Idle e) : Sends t s text (.error e) t

end Traffic

/-- **What holds of connections in a kernel.** -/
structure LineRule (K : Type) [Kernel K] where
  /-- What is on its way on a line, if there is a connection. -/
  traffic : K → Line → Option Traffic
  /-- A read at an end. -/
  read : ∀ {k k' : K} {l : Line} {t : Traffic} (s : Side) {n : Nat} {r : Except Errno Bytes},
    traffic k l = some t → 0 < n → Kernel.read k (l.at s) n = (r, k') →
    ∃ t', t.Reads s r t' ∧ traffic k' l = some t'
  /-- A send at an end, while both are open. -/
  send : ∀ {k k' : K} {l : Line} {t : Traffic} (s : Side) {text : Bytes} {r : Except Errno Nat},
    traffic k l = some t → t.Open → text ≠ [] → Kernel.send k (l.at s) text = (r, k') →
    ∃ t', t.Sends s text r t' ∧ traffic k' l = some t'
  /-- The server closes, having read everything: what it has sent can still be read. -/
  close : ∀ {k : K} {l : Line} {t : Traffic}, traffic k l = some t → t.toServer.content = [] →
    traffic (Kernel.close k l.server).2 l =
      some { t with toClient := { t.toClient with closed := true } }
  /-- Whether an end is in non-blocking mode can be found out. -/
  isNonblocking : ∀ {k : K} {l : Line} {t : Traffic}, traffic k l = some t →
    ∃ b k', Kernel.isNonblocking k l.client = (.ok b, k') ∧ traffic k' l = some t
  /-- An end can be put into non-blocking mode. -/
  setNonblocking : ∀ {k : K} {l : Line} {t : Traffic}, traffic k l = some t →
    ∃ k', Kernel.setNonblocking k l.client = (.ok (), k') ∧ traffic k' l = some t
  /-- The client's end can be registered, unless it is. -/
  add : ∀ {k : K} {l : Line} {t : Traffic} (e : Event), traffic k l = some t → t.watched = false →
    ∃ k', Kernel.add k l.poller l.client e = (.ok (), k') ∧
      traffic k' l = some { t with watched := true }
  /-- It can be taken out again. -/
  remove : ∀ {k : K} {l : Line} {t : Traffic}, traffic k l = some t → t.watched = true →
    ∃ k', Kernel.remove k l.poller l.client = (.ok (), k') ∧
      traffic k' l = some { t with watched := false }
  /-- What is on its way can arrive, and so can the end. -/
  delivers : ∀ {k : K} {l : Line} {t : Traffic} (s : Side) {n : Nat}, traffic k l = some t → 0 < n →
    ((t.toward s).content ≠ [] ∨ (t.toward s).closed = true) →
    ∃ k', traffic k' l = some t ∧ ∃ bs k'', Kernel.read k' (l.at s) n = (.ok bs, k'')
  /-- If nothing is on its way, there can come to be room. -/
  takes : ∀ {k : K} {l : Line} {t : Traffic} (s : Side) {text : Bytes}, traffic k l = some t →
    t.Open → (t.toward s.other).content = [] → text ≠ [] →
    ∃ k', traffic k' l = some t ∧ ∃ n k'', Kernel.send k' (l.at s) text = (.ok n, k'')

end TaskRuntime
