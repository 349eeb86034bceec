import TaskRuntime.Net.Get

/-!
# What the demo does

The demo's main task spawns one request after the other on the executor of its thread. Request `i`
of `k` asks the delay server for a delay of `k - i` units; its answer is logged.

Delays are 32-bit numbers: the product wraps around where it leaves their range.
-/

namespace TaskRuntime

namespace Demo

/-- How far a request has come. -/
inductive FetchState
  /-- Not polled yet. -/
  | start
  /-- Waiting for the answer. -/
  | waiting (g : Get)
  /-- The answer has been logged. -/
  | resolved
  deriving Inhabited

/-- A request of the demo. -/
structure Fetch where
  /-- The number of the request. -/
  index : Int
  /-- The delay it asks for, in milliseconds. -/
  delay : Int
  /-- How far it has come. -/
  state : FetchState := .start
  deriving Inhabited

namespace Fetch

/-- The path of a request. -/
def path (f : Fetch) : Bytes :=
  Bytes.utf8 "/" ++ Numeral.ofInt f.delay ++ Bytes.utf8 "/HelloAsyncAwait" ++ Numeral.ofInt f.index

variable {K : Type} [Kernel K]

/-- Polls the request for its answer, and logs the answer. -/
def await (f : Fetch) (g : Get) (w : Waker) (e : Environment K) :
    Polled Unit × Fetch × Environment K :=
  match g.poll w e with
  | (.error x, g, e) => (.error x, { f with state := .waiting g }, e)
  | (.ok .pending, g, e) => (.ok .pending, { f with state := .waiting g }, e)
  | (.ok (.ready text), g, e) =>
    let e := e.note .info
      (Bytes.utf8 "Response " ++ Numeral.ofInt f.index ++ Bytes.utf8 ":\n" ++ text)
    (.ok (.ready ()), { f with state := .resolved }, g.drop e)

/-- Polls a request; the first poll makes it. -/
def poll (f : Fetch) (w : Waker) (e : Environment K) : Polled Unit × Fetch × Environment K :=
  match f.state with
  | .start =>
    let (g, e) := Get.createConfigured f.path e
    f.await g w e
  | .waiting g => f.await g w e
  | .resolved => (.error (.reused "RequestFuture"), f, e)

/-- Destroys a request. -/
def drop (f : Fetch) (e : Environment K) : Environment K :=
  match f.state with
  | .waiting g => g.drop e
  | _ => e

end Fetch

/-- The main task of the demo. -/
structure FanOut where
  /-- How many requests to spawn. -/
  requests : Int
  /-- The unit of their delays. -/
  delay : Int
  /-- Whether they have been spawned. -/
  resolved : Bool := false
  deriving Repr, Inhabited

namespace FanOut

/-- A request of the main task. -/
def fetch (m : FanOut) (i : Int) : Fetch where
  index := i
  delay := Numeral.wrap32 ((m.requests - i) * m.delay)

/-- The requests of the main task, in the order in which they are spawned. -/
def fetches (m : FanOut) : List Fetch :=
  (List.range m.requests.toNat).map fun (i : Nat) ↦ m.fetch i

end FanOut

end Demo

end TaskRuntime
