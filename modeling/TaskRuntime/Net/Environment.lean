import TaskRuntime.Reactor

/-!
# What leaf futures reach

A leaf future waits for something outside the executor. It reaches the system, the configuration and
the reactor; together they are its environment.
-/

namespace TaskRuntime

/-- System, configuration and reactor. -/
structure Environment (K : Type) extends System K where
  /-- The configuration. -/
  config : Config := {}
  /-- The reactor. Until one is made, an inert one stands in. -/
  reactor : Reactor := {}

namespace Environment

variable {K : Type} [Kernel K]

/-- Changes the system. -/
def onSystem {A : Type} (e : Environment K) (f : System K → A × System K) :
    A × Environment K :=
  let (a, s) := f e.toSystem
  (a, { e with toSystem := s })

/-- Logs a message of the running thread. -/
def note (e : Environment K) (level : Log.Level) (message : Bytes) : Environment K :=
  { e with toSystem := e.toSystem.note level message }

/-- Reads a setting, and logs the warning that is due. -/
def setting {A : Type} (e : Environment K) (f : Config → Config.Reading A) : A × Environment K :=
  let r := f e.config
  (r.value, { e with log := r.warn e.tag e.log })

/-- Registers a source with the reactor. -/
def register (e : Environment K) (source : Descriptor) (interests : Interests) (token : Token) :
    Except Failure Unit × Environment K :=
  e.onSystem fun s ↦ e.reactor.register s source interests token

/-- Leaves a waker with the reactor. -/
def setWaker (e : Environment K) (token : Token) (w : Waker) :
    Except Failure Unit × Environment K :=
  let (result, reactor) := e.reactor.setWaker token w
  (result, { e with reactor })

/-- Takes a source and its waker out of the reactor. -/
def deregister (e : Environment K) (source : Descriptor) (token : Token) :
    Except Failure Unit × Environment K :=
  let (result, reactor, s) := e.reactor.deregister e.toSystem source token
  (result, { e with toSystem := s, reactor })

/-- Gets a token from the reactor. -/
def issueToken (e : Environment K) : Token × Environment K :=
  let (token, reactor) := e.reactor.issue
  (token, { e with reactor })

/-- Lets the reactor's loop make some rounds: the wakers to wake. -/
def turns (e : Environment K) (n : Nat) : List Waker × Environment K :=
  let (ws, reactor, s) := Reactor.turns n e.reactor e.toSystem
  (ws, { e with toSystem := s, reactor })

end Environment

end TaskRuntime
