/-!
# Parkers

Each thread has a parker, on which it sleeps until it is notified. A notification that comes while
the thread is awake leaves a token behind, and the next attempt to sleep takes the token and goes on
at once. Tokens do not add up: there is one or none.
-/

namespace TaskRuntime

/-- The number of a thread. -/
abbrev ThreadId := Nat

/-- What a thread sleeps on. -/
structure Parker where
  /-- The thread that made it. -/
  owner : ThreadId
  /-- Whether a notification is waiting to be taken. -/
  token : Bool := false
  deriving DecidableEq, Repr, Inhabited

namespace Parker

/-- Notifies the sleeper, now or when it next tries to sleep. -/
def unpark (p : Parker) : Parker := { p with token := true }

/-- Takes the token and goes on; nothing as long as the sleeper has to wait for one. -/
def park? (p : Parker) : Option Parker := if p.token then some { p with token := false } else none

/-- Waits for a limited time in which nobody notifies: says whether there was a token, and takes it.
-/
def parkFor (p : Parker) : Bool × Parker := (p.token, { p with token := false })

@[simp] theorem unpark_token (p : Parker) : p.unpark.token = true := rfl

@[simp] theorem unpark_unpark (p : Parker) : p.unpark.unpark = p.unpark := rfl

/-- Sleeping goes on at once exactly when there is a token. -/
theorem park?_isSome (p : Parker) : p.park?.isSome = p.token := by
  unfold park?
  split <;> simp_all

end Parker

end TaskRuntime
