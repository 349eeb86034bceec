import TaskRuntime.Executor.Act

/-!
# Futures

A future is a state that can be polled until it results in a value, and that can be destroyed.
Whatever it needs of the world it asks for while it is being polled.

## Combinators

* `Future.ready` results in a value on its first poll.
* `Future.guarded` refuses polls of a future that has already resulted in a value.
* `Future.andThen` polls a first future and hands its value to a continuation. The first future is
  destroyed once the continuation has returned or failed, and no poll gets through after that.

The combinators are given at the level of a single poll, `chainPoll` and `guardPoll`, so that a type
of task bodies can use them for its own constructors.
-/

namespace TaskRuntime

/-- A kind of future: states of type `S` that result in values of type `A`. -/
structure Future (W B V S A : Type) where
  /-- Polls with a waker: how it went, and the next state. -/
  poll : S → Waker → Act W B V (Polled A × S)
  /-- What destroying does to the world. -/
  drop : S → W → W

namespace Future

variable {W B V S A C : Type}

/-! ### Single polls -/

/-- Goes on after a poll of the first future. -/
def chainRest (drop : S → W → W) (g : A → Act W B V (Except Failure C)) :
    Polled A × S → Act W B V (Polled C × Option S)
  | (.error e, s) => .done (.error e, some s)
  | (.ok .pending, s) => .done (.ok .pending, some s)
  | (.ok (.ready a), s) =>
    (g a).bind fun r ↦
      (Act.change (drop s)).bind fun () ↦ .done (r.map Progress.ready, none)

/-- A poll of a chain whose first future is still there. -/
def chainPoll (first : Act W B V (Polled A × S)) (drop : S → W → W)
    (g : A → Act W B V (Except Failure C)) : Act W B V (Polled C × Option S) :=
  first.bind (chainRest drop g)

/-- Whether a poll has resulted in a value. -/
def isReady : Polled A → Bool
  | .ok (.ready _) => true
  | _ => false

/-- A poll of a guarded future that has not resulted in a value: notes whether it now has. -/
def guardPoll (inner : Act W B V (Polled A × S)) : Act W B V (Polled A × S × Bool) :=
  inner.bind fun (r, s) ↦ .done (r, s, isReady r)

/-! ### Combinators -/

/-- Results in a stored value. -/
def ready : Future W B V (Option A) A where
  poll
    | some a, _ => .done (.ok (.ready a), none)
    | none, _ => .done (.error (.reused "ReadyFuture"), none)
  drop _ w := w

/-- Refuses polls after the future has resulted in a value. -/
def guarded (f : Future W B V S A) : Future W B V (S × Bool) A where
  poll
    | (s, true), _ => .done (.error (.reused "FnFuture"), s, true)
    | (s, false), w => guardPoll (f.poll s w)
  drop s := f.drop s.1

/-- **One after the other.** -/
def andThen (f : Future W B V S A) (g : A → Act W B V (Except Failure C)) :
    Future W B V (Option S) C where
  poll
    | none, _ => .done (.error (.reused "Then"), none)
    | some s, w => chainPoll (f.poll s w) f.drop g
  drop
    | none, w => w
    | some s, w => f.drop s w

end Future

end TaskRuntime
