import TaskRuntime.Demo.Fetch
import TaskRuntime.Task.Value

/-!
# Tasks

The bodies that executors run: futures that are ready, that play a script, that read, that send
requests, and chains of them.

## Scripts

A script says for each poll what to do and how to end. The last entry holds for all polls from then
on, and a script without entries is ready at once. `Script` counts its polls; a script by itself may
be polled for ever, and `Task.guarded` is a script that refuses polls after it has resulted in its
value.
-/

namespace TaskRuntime

/-- How a scripted poll ends. -/
inductive Ending
  /-- Not finished. -/
  | pending
  /-- Finished, with the value of the script. -/
  | ready
  /-- With a failure. -/
  | throws (e : Failure)
  deriving Repr

mutual

/-- The body of a task. -/
inductive Task
  /-- Results in a value; nothing is left after the first poll. -/
  | ready (v : Option Value)
  /-- Plays a script. -/
  | script (s : Script)
  /-- Plays a script, until it has resulted in its value. -/
  | guarded (s : Script) (resolved : Bool)
  /-- Polls a first future, and goes on with its value. -/
  | chain (first : Task) (k : Continuation)
  /-- A chain whose first future is gone. -/
  | consumed
  /-- Reads a descriptor to its end. -/
  | read (f : ReadToEnd)
  /-- Sends a request and reads the answer. -/
  | get (g : Get)
  /-- A request of the demo. -/
  | fetch (f : Demo.Fetch)
  /-- The main task of the demo. -/
  | fanOut (m : Demo.FanOut)

/-- A script. -/
inductive Script
  /-- A script has a name, a value, an entry per poll, and knows how often it has been polled. -/
  | mk (name : Bytes) (value : Value) (entries : List Entry) (polls : Nat)

/-- What to do on one poll. -/
inductive Entry
  /-- Some actions, and an ending. -/
  | mk (actions : List Action) (ending : Ending)

/-- What a script does while it is being polled. -/
inductive Action
  /-- Shows a text on the stage. -/
  | log (text : Bytes)
  /-- Wakes its own task. -/
  | wake
  /-- Puts its own waker into a slot. -/
  | save (slot : Bytes)
  /-- Wakes through the waker of a slot. -/
  | fire (slot : Bytes)
  /-- Empties a slot. -/
  | clear (slot : Bytes)
  /-- Notifies its own thread. -/
  | unpark
  /-- Shows whether its own waker and that of a slot wake the same task. -/
  | willWake (slot : Bytes)
  /-- Spawns a task. -/
  | spawn (t : Task)
  /-- Runs a task to completion. -/
  | blockOn (t : Task)
  /-- Shows what the executor tells about itself. -/
  | figures

end

instance : Inhabited Task := ⟨.consumed⟩

instance : Inhabited Script := ⟨.mk [] .unit [] 0⟩

instance : Inhabited Entry := ⟨.mk [] .ready⟩

instance : Inhabited Action := ⟨.unpark⟩

namespace Script

/-- The name of a script. -/
def name : Script → Bytes
  | mk name _ _ _ => name

/-- The value of a script. -/
def value : Script → Value
  | mk _ value _ _ => value

/-- How often a script has been polled. -/
def polls : Script → Nat
  | mk _ _ _ polls => polls

/-- The script after one more poll. -/
def polled : Script → Script
  | mk name value entries polls => mk name value entries (polls + 1)

/-- The entry for the next poll. -/
def entry : Script → Entry
  | mk _ _ entries polls => entries.getD (min polls (entries.length - 1)) (.mk [] .ready)

end Script

namespace Entry

/-- The actions of an entry. -/
def actions : Entry → List Action
  | mk actions _ => actions

/-- The ending of an entry. -/
def ending : Entry → Ending
  | mk _ ending => ending

end Entry

end TaskRuntime
