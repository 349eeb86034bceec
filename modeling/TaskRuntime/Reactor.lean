import TaskRuntime.Config.Settings
import TaskRuntime.Kernel.Poller
import TaskRuntime.Wake

/-!
# The reactor

The reactor owns a poller and a loop on a thread of its own. Futures that wait for a descriptor
register it under a token and leave a waker for that token; when the poller reports an event, the
loop wakes the waker that was left last.

## The loop

`Reactor.turn` is one round of the loop: wait, and dispatch each event in order. The loop goes on as
long as the reactor is marked as running; `stop` takes the mark away and writes to the notifier, a
descriptor that is registered under the reserved token, so that the wait returns. An interrupted
wait is repeated. Any other failure to wait ends the loop: the reason is recorded, everyone whose
waker is stored is woken, and from then on nobody can register or leave a waker.
-/

namespace TaskRuntime

/-- The reactor. -/
structure Reactor where
  /-- The poller. -/
  poller : Descriptor := -1
  /-- The notifier. -/
  notifier : Descriptor := -1
  /-- How many events the loop fetches at once. -/
  capacity : Nat := 1
  /-- The next token. -/
  nextToken : Token := 1
  /-- Whether the loop was ever started. -/
  started : Bool := false
  /-- Whether the loop is to go on. -/
  running : Bool := false
  /-- The wakers, by token. -/
  wakers : Table Token Waker := .empty
  /-- Why the loop has died, if it has. -/
  failure : Option Bytes := none
  /-- The buffer of the loop. -/
  buffer : EventBuffer := {}
  deriving Inhabited

namespace Reactor

/-- The first token that is issued. -/
def firstToken : Token := 1

/-- The token of the notifier. -/
def notifyToken : Token := 0xFFFFFFFFFFFFFFFF

/-- The tag of the loop's thread. -/
def loopTag : Bytes := Bytes.utf8 "reactor"

/-- Issues a token. -/
def issue (r : Reactor) : Token × Reactor := (r.nextToken, { r with nextToken := r.nextToken + 1 })

variable {K : Type} [Kernel K]

/-! ### Creation -/

/-- Makes a reactor that fetches about so many events at once. -/
def create (requested : Nat) (s : System K) : Except Failure Reactor × System K :=
  match Poller.create s with
  | (.error e, s) => (.error e, s)
  | (.ok poller, s) =>
    match s.call Kernel.createNotifier with
    | (.error e, s) => (.error (.os e (Bytes.utf8 "eventfd")), s.release .poller ⟨poller⟩)
    | (.ok notifier, s) =>
      match Poller.register s poller notifier notifyToken Interests.readable with
      | (.error e, s) =>
        (.error e, (s.call (Kernel.close · notifier)).2.release .poller ⟨poller⟩)
      | (.ok (), s) => (.ok { poller, notifier, capacity := Config.clampCapacity requested }, s)

/-- A reactor is made with a poller, a notifier and a capacity, and is otherwise blank. -/
theorem exists_of_create {requested : Nat} {s s' : System K} {r : Reactor}
    (h : create requested s = (.ok r, s')) : ∃ poller notifier,
      r = { poller, notifier, capacity := Config.clampCapacity requested } := by
  unfold create at h
  split at h
  · cases h
  · split at h
    · cases h
    · split at h
      · cases h
      · obtain ⟨hr, -⟩ := Prod.mk.inj h
        exact ⟨_, _, (Except.ok.inj hr).symm⟩

/-! ### Wakers and sources -/

/-- Refuses once the loop has died. -/
def check (r : Reactor) : Except Failure Unit :=
  match r.failure with
  | none => .ok ()
  | some reason => .error (.misuse .reactorFailed (some reason))

/-- Registers a source under a token. -/
def register (r : Reactor) (s : System K) (source : Descriptor) (interests : Interests)
    (token : Token) : Except Failure Unit × System K :=
  match r.check with
  | .error e => (.error e, s)
  | .ok () => Poller.register s r.poller source token interests

/-- Leaves a waker for a token, in place of the one that was left before. -/
def setWaker (r : Reactor) (token : Token) (w : Waker) : Except Failure Unit × Reactor :=
  match r.check with
  | .error e => (.error e, r)
  | .ok () => (.ok (), { r with wakers := r.wakers.insert token w })

/-- Drops the waker of a token, and then takes the source out of the poller. -/
def deregister (r : Reactor) (s : System K) (source : Descriptor) (token : Token) :
    Except Failure Unit × Reactor × System K :=
  let (result, s) := Poller.deregister s r.poller source
  (result, { r with wakers := r.wakers.erase token }, s)

/-! ### The loop -/

/-- Launches the loop, for the first and only time. -/
def start (r : Reactor) (s : System K) : Except Failure Unit × Reactor × System K :=
  if r.started then (.error (.misuse .alreadyRunning none), r, s)
  else
    (.ok (), { r with started := true, running := true, buffer := ⟨r.capacity, []⟩ },
      s.note .info
        (Bytes.utf8 "Reactor: Started (event capacity " ++ Numeral.ofNat r.capacity ++
          Bytes.utf8 ")"))

/-- Logs a message of the loop's thread. -/
def noteLoop (s : System K) (level : Log.Level) (message : Bytes) : System K :=
  { s with log := s.log.note loopTag level message }

/-- Reads the notifier until there is nothing left. -/
def drainNotifier (notifier : Descriptor) (k : K) : K :=
  match _read : Kernel.read k notifier 8 with
  | (.ok (_ :: _), k') => drainNotifier notifier k'
  | (_, k') => k'
termination_by Kernel.patience k
decreasing_by exact Kernel.read_data _read

/-- **Dispatches an event**: the waker to wake, if one is stored for its token. -/
def dispatch (r : Reactor) (s : System K) (e : Event) : Option Waker × System K :=
  if e.token = notifyToken then
    (none, { s with kernel := drainNotifier r.notifier s.kernel })
  else
    let token := Numeral.ofNat e.token.toNat
    match r.wakers.get? e.token with
    | none =>
      (none, noteLoop s .debug
        (Bytes.utf8 "Reactor: no waker for token " ++ token ++ Bytes.utf8 ", skipping"))
    | some w =>
      (some w, noteLoop s .debug
        (Bytes.utf8 "Reactor: waking task " ++ Numeral.ofNat w.id.toNat ++
          Bytes.utf8 " for token " ++ token))

/-- Dispatches events in order: the wakers to wake. -/
def dispatchAll (r : Reactor) : List Event → System K → List Waker × System K
  | [], s => ([], s)
  | e :: rest, s =>
    let (w, s) := r.dispatch s e
    let (ws, s) := r.dispatchAll rest s
    (w.toList ++ ws, s)

/-- Ends the loop for a reason: everyone whose waker is stored is to be woken. -/
def fail (r : Reactor) (s : System K) (reason : Bytes) : List Waker × Reactor × System K :=
  (r.wakers.values, { r with failure := some reason, running := false },
    noteLoop s .error (Bytes.utf8 "Reactor: event loop failed: " ++ reason))

/-- **One round of the loop**: the wakers to wake, in order. -/
def turn (r : Reactor) (s : System K) : List Waker × Reactor × System K :=
  match Poller.wait s r.poller r.buffer none with
  | (.ok (), buffer, s) =>
    let (ws, s) := r.dispatchAll buffer.events s
    (ws, { r with buffer }, s)
  | (.error e, buffer, s) =>
    let r := { r with buffer }
    match e with
    | .os errno _ => if errno.isInterrupted then ([], r, s) else r.fail s e.message
    | _ => r.fail s e.message

/-- So many rounds of the loop, as long as it runs. -/
def turns : Nat → Reactor → System K → List Waker × Reactor × System K
  | 0, r, s => ([], r, s)
  | n + 1, r, s =>
    if r.running then
      let (ws, r, s) := r.turn s
      let (more, r, s) := turns n r s
      (ws ++ more, r, s)
    else ([], r, s)

/-! ### The end -/

/-- Writes to the notifier. -/
def notify (r : Reactor) (s : System K) : System K :=
  match s.call (Kernel.write · r.notifier [1, 0, 0, 0, 0, 0, 0, 0]) with
  | (.ok _, s) => s
  | (.error e, s) => s.note .error (Bytes.utf8 "Reactor: notify failed: " ++ e.text)

/-- Stops the loop and waits for its end, which comes after the round that the notifier begins. A
reactor that does not run is left alone. -/
def stop (r : Reactor) (s : System K) : List Waker × Reactor × System K :=
  if r.running then
    let s := r.notify s
    let (ws, r, s) := r.turn s
    (ws, { r with running := false }, s.note .info (Bytes.utf8 "Reactor: Stopped"))
  else ([], r, s)

/-- Stops the loop, and closes notifier and poller. -/
def destroy (r : Reactor) (s : System K) : List Waker × System K :=
  let (ws, r, s) := r.stop s
  match s.call (Kernel.close · r.notifier) with
  | (.ok (), s) => (ws, s.release .poller ⟨r.poller⟩)
  | (.error e, s) =>
    (ws, (s.note .error
      (Bytes.utf8 "Reactor: error closing notify descriptor: " ++ e.text)).release
        .poller ⟨r.poller⟩)

end Reactor

end TaskRuntime
