import TaskRuntime.Kernel
import TaskRuntime.Table

/-!
# A host

The kernel that programs run on: descriptors, the pipes, files, notifiers and pollers behind them,
and the rules by which pollers report. There is no network: every attempt to connect finds it
unreachable, and a connection is there only where a peer is set up with it.

## Streams

All that can be read is a stream: a pipe, a regular file, or a notifier, whose content is one byte
for every notification that nobody has taken yet. A pipe has two ends, and reads as finished when it
is empty and nobody can write any more.

## How pollers report

A poller keeps its interests in the order of registration, and the queue of those that may have
something to report. An interest enters the queue when it is registered on a source that is ready,
and whenever its source changes in a way that it asks for; the end of the other side of a pipe
concerns every interest. Waiting goes through the queue from its head: entries whose source turns
out to have nothing to report are dropped, the others are reported, and those that are not
registered for changes alone go back to the tail.
-/

namespace TaskRuntime

namespace Host

/-- What is behind a descriptor. -/
inductive Source
  /-- The end of a pipe from which it is read. -/
  | readEnd (stream : Nat)
  /-- The end of a pipe into which it is written. -/
  | writeEnd (stream : Nat)
  /-- A notifier. -/
  | notifier (stream : Nat)
  /-- A regular file. -/
  | file (stream : Nat)
  /-- A poller. -/
  | poller (index : Nat)
  /-- A socket that is not connected. -/
  | socket
  /-- A connected socket: what arrives, and what is sent. -/
  | connection (incoming outgoing : Nat)
  /-- Something that is none of these. -/
  | other
  deriving DecidableEq, Repr, Inhabited

/-- An open descriptor. -/
structure OpenFile where
  /-- What is behind it. -/
  source : Source
  /-- Whether it is in non-blocking mode. -/
  nonblocking : Bool := false
  deriving Repr, Inhabited

/-- Bytes on their way. -/
structure Stream where
  /-- What has not been read yet. -/
  content : Bytes := []
  /-- Whether it can still be read. -/
  reader : Bool := true
  /-- Whether it can still be written. -/
  writer : Bool := true
  deriving Repr, Inhabited

/-- A registration with a poller. -/
structure Interest where
  /-- The descriptor. -/
  descriptor : Descriptor
  /-- What to report, and under which token. -/
  event : Event
  deriving Repr, Inhabited

/-- What a poller keeps. -/
structure Poller where
  /-- The registrations. -/
  interests : List Interest := []
  /-- The descriptors that may have something to report. -/
  queue : List Descriptor := []
  deriving Repr, Inhabited

end Host

/-- The state of a host. -/
structure Host where
  /-- The open descriptors. -/
  files : Table Descriptor Host.OpenFile := .empty
  /-- The next descriptor. -/
  nextDescriptor : Nat := 100
  /-- All streams. -/
  streams : List Host.Stream := []
  /-- All pollers. -/
  pollers : List Host.Poller := []
  /-- How many more descriptors can be opened, if that is limited. -/
  slack : Option Nat := none
  /-- Whether signals keep arriving. -/
  signalled : Bool := false
  deriving Inhabited

namespace Host

/-! ### Descriptors and streams -/

/-- Opens a descriptor on a source, if another one can be opened. -/
def openSource (h : Host) (source : Source) (nonblocking : Bool) : Except Errno Descriptor × Host :=
  match h.slack with
  | some 0 => (.error .tooManyFiles, h)
  | slack =>
    let d : Descriptor := h.nextDescriptor
    (.ok d,
      { h with
        files := h.files.insert d { source, nonblocking }
        nextDescriptor := h.nextDescriptor + 1
        slack := slack.map (· - 1) })

/-- The source behind a descriptor. -/
def source? (h : Host) (d : Descriptor) : Option Source := (h.files.get? d).map (·.source)

/-- A stream. -/
def stream (h : Host) (i : Nat) : Stream := h.streams.getD i default

/-- Replaces a stream. -/
def setStream (h : Host) (i : Nat) (s : Stream) : Host := { h with streams := h.streams.set i s }

/-- A new stream. -/
def newStream (h : Host) (s : Stream) : Nat × Host :=
  (h.streams.length, { h with streams := h.streams ++ [s] })

/-- How many bytes there are to read in some streams. -/
def unreadIn : List Stream → Nat
  | [] => 0
  | s :: rest => s.content.length + unreadIn rest

/-- How many bytes there are to read. -/
def unread (h : Host) : Nat := unreadIn h.streams

/-! ### Readiness -/

/-- Normal data to read, beside `Interests.readable`. -/
def normalData : Interests := 0x40

/-- Room for normal data, beside `Interests.writable`. -/
def normalRoom : Interests := 0x100

/-- The conditions that hold on a source. -/
def conditions (h : Host) : Source → Interests
  | .readEnd i =>
    let s := h.stream i
    (if s.content.isEmpty then 0 else Interests.readable ||| normalData) |||
      (if s.writer then 0 else Interests.hangUp)
  | .writeEnd i =>
    Interests.writable ||| normalRoom ||| (if (h.stream i).reader then 0 else Interests.broken)
  | .notifier i =>
    Interests.writable ||| (if (h.stream i).content.isEmpty then 0 else Interests.readable)
  | .connection i o =>
    let s := h.stream i
    (if s.content.isEmpty ∧ s.writer then 0 else Interests.readable ||| normalData) |||
      (if (h.stream o).reader then Interests.writable ||| normalRoom else 0)
  | _ => 0

/-- Whether a source can be registered with a poller. -/
def isPollable : Source → Bool
  | .file _ => false
  | .other => false
  | _ => true

/-- The bits of an interest that say how to report rather than what. -/
def modeBits : Interests := 0xF0000000

/-- What an interest has to report. -/
def report (h : Host) (i : Interest) : Interests :=
  ((h.source? i.descriptor).elim 0 h.conditions) &&& i.event.events

/-- Queues a descriptor, unless it is queued. -/
def Poller.enqueue (p : Poller) (d : Descriptor) : Poller :=
  if p.queue.contains d then p else { p with queue := p.queue ++ [d] }

/-- A descriptor changes: an interest in it is queued if it asks for one of the given conditions, or
if the change has no particular condition. -/
def Poller.notify (p : Poller) (d : Descriptor) (change : Interests) : Poller :=
  match p.interests.find? (·.descriptor = d) with
  | none => p
  | some i =>
    if i.event.events &&& ~~~modeBits = 0 then p
    else if change = 0 ∨ Interests.meets change i.event.events then p.enqueue d
    else p

/-- The descriptors on a source. -/
def descriptorsOf (h : Host) (source : Source) : List Descriptor :=
  (h.files.entries.filter fun e ↦ e.2.source = source).map Prod.fst

/-- Tells every poller that a source changes. -/
def notify (h : Host) (source : Source) (change : Interests) : Host :=
  let ds := h.descriptorsOf source
  { h with pollers := h.pollers.map fun p ↦ ds.foldl (fun p d ↦ p.notify d change) p }

/-! ### Pollers -/

/-- The poller behind a descriptor. -/
def poller? (h : Host) (d : Descriptor) : Option (Nat × Poller) :=
  match h.source? d with
  | some (.poller i) => some (i, h.pollers.getD i default)
  | _ => none

/-- Replaces a poller. -/
def setPoller (h : Host) (i : Nat) (p : Poller) : Host := { h with pollers := h.pollers.set i p }

/-- Checks the two descriptors of a registration. -/
def checkControl (h : Host) (poller target : Descriptor) : Except Errno (Nat × Poller) :=
  match h.source? poller, h.source? target with
  | none, _ => .error .badDescriptor
  | some _, none => .error .badDescriptor
  | some _, some t =>
    if isPollable t then
      match h.poller? poller with
      | none => .error .invalid
      | some p => if poller = target then .error .invalid else .ok p
    else .error .notPermitted

/-- Registers a descriptor with a poller, which queues it if it is ready. -/
def add (h : Host) (poller target : Descriptor) (event : Event) : Except Errno Unit × Host :=
  match h.checkControl poller target with
  | .error e => (.error e, h)
  | .ok (n, p) =>
    if p.interests.any (·.descriptor = target) then (.error .alreadyExists, h)
    else
      let i : Interest :=
        ⟨target, { event with events := event.events ||| Interests.broken ||| Interests.hangUp }⟩
      let p := { p with interests := p.interests ++ [i] }
      (.ok (), h.setPoller n (if h.report i = 0 then p else p.enqueue target))

/-- Drops an interest. -/
def Poller.forget (p : Poller) (d : Descriptor) : Poller where
  interests := p.interests.filter (·.descriptor ≠ d)
  queue := p.queue.filter (· ≠ d)

/-- Takes a descriptor out of a poller. -/
def remove (h : Host) (poller target : Descriptor) : Except Errno Unit × Host :=
  match h.checkControl poller target with
  | .error e => (.error e, h)
  | .ok (n, p) =>
    if p.interests.any (·.descriptor = target) then (.ok (), h.setPoller n (p.forget target))
    else (.error .noEntry, h)

/-- Goes through a queue: the events to report, at most so many; the entries behind them, and those
that go back to the tail. -/
def collect (h : Host) (p : Poller) :
    Nat → List Descriptor → List Event × List Descriptor × List Interest
  | _, [] => ([], [], [])
  | 0, rest => ([], rest, [])
  | n + 1, d :: rest =>
    match p.interests.find? (·.descriptor = d) with
    | none => h.collect p (n + 1) rest
    | some i =>
      let events := h.report i
      if events = 0 then h.collect p (n + 1) rest
      else
        let (reported, left, again) := h.collect p n rest
        (⟨events, i.event.token⟩ :: reported, left, i :: again)

/-- Waits on a poller. -/
def wait (h : Host) (poller : Descriptor) (count : Nat) (timeout : Option Int) :
    Except Errno (List Event) × Host :=
  match h.source? poller with
  | none => (.error .badDescriptor, h)
  | some _ =>
    match h.poller? poller with
    | none => (.error .invalid, h)
    | some (n, p) =>
      let (events, left, reported) := h.collect p count p.queue
      let again := reported.filter fun i ↦ !Interests.meets i.event.events Interests.edge
      let h := h.setPoller n { p with queue := left ++ again.map (·.descriptor) }
      if events.isEmpty ∧ h.signalled ∧ timeout ≠ some 0 then (.error .interrupted, h)
      else (.ok events, h)

/-! ### Reading, writing, closing -/

/-- Reads at most so many bytes; a notifier is always read whole. -/
def read (h : Host) (d : Descriptor) (n : Nat) : Except Errno Bytes × Host :=
  match h.source? d with
  | some (.readEnd i) =>
    let s := h.stream i
    if s.content.isEmpty ∧ s.writer then (.error .wouldBlock, h)
    else (.ok (s.content.take n), h.setStream i { s with content := s.content.drop n })
  | some (.notifier i) =>
    let s := h.stream i
    if s.content.isEmpty then (.error .wouldBlock, h)
    else (.ok s.content, h.setStream i { s with content := [] })
  | some (.connection i _) =>
    let s := h.stream i
    if s.content.isEmpty ∧ s.writer then (.error .wouldBlock, h)
    else (.ok (s.content.take n), h.setStream i { s with content := s.content.drop n })
  | some (.file i) =>
    let s := h.stream i
    (.ok (s.content.take n), h.setStream i { s with content := s.content.drop n })
  | some .socket => (.ok [], h)
  | some .other => (.ok [], h)
  | some (.poller _) => (.error .invalid, h)
  | some (.writeEnd _) => (.error .badDescriptor, h)
  | none => (.error .badDescriptor, h)

/-- Writes bytes. -/
def write (h : Host) (d : Descriptor) (bytes : Bytes) : Except Errno Nat × Host :=
  match h.source? d with
  | some (.writeEnd i) =>
    let s := h.stream i
    if s.reader then
      let h := h.setStream i { s with content := s.content ++ bytes }
      (.ok bytes.length, h.notify (.readEnd i) (Interests.readable ||| normalData))
    else (.error .brokenPipe, h)
  | some (.notifier i) =>
    let s := h.stream i
    let h := h.setStream i { s with content := 1 :: s.content }
    (.ok bytes.length, h.notify (.notifier i) Interests.readable)
  | some _ => (.error .badDescriptor, h)
  | none => (.error .badDescriptor, h)

/-- Sends bytes to the peer of a connection. -/
def send (h : Host) (d : Descriptor) (bytes : Bytes) : Except Errno Nat × Host :=
  match h.source? d with
  | some (.connection _ o) =>
    let s := h.stream o
    if s.reader then (.ok bytes.length, h.setStream o { s with content := s.content ++ bytes })
    else (.error .brokenPipe, h)
  | some _ => (.error .brokenPipe, h)
  | none => (.error .badDescriptor, h)

/-- Drops a descriptor from every poller and from the table. -/
def drop (h : Host) (d : Descriptor) : Host :=
  { h with files := h.files.erase d, pollers := h.pollers.map (·.forget d) }

/-- Closes a descriptor. When one end of a pipe goes while the other stays, that one is notified. -/
def close (h : Host) (d : Descriptor) : Except Errno Unit × Host :=
  match h.source? d with
  | none => (.error .badDescriptor, h)
  | some source =>
    let h := h.drop d
    match source with
    | .readEnd i =>
      let h := h.setStream i { h.stream i with reader := false }
      (.ok (), if (h.stream i).writer then h.notify (.writeEnd i) 0 else h)
    | .writeEnd i =>
      let h := h.setStream i { h.stream i with writer := false }
      (.ok (), if (h.stream i).reader then h.notify (.readEnd i) 0 else h)
    | .connection i o =>
      let h := h.setStream i { h.stream i with reader := false }
      (.ok (), h.setStream o { h.stream o with writer := false })
    | _ => (.ok (), h)

/-- Whether a descriptor is in non-blocking mode. -/
def isNonblocking (h : Host) (d : Descriptor) : Except Errno Bool :=
  match h.files.get? d with
  | none => .error .badDescriptor
  | some f => .ok f.nonblocking

/-- Puts a descriptor into non-blocking mode. -/
def setNonblocking (h : Host) (d : Descriptor) : Except Errno Unit × Host :=
  match h.files.get? d with
  | none => (.error .badDescriptor, h)
  | some f => (.ok (), { h with files := h.files.insert d { f with nonblocking := true } })

/-! ### Names -/

/-- The largest port. -/
def maxPort : Int := 65535

/-- The addresses of a host and a port: the host itself, for a port that exists. -/
def resolve (host : Bytes) (port : Int) : Except Bytes (List Address) :=
  if 0 ≤ port ∧ port ≤ maxPort then .ok [⟨host, port⟩]
  else .error (Bytes.utf8 "Servname not supported for ai_socktype")

/-! ### Making sources -/

/-- Opens a poller. -/
def createPoller (h : Host) : Except Errno Descriptor × Host :=
  match h.openSource (.poller h.pollers.length) false with
  | (.ok d, h) => (.ok d, { h with pollers := h.pollers ++ [{}] })
  | r => r

/-- Opens a notifier. -/
def createNotifier (h : Host) : Except Errno Descriptor × Host :=
  match h.openSource (.notifier h.streams.length) true with
  | (.ok d, h) => (.ok d, (h.newStream {}).2)
  | r => r

/-- Opens a pipe: the end to read from, and the end to write to. -/
def openPipe (h : Host) : Except Errno (Descriptor × Descriptor) × Host :=
  let (i, h) := h.newStream {}
  match h.openSource (.readEnd i) false with
  | (.error e, h) => (.error e, h)
  | (.ok r, h) =>
    match h.openSource (.writeEnd i) false with
    | (.error e, h) => (.error e, h.drop r)
    | (.ok w, h) => (.ok (r, w), h)

/-- Opens a regular file that holds some bytes. -/
def openFile (h : Host) (content : Bytes) : Except Errno Descriptor × Host :=
  let (i, h) := h.newStream { content }
  h.openSource (.file i) false

/-- Opens a connection to a peer that has sent some bytes and will send no more, and that may have
stopped listening: the descriptor, and the number of the stream that the peer reads. -/
def openPeer (h : Host) (sent : Bytes) (listening : Bool) :
    Except Errno (Descriptor × Nat) × Host :=
  let (i, h) := h.newStream { content := sent, writer := false }
  let (o, h) := h.newStream { reader := listening }
  match h.openSource (.connection i o) false with
  | (.error e, h) => (.error e, h)
  | (.ok d, h) => (.ok (d, o), h)

/-- Lets a descriptor refer to something that is no poller. -/
def disable (h : Host) (d : Descriptor) : Host :=
  { h with files := h.files.modify d fun f ↦ { f with source := .other } }

/-! ### Patience -/

theorem unreadIn_set (l : List Stream) (i : Nat) (s : Stream) (h : i < l.length) :
    unreadIn (l.set i s) + l[i].content.length = unreadIn l + s.content.length := by
  induction l generalizing i with
  | nil => simp at h
  | cons a l ih =>
    cases i with
    | zero =>
      simp only [List.set_cons_zero, unreadIn, List.getElem_cons_zero]
      omega
    | succ i =>
      have := ih i (by simpa using h)
      simp only [List.set_cons_succ, unreadIn, List.getElem_cons_succ]
      omega

/-- Taking bytes out of a stream leaves fewer to read. -/
theorem unread_setStream_lt (h : Host) (i : Nat) (s : Stream)
    (hs : s.content.length < (h.stream i).content.length) :
    (h.setStream i s).unread < h.unread := by
  unfold stream at hs
  by_cases hi : i < h.streams.length
  · rw [List.getD_eq_getElem?_getD, List.getElem?_eq_getElem hi, Option.getD_some] at hs
    have := unreadIn_set h.streams i s hi
    simp only [unread, setStream]
    omega
  · rw [List.getD_eq_getElem?_getD, List.getElem?_eq_none (by omega)] at hs
    simp [show (default : Stream).content = [] from rfl] at hs

/-- A read that delivers data leaves less to read. -/
theorem unread_read_lt {h h' : Host} {d : Descriptor} {n : Nat} {b : UInt8} {bs : Bytes}
    (hr : h.read d n = (.ok (b :: bs), h')) : h'.unread < h.unread := by
  unfold read at hr
  have taken {c : Bytes} (hc : c.take n = b :: bs) : (c.drop n).length < c.length := by
    cases n with
    | zero => simp at hc
    | succ n => cases c with
      | nil => simp at hc
      | cons x c =>
        simp only [List.length_drop, List.length_cons]
        omega
  split at hr
  · next i _ =>
    simp only at hr
    split at hr
    · simp at hr
    · obtain ⟨hc, rfl⟩ := Prod.mk.inj hr
      exact unread_setStream_lt _ _ _ (taken (Except.ok.inj hc))
  · next i _ =>
    simp only at hr
    split at hr
    · simp at hr
    · obtain ⟨hc, rfl⟩ := Prod.mk.inj hr
      exact unread_setStream_lt _ _ _ (by rw [Except.ok.inj hc]; simp)
  · next i _ _ =>
    simp only at hr
    split at hr
    · simp at hr
    · obtain ⟨hc, rfl⟩ := Prod.mk.inj hr
      exact unread_setStream_lt _ _ _ (taken (Except.ok.inj hc))
  · next i _ =>
    obtain ⟨hc, rfl⟩ := Prod.mk.inj hr
    exact unread_setStream_lt _ _ _ (taken (Except.ok.inj hc))
  all_goals simp at hr

theorem read_ne_interrupted {h h' : Host} {d : Descriptor} {n : Nat} :
    h.read d n ≠ (.error .interrupted, h') := by
  unfold read
  intro hr
  split at hr
  · simp only at hr
    split at hr <;> simp [Errno.interrupted, Errno.wouldBlock] at hr
  · simp only at hr
    split at hr <;> simp [Errno.interrupted, Errno.wouldBlock] at hr
  · simp only at hr
    split at hr <;> simp [Errno.interrupted, Errno.wouldBlock] at hr
  all_goals simp [Errno.interrupted, Errno.badDescriptor, Errno.invalid] at hr

theorem send_ne_interrupted {h h' : Host} {d : Descriptor} {bytes : Bytes} :
    h.send d bytes ≠ (.error .interrupted, h') := by
  unfold send
  intro hs
  split at hs
  · simp only at hs
    split at hs <;> simp [Errno.interrupted, Errno.brokenPipe] at hs
  all_goals simp [Errno.interrupted, Errno.brokenPipe, Errno.badDescriptor] at hs

/-- A peer that listens takes all that is sent. -/
theorem eq_length_of_send {h h' : Host} {d : Descriptor} {bytes : Bytes} {n : Nat}
    (hs : h.send d bytes = (.ok n, h')) : n = bytes.length := by
  unfold send at hs
  split at hs
  · simp only at hs
    split at hs
    · exact (Except.ok.inj (Prod.mk.inj hs).1).symm
    · simp at hs
  all_goals simp at hs

instance : Kernel Host where
  createPoller := createPoller
  createNotifier := createNotifier
  add := add
  remove := remove
  wait := wait
  isNonblocking h d := (h.isNonblocking d, h)
  setNonblocking := setNonblocking
  read := read
  write := write
  close := close
  resolve h host port := (resolve host port, h)
  socket h _ := h.openSource .socket false
  connect h _ _ := (.error .unreachable, h)
  send := send
  patience := unread
  read_data := unread_read_lt
  read_interrupted hr := absurd hr read_ne_interrupted
  connect_interrupted hc := by simp [Errno.unreachable, Errno.interrupted] at hc
  send_interrupted hs := absurd hs send_ne_interrupted
  send_pos some_left hs := eq_length_of_send hs ▸ List.length_pos_iff.2 some_left

end Host

end TaskRuntime
