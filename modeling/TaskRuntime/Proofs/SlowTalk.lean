import TaskRuntime.DelayServer.Connection
import TaskRuntime.Net.Get
import TaskRuntime.Proofs.SlowRead

/-!
# Serving and asking, step by step

`DelayServer.serve` and the first poll of a GET request are functions with nobody in between. Here
both are taken apart into steps with one system call each, between which the other side may act: the
server reads pieces of a head, notes it, sends pieces of its answer and closes; the client connects,
sends pieces of its request, and then goes on with the steps of a poll that reads
(`ReadToEnd.Reading.tick`).

What is left alone gets where the function gets (`DelayServer.reaches_serve`, `Get.reaches_poll`).
-/

namespace TaskRuntime

/-! ### Steps -/

section

variable {A : Type} {f : A → A} {x y z : A}

/-- So many steps. -/
def steps (f : A → A) : Nat → A → A
  | 0, x => x
  | n + 1, x => steps f n (f x)

/-- Steps get from one position to another. -/
def Reaches (f : A → A) (x y : A) : Prop := ∃ n, steps f n x = y

theorem Reaches.refl : Reaches f x x := ⟨0, rfl⟩

theorem Reaches.head (h : Reaches f (f x) y) : Reaches f x y := by
  obtain ⟨n, hn⟩ := h
  exact ⟨n + 1, hn⟩

theorem Reaches.trans (h : Reaches f x y) (h' : Reaches f y z) : Reaches f x z := by
  obtain ⟨n, rfl⟩ := h
  induction n generalizing x with
  | zero => exact h'
  | succ n ih => exact .head (ih h')

end

variable {K : Type} [Kernel K]

/-! ### Sending -/

namespace Kernel

/-- What one call leaves of a text that is sent. -/
inductive Sent
  /-- Nothing: there was no need for a call. -/
  | all
  /-- A rest. -/
  | more (rest : Bytes)
  /-- The sending has failed. -/
  | failed (e : Errno)

/-- **One call** of those that send all of a text. -/
def sendSome (d : Descriptor) (text : Bytes) (k : K) : Sent × K :=
  if text = [] then (.all, k)
  else
    match Kernel.send k d text with
    | (.ok n, k) => (.more (text.drop n), k)
    | (.error e, k) => if e = .interrupted then (.more text, k) else (.failed e, k)

end Kernel

/-! ### Serving -/

namespace DelayServer

/-- Where the server is with a connection: what it is about to do. -/
inductive Serving
  /-- To read on, having read a part of the head. -/
  | reading (head : Bytes)
  /-- To note the delay that a head asks for. -/
  | noting (head : Bytes)
  /-- To send what is left of the answer. -/
  | sending (rest : Bytes)
  /-- To close the connection. -/
  | closing
  /-- Nothing more. -/
  | gone

/-- **One step of serving a connection.** -/
def Serving.tick (d : Descriptor) : Serving → System K → Serving × System K
  | reading head, s =>
    if isHead head then (noting head, s)
    else
      match s.call (Kernel.read · d pieceSize) with
      | (.ok [], s) => (noting head, s)
      | (.ok (b :: bs), s) => (reading (head ++ b :: bs), s)
      | (.error e, s) => if e = .interrupted then (reading head, s) else (noting head, s)
  | noting head, s => (sending (answer head), noteDelay d head s)
  | sending rest, s =>
    match s.call (Kernel.sendSome d rest) with
    | (.all, s) => (closing, s)
    | (.more rest, s) => (sending rest, s)
    | (.failed e, s) => (closing, s.note .warning (Bytes.utf8 "send failed: " ++ e.text))
  | closing, s => (gone, (s.call (Kernel.close · d)).2)
  | gone, s => (gone, s)

/-- One step, as a function of server and system. -/
def Serving.next (d : Descriptor) (x : Serving × System K) : Serving × System K := x.1.tick d x.2

variable {d : Descriptor}

theorem reaches_readHead (head : Bytes) (s : System K) (k : K) :
    Reaches (Serving.next d) (.reading head, { s with kernel := k })
      (.noting (readHead d head k).1, { s with kernel := (readHead d head k).2 }) := by
  fun_induction readHead d head k with
  | case1 head k h =>
    refine .head ?_
    rw [Serving.next, Serving.tick, if_pos h]
    exact .refl
  | case2 head k h k' hr =>
    refine .head ?_
    rw [Serving.next, Serving.tick, if_neg h]
    dsimp only [System.call]
    rw [hr]
    exact .refl
  | case3 head k h b bs k' hr ih =>
    refine .head ?_
    rw [Serving.next, Serving.tick, if_neg h]
    dsimp only [System.call]
    rw [hr]
    exact ih
  | case4 head k h k' hr ih =>
    refine .head ?_
    rw [Serving.next, Serving.tick, if_neg h]
    dsimp only [System.call]
    rw [hr]
    exact ih
  | case5 head k h e k' hr he =>
    refine .head ?_
    rw [Serving.next, Serving.tick, if_neg h]
    dsimp only [System.call]
    rw [hr]
    dsimp only
    rw [if_neg he]
    exact .refl

theorem reaches_sendAll (text : Bytes) (s : System K) (k : K) :
    Reaches (Serving.next d) (.sending text, { s with kernel := k })
      (.closing, match Kernel.sendAll d text k with
        | (.ok (), k) => { s with kernel := k }
        | (.error e, k) =>
          { s with kernel := k }.note .warning (Bytes.utf8 "send failed: " ++ e.text)) := by
  fun_induction Kernel.sendAll d text k with
  | case1 k =>
    refine .head ?_
    rw [Serving.next, Serving.tick]
    dsimp only [System.call]
    rw [Kernel.sendSome, if_pos rfl]
    exact .refl
  | case2 text k h n k' hs ih =>
    refine .head ?_
    rw [Serving.next, Serving.tick]
    dsimp only [System.call]
    rw [Kernel.sendSome, if_neg h, hs]
    exact ih
  | case3 text k h k' hs ih =>
    refine .head ?_
    rw [Serving.next, Serving.tick]
    dsimp only [System.call]
    rw [Kernel.sendSome, if_neg h, hs]
    exact ih
  | case4 text k h e k' hs he =>
    refine .head ?_
    rw [Serving.next, Serving.tick]
    dsimp only [System.call]
    rw [Kernel.sendSome, if_neg h, hs]
    dsimp only
    rw [if_neg he]
    exact .refl

/-- **Serving that is left alone is the function.** -/
theorem reaches_serve (d : Descriptor) (s : System K) :
    Reaches (Serving.next d) (.reading [], s) (.gone, serve d s) := by
  refine (reaches_readHead [] s s.kernel).trans (.head ?_)
  rw [Serving.next, Serving.tick, serve]
  dsimp only [System.call]
  generalize readHead d [] s.kernel = read
  generalize noteDelay d read.1 { s with kernel := read.2 } = s'
  refine (reaches_sendAll (answer read.1) s' s'.kernel).trans (.head ?_)
  rw [Serving.next, Serving.tick]
  dsimp only [System.call]
  rcases Kernel.sendAll d (answer read.1) s'.kernel with ⟨_ | _, k⟩ <;> exact .refl

end DelayServer

/-! ### Asking -/

namespace Get

/-- Where a poll of a request is: what it is about to do. -/
inductive Stage
  /-- To connect. -/
  | connecting
  /-- To send what is left of the request. -/
  | sending (connection : Owned) (rest : Bytes)
  /-- To go on as a poll that reads. -/
  | polling (m : ReadToEnd.Moment)

/-- A poll of a request in progress. -/
structure Asking where
  /-- The future that reads the answer, as the poll has left it so far. -/
  future : ReadToEnd
  /-- Where the poll is. -/
  stage : Stage

/-- Begins a poll. -/
def begin (f : ReadToEnd) : Asking where
  future := f
  stage :=
    match f.begin.moment with
    | .opening => .connecting
    | m => .polling m

/-- **One step of a poll of a request** with a waker. -/
def Asking.tick (g : Get) (w : Waker) (a : Asking) (e : Environment K) : Asking × Environment K :=
  let f := a.future
  match a.stage with
  | .connecting =>
    let e := e.note .debug
      (Bytes.utf8 "FIRST POLL - STARTING OPERATION (token " ++ f.tokenText ++ Bytes.utf8 ")")
    let e := e.note .debug
      (Bytes.utf8 "HTTP GET " ++ g.path ++ Bytes.utf8 " -> " ++ g.host ++ Bytes.utf8 ":" ++
        Numeral.ofInt g.port)
    let f := { f with started := true }
    match e.onSystem (openConnection g.host g.port) with
    | (.error x, e) => (⟨f, .polling (.complete (.error x))⟩, e)
    | (.ok connection, e) => (⟨f, .sending connection (Http.getRequest g.path)⟩, e)
  | .sending connection rest =>
    match e.onSystem (·.call (Kernel.sendSome connection.number rest)) with
    | (.all, e) =>
      (⟨{ f with owned := connection }, .polling .unblocking⟩,
        { e with toSystem := e.toSystem.release .file f.owned })
    | (.more rest, e) => (⟨f, .sending connection rest⟩, e)
    | (.failed x, e) =>
      (⟨f, .polling (.complete (.error (.os x (Bytes.utf8 "send"))))⟩,
        { e with toSystem := e.toSystem.release .file connection })
  | .polling m =>
    let (p, e) := ReadToEnd.Reading.tick (opening g.host g.port g.path) w ⟨f, m⟩ e
    (⟨p.future, .polling p.moment⟩, e)

/-- One step, as a function of poll and environment. -/
def next (g : Get) (w : Waker) (x : Asking × Environment K) : Asking × Environment K :=
  x.1.tick g w x.2

/-- A poll that reads, as a poll of a request. -/
def lift (x : ReadToEnd.Reading × Environment K) : Asking × Environment K :=
  (⟨x.1.future, .polling x.1.moment⟩, x.2)

variable {g : Get} {w : Waker}

theorem reaches_lift {x y : ReadToEnd.Reading × Environment K}
    (h : ReadToEnd.Plays (opening g.host g.port g.path) w x y) :
    Reaches (next g w) (lift x) (lift y) := by
  obtain ⟨n, rfl⟩ := h
  induction n generalizing x with
  | zero => exact .refl
  | succ n ih => exact .head ih

/-- The request is sent, and what owned nothing before owns the connection. -/
theorem reaches_sending (f : ReadToEnd) (connection : Owned) (text : Bytes) (e : Environment K)
    (k : K) : Reaches (next g w) (⟨f, .sending connection text⟩, { e with kernel := k })
      (match Kernel.sendAll connection.number text k with
        | (.error x, k) =>
          (⟨f, .polling (.complete (.error (.os x (Bytes.utf8 "send"))))⟩, { e with
            toSystem := System.release { e.toSystem with kernel := k } .file connection })
        | (.ok (), k) =>
          (⟨{ f with owned := connection }, .polling .unblocking⟩, { e with
            toSystem := System.release { e.toSystem with kernel := k } .file f.owned })) := by
  fun_induction Kernel.sendAll connection.number text k with
  | case1 k =>
    refine .head ?_
    rw [next, Asking.tick]
    dsimp only [Environment.onSystem, System.call]
    rw [Kernel.sendSome, if_pos rfl]
    exact .refl
  | case2 text k h n k' hs ih =>
    refine .head ?_
    rw [next, Asking.tick]
    dsimp only [Environment.onSystem, System.call]
    rw [Kernel.sendSome, if_neg h, hs]
    exact ih
  | case3 text k h k' hs ih =>
    refine .head ?_
    rw [next, Asking.tick]
    dsimp only [Environment.onSystem, System.call]
    rw [Kernel.sendSome, if_neg h, hs]
    exact ih
  | case4 text k h x k' hs hx =>
    refine .head ?_
    rw [next, Asking.tick]
    dsimp only [Environment.onSystem, System.call]
    rw [Kernel.sendSome, if_neg h, hs]
    dsimp only
    rw [if_neg hx]
    exact .refl

/-- Connecting and sending is what opens the future. -/
theorem reaches_opening (f : ReadToEnd) (e : Environment K) :
    Reaches (next g w) (⟨f, .connecting⟩, e)
      (lift (ReadToEnd.Reading.tick (opening g.host g.port g.path) w ⟨f, .opening⟩ e)) := by
  refine .head ?_
  rw [next, Asking.tick, ReadToEnd.Reading.tick]
  dsimp only [Environment.onSystem, opening, Environment.note]
  rcases openConnection g.host g.port _ with ⟨x | connection, s⟩
  · exact .refl
  dsimp only [System.call]
  refine (reaches_sending _ connection _ { e with toSystem := s } s.kernel).trans ?_
  rcases Kernel.sendAll connection.number (Http.getRequest g.path) s.kernel with ⟨_ | _, k⟩ <;>
    exact .refl

/-- **A poll that is left alone is the function.** -/
theorem reaches_poll (g : Get) (w : Waker) (e : Environment K) :
    Reaches (next g w) (begin g.answer, e)
      (⟨(g.poll w e).2.1.answer, .polling (.complete (g.poll w e).1)⟩, (g.poll w e).2.2) := by
  have hplays := ReadToEnd.plays_poll g.answer (opening g.host g.port g.path) w e
  rw [begin]
  cases hm : g.answer.begin.moment with
  | opening =>
    -- The first step of a poll that reads is the opening.
    obtain ⟨n, hn⟩ := hplays
    have hbegin : g.answer.begin = ⟨g.answer, .opening⟩ := by rw [← hm]; rfl
    rw [hbegin] at hn
    cases n with
    | zero => cases congrArg (·.1.moment) hn
    | succ n => exact (reaches_opening g.answer e).trans (reaches_lift ⟨n, hn⟩)
  | _ =>
    have hbegin : g.answer.begin = ⟨g.answer, g.answer.begin.moment⟩ := rfl
    rw [hbegin, hm] at hplays
    exact reaches_lift hplays

end Get

end TaskRuntime
