import TaskRuntime.Net.ReadToEnd

/-!
# A poll of a reading future, step by step

`ReadToEnd.poll` is one function of the environment, with nobody in between. Here the same poll is
taken apart into its atomic steps, between which other threads may act: opening, non-blocking mode,
the look at the reactor before registration, the registration with the poller, leaving the waker,
each read, and at the end either leaving the waker once more or dropping it and taking the
descriptor out of the poller.

A poll that is left alone gets where the function gets (`ReadToEnd.plays_poll`), so what holds
however the steps are interleaved holds of the function as well.
-/

namespace TaskRuntime

/-- Registration is the look at the reactor, and then the registration with the poller. -/
theorem Environment.register_eq {K : Type} [Kernel K] (e : Environment K) (source : Descriptor)
    (interests : Interests) (token : Token) :
    e.register source interests token =
      match e.reactor.check with
      | .error x => (.error x, e)
      | .ok () => e.onSystem fun s ↦
          Poller.register s e.reactor.poller source token interests := by
  cases h : e.reactor.check <;> simp only [register, onSystem, Reactor.register, h]

namespace ReadToEnd

variable {K : Type} [Kernel K]

/-- Where a poll is: what it is about to do. -/
inductive Moment
  /-- To open the descriptor. -/
  | opening
  /-- To put the descriptor into non-blocking mode. -/
  | unblocking
  /-- To look whether the reactor has failed, before it registers the descriptor. -/
  | checking
  /-- To register the descriptor with the poller. -/
  | adding
  /-- To leave the waker for the first time. -/
  | arming
  /-- To read. -/
  | reading
  /-- To leave the waker again, since there is nothing to read at the moment. -/
  | rearming
  /-- To drop the waker, since the end has been reached. -/
  | forgetting
  /-- To take the descriptor out of the poller. -/
  | removing
  /-- Nothing: it has ended. -/
  | complete (result : Polled Bytes)

/-- A poll in progress. -/
structure Reading where
  /-- The future as the poll has left it so far. -/
  future : ReadToEnd
  /-- Where the poll is. -/
  moment : Moment

/-- Begins a poll. -/
def begin (f : ReadToEnd) : Reading where
  future := f
  moment :=
    if f.finished then
      .complete (.error (.misuse .resolvedFutureReused
        (some (Bytes.utf8 "ReadToEndFuture token " ++ f.tokenText))))
    else if f.started then .reading
    else .opening

namespace Reading

/-- A read: what the poll makes of its outcome. -/
def read (f : ReadToEnd) (e : Environment K) : Reading × Environment K :=
  match Kernel.read e.kernel f.owned.number f.chunk with
  | (.ok [], kernel) =>
    (⟨{ f with registered := false }, .forgetting⟩,
      { e with kernel }.note .debug
        (Bytes.utf8 "Completed read (token " ++ f.tokenText ++ Bytes.utf8 ", " ++
          Numeral.ofNat f.buffer.length ++ Bytes.utf8 " bytes)"))
  | (.ok (b :: bs), kernel) =>
    (⟨{ f with buffer := f.buffer ++ b :: bs }, .reading⟩, { e with kernel })
  | (.error x, kernel) =>
    if x = .interrupted then (⟨f, .reading⟩, { e with kernel })
    else if x.isWouldBlock then
      (⟨f, .rearming⟩,
        { e with kernel }.note .debug
          (Bytes.utf8 "WOULD BLOCK (token " ++ f.tokenText ++ Bytes.utf8 ")"))
    else
      (⟨f, .complete (.error (.os x (Bytes.utf8 "read fd=" ++ Numeral.ofInt f.owned.number)))⟩,
        { e with kernel })

/-- Goes on after an operation of the reactor or the system, or ends with its failure. -/
def andThen (f : ReadToEnd) (next : ReadToEnd × Moment) :
    Except Failure Unit × Environment K → Reading × Environment K
  | (.error x, e) => (⟨f, .complete (.error x)⟩, e)
  | (.ok (), e) => (⟨next.1, next.2⟩, e)

/-- **One atomic step of a poll** with a waker. -/
def tick (opening : Opening K) (w : Waker) (p : Reading) (e : Environment K) :
    Reading × Environment K :=
  let f := p.future
  match p.moment with
  | .opening =>
    let e := e.note .debug
      (Bytes.utf8 "FIRST POLL - STARTING OPERATION (token " ++ f.tokenText ++ Bytes.utf8 ")")
    let f := { f with started := true }
    match e.onSystem (opening f.owned) with
    | (.error x, e) => (⟨f, .complete (.error x)⟩, e)
    | (.ok owned, e) => (⟨{ f with owned }, .unblocking⟩, e)
  | .unblocking => andThen f (f, .checking) (e.onSystem (·.setNonblocking f.owned))
  | .checking => andThen f (f, .adding) (e.reactor.check, e)
  | .adding =>
    andThen f ({ f with registered := true }, .arming)
      (e.onSystem fun s ↦ Poller.register s e.reactor.poller f.owned.number f.token
        (Interests.readable ||| Interests.edge))
  | .arming => andThen f (f, .reading) (e.setWaker f.token w)
  | .reading => read f e
  | .rearming => andThen f (f, .complete (.ok .pending)) (e.setWaker f.token w)
  | .forgetting =>
    (⟨f, .removing⟩,
      { e with reactor := { e.reactor with wakers := e.reactor.wakers.erase f.token } })
  | .removing =>
    andThen f ({ f with finished := true, buffer := [] }, .complete (.ok (.ready f.buffer)))
      (e.onSystem fun s ↦ Poller.deregister s e.reactor.poller f.owned.number)
  | .complete _ => (p, e)

/-! ### What a step leaves alone -/

section

variable {opening : Opening K} {f : ReadToEnd} {e : Environment K}

omit [Kernel K] in
theorem andThen_snd (f : ReadToEnd) (next : ReadToEnd × Moment)
    (r : Except Failure Unit × Environment K) : (andThen f next r).2 = r.2 := by
  rcases r with ⟨_ | _, e⟩ <;> rfl

omit [Kernel K] in
theorem andThen_token (f : ReadToEnd) (next : ReadToEnd × Moment)
    (hn : next.1.token = f.token) (r : Except Failure Unit × Environment K) :
    (andThen f next r).1.future.token = f.token := by
  rcases r with ⟨_ | _, e⟩
  · rfl
  · exact hn

/-- A poll leaves the token of its future alone. -/
theorem token_tick (w : Waker) (m : Moment) :
    (tick opening w ⟨f, m⟩ e).1.future.token = f.token := by
  cases m with
  | opening =>
    dsimp only [tick]
    split <;> rfl
  | reading =>
    dsimp only [tick, read]
    split
    · rfl
    · rfl
    · split
      · rfl
      · split <;> rfl
  | forgetting => rfl
  | complete r => rfl
  | _ =>
    dsimp only [tick]
    exact andThen_token f _ (by rfl) _

end

end Reading

/-! ### A poll that is left alone -/

/-- So many steps of a poll, with nobody in between. -/
def play (opening : Opening K) (w : Waker) :
    Nat → Reading × Environment K → Reading × Environment K
  | 0, x => x
  | n + 1, x => play opening w n (x.1.tick opening w x.2)

/-- A poll that is left alone gets from one position to another. -/
def Plays (opening : Opening K) (w : Waker) (x y : Reading × Environment K) : Prop :=
  ∃ n, play opening w n x = y

section

variable {opening : Opening K} {w : Waker} {x y : Reading × Environment K}

theorem Plays.tick (h : Plays opening w (x.1.tick opening w x.2) y) : Plays opening w x y := by
  obtain ⟨n, hn⟩ := h
  exact ⟨n + 1, hn⟩

theorem Plays.refl : Plays opening w x x := ⟨0, rfl⟩

theorem Plays.single (h : x.1.tick opening w x.2 = y) : Plays opening w x y := .tick (h ▸ .refl)

/-- A poll that has ended. -/
def ended : Polled Bytes × ReadToEnd × Environment K → Reading × Environment K
  | (r, f, e) => (⟨f, .complete r⟩, e)

/-- A poll that leaves its waker or fails to do so is at its end. -/
theorem plays_rearming (f : ReadToEnd) (e : Environment K) :
    Plays opening w (⟨f, .rearming⟩, e.note .debug
      (Bytes.utf8 "WOULD BLOCK (token " ++ f.tokenText ++ Bytes.utf8 ")"))
      (ended (f.conclude w e .wouldBlock)) := by
  refine .single ?_
  rw [Reading.tick, conclude]
  dsimp only
  split <;> next h => rw [h]; rfl

/-- A poll that drops its waker takes the descriptor out of the poller, and is at its end. -/
theorem plays_forgetting (f : ReadToEnd) (e : Environment K) :
    Plays opening w (⟨{ f with registered := false }, .forgetting⟩, e.note .debug
      (Bytes.utf8 "Completed read (token " ++ f.tokenText ++ Bytes.utf8 ", " ++
        Numeral.ofNat f.buffer.length ++ Bytes.utf8 " bytes)"))
      (ended (f.conclude w e .endOfFile)) := by
  refine .tick (.single ?_)
  rw [conclude]
  dsimp only [Reading.tick, Environment.deregister, Reactor.deregister, Environment.onSystem,
    Environment.note]
  split <;> next h => rw [h]; rfl

/-- Reading on: the pieces that have been read make the buffer longer. -/
theorem plays_drain (f : ReadToEnd) (e : Environment K) (pieces : List Bytes) (k : K) :
    Plays opening w
      (⟨{ f with buffer := f.buffer ++ pieces.reverse.flatten }, .reading⟩, { e with kernel := k })
      (ended ((({ f with buffer := f.buffer ++
        (drain f.owned.number f.chunk pieces k).2.1.reverse.flatten } : ReadToEnd).conclude w
          { e with kernel := (drain f.owned.number f.chunk pieces k).2.2 }
          (drain f.owned.number f.chunk pieces k).1))) := by
  fun_induction drain f.owned.number f.chunk pieces k with
  | case1 pieces k k' h =>
    refine .tick ?_
    rw [Reading.tick, Reading.read]
    dsimp only
    rw [h]
    exact plays_forgetting { f with buffer := f.buffer ++ pieces.reverse.flatten }
      { e with kernel := k' }
  | case2 pieces k b bs k' h ih =>
    refine .tick ?_
    rw [Reading.tick, Reading.read]
    dsimp only
    rw [h]
    simpa using ih
  | case3 pieces k k' h ih =>
    refine .tick ?_
    rw [Reading.tick, Reading.read]
    dsimp only
    rw [h]
    exact ih
  | case4 pieces k x k' h hne hb =>
    refine .tick ?_
    rw [Reading.tick, Reading.read]
    dsimp only
    rw [h]
    dsimp only
    rw [if_neg hne, if_pos hb]
    exact plays_rearming { f with buffer := f.buffer ++ pieces.reverse.flatten }
      { e with kernel := k' }
  | case5 pieces k x k' h hne hb =>
    refine .single ?_
    rw [Reading.tick, Reading.read]
    dsimp only
    rw [h]
    dsimp only
    rw [if_neg hne, if_neg hb]
    rfl

/-- A poll that reads gets where the function gets from there. -/
theorem plays_reading (f : ReadToEnd) (e : Environment K) :
    Plays opening w (⟨f, .reading⟩, e) (ended (f.advance w e)) := by
  have h : Plays opening w _ _ := plays_drain f e [] e.kernel
  simpa [advance] using h

/-- The first poll prepares the future, and reads on unless that has failed. -/
theorem plays_opening (f : ReadToEnd) (e : Environment K) (hs : f.started = false) :
    Plays opening w (⟨f, .opening⟩, e) (ended (match f.prepare opening w e with
      | (.error x, f, e) => (.error x, f, e)
      | (.ok (), f, e) => f.advance w e)) := by
  refine .tick ?_
  rw [Reading.tick, prepare, hs]
  dsimp only
  rw [if_neg Bool.false_ne_true]
  generalize e.note .debug
    (Bytes.utf8 "FIRST POLL - STARTING OPERATION (token " ++ f.tokenText ++ Bytes.utf8 ")") = e
  rcases e.onSystem (opening f.owned) with ⟨x | owned, e⟩
  · exact .refl
  dsimp only
  refine .tick ?_
  dsimp only [Reading.tick]
  rcases e.onSystem (·.setNonblocking owned) with ⟨x | u, e⟩
  · exact .refl
  dsimp only [Reading.andThen]
  rw [Environment.register_eq]
  refine .tick ?_
  dsimp only [Reading.tick]
  rcases e.reactor.check with x | u
  · exact .refl
  dsimp only [Reading.andThen]
  refine .tick ?_
  dsimp only [Reading.tick]
  rcases e.onSystem _ with ⟨x | u, e⟩
  · exact .refl
  dsimp only [Reading.andThen]
  refine .tick ?_
  dsimp only [Reading.tick]
  rcases e.setWaker f.token w with ⟨x | u, e⟩
  · exact .refl
  exact plays_reading _ e

/-- **A poll that is left alone is the function.** -/
theorem plays_poll (f : ReadToEnd) (opening : Opening K) (w : Waker) (e : Environment K) :
    Plays opening w (f.begin, e) (ended (f.poll opening w e)) := by
  rw [poll, begin]
  split
  · exact .refl
  · split
    · next hs =>
      rw [prepare, if_pos hs]
      exact plays_reading f e
    · next hs => exact plays_opening f e (by simpa using hs)

end

end ReadToEnd

end TaskRuntime
