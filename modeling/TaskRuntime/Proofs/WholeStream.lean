import TaskRuntime.Proofs.Obligations
import TaskRuntime.Kernel.Host

/-!
# A reading future returns the stream

A future is made for a descriptor, and polled any number of times. The polls are followed step by
step (`ReadToEnd.Reception.Move`); between any two steps others may do to the environment whatever
they like, as long as the reactor does not fail. So a read may result in anything: data, nothing to
read at the moment, an interruption, a failure, the end of the file.

The reads that a run has made, with their outcomes, and the results of the polls that have ended are
its tidings. What the polls have to result in can be read off the outcomes of the reads alone:

* Before the end of the file, the results are the `pauses` of the outcomes, one for each read that
  has found nothing to read and one for each that has failed, in order.
* The poll that reaches the end results in the `content` of all the outcomes before, piece by piece.
  No read is made after that, and all that a further poll results in is a refusal.

This is `ReadToEnd.Reception.Run.delivers`. It supposes that the preparation in the first poll has
not failed, and, from the end of the file on, that the registration could be taken back. It rests on
`ReadToEnd.Reception.Known`, which says at each moment of a poll how the buffer and the results come
from the outcomes.

It speaks of reads that have been made. A poll that does not get the memory for its chunk makes
none, and is not among the polls here: the memory is taken to be there.
-/

namespace TaskRuntime

namespace ReadToEnd

variable {K : Type} [Kernel K]

/-! ### Outcomes of reads, and what is due to them -/

/-- How a poll ends that is handed an outcome of a read from a descriptor; it goes on after data and
after an interruption. The end of the file is another matter. -/
def pause? (d : Descriptor) : Except Errno Bytes → Option (Polled Bytes)
  | .ok _ => none
  | .error x =>
    if x = .interrupted then none
    else if x.isWouldBlock then some (.ok .pending)
    else some (.error (.os x (Bytes.utf8 "read fd=" ++ Numeral.ofInt d)))

/-- **How the polls end** that are handed some outcomes of reads one after the other. -/
def pauses (d : Descriptor) (outcomes : List (Except Errno Bytes)) : List (Polled Bytes) :=
  outcomes.filterMap (pause? d)

/-- The data of an outcome. -/
def piece : Except Errno Bytes → Bytes
  | .ok bytes => bytes
  | .error _ => []

/-- **What has been read**, in order. -/
def content (outcomes : List (Except Errno Bytes)) : Bytes := outcomes.flatMap piece

/-- How a poll ends that comes after a value. -/
def refusal (t : Token) : Polled Bytes :=
  .error (.misuse .resolvedFutureReused
    (some (Bytes.utf8 "ReadToEndFuture token " ++ Numeral.ofNat t.toNat)))

/-- Something that is told about a future. -/
inductive Tiding
  /-- It has asked for so many bytes, with an outcome. -/
  | read (count : Nat) (outcome : Except Errno Bytes)
  /-- Its preparation has failed. -/
  | unprepared (e : Failure)
  /-- Its registration could not be taken back. -/
  | unremoved (e : Failure)
  /-- A poll has ended. -/
  | ended (result : Polled Bytes)

namespace Tiding

/-- The outcome, if this is about a read. -/
def outcome? : Tiding → Option (Except Errno Bytes)
  | read _ o => some o
  | _ => none

/-- The result, if this is about the end of a poll. -/
def result? : Tiding → Option (Polled Bytes)
  | ended r => some r
  | _ => none

end Tiding

/-- The outcomes of the reads, in order. -/
def outcomes (h : List Tiding) : List (Except Errno Bytes) := h.filterMap Tiding.outcome?

/-- The results of the polls, in order. -/
def results (h : List Tiding) : List (Polled Bytes) := h.filterMap Tiding.result?

section

variable {d : Descriptor} {h told : List Tiding} {rs : List (Except Errno Bytes)}

@[simp] theorem outcomes_append : outcomes (h ++ told) = outcomes h ++ outcomes told :=
  List.filterMap_append

@[simp] theorem results_append : results (h ++ told) = results h ++ results told :=
  List.filterMap_append

@[simp] theorem outcomes_nil : outcomes [] = [] := rfl

@[simp] theorem results_nil : results [] = [] := rfl

@[simp] theorem outcomes_read (n : Nat) (o : Except Errno Bytes) : outcomes [.read n o] = [o] := rfl

@[simp] theorem results_read (n : Nat) (o : Except Errno Bytes) : results [.read n o] = [] := rfl

@[simp] theorem outcomes_unremoved (x : Failure) : outcomes [.unremoved x] = [] := rfl

@[simp] theorem outcomes_ended (r : Polled Bytes) : outcomes [.ended r] = [] := rfl

@[simp] theorem results_ended (r : Polled Bytes) : results [.ended r] = [r] := rfl

@[simp] theorem content_concat (o : Except Errno Bytes) :
    content (rs ++ [o]) = content rs ++ piece o := by
  simp [content]

@[simp] theorem pauses_concat (o : Except Errno Bytes) :
    pauses d (rs ++ [o]) = pauses d rs ++ (pause? d o).toList := by
  rw [pauses, List.filterMap_append, pauses]
  cases ho : pause? d o <;> simp [ho]

/-- Only the end of the file makes a poll result in a value. -/
theorem not_ready_mem_pauses {bytes : Bytes} : .ok (.ready bytes) ∉ pauses d rs := by
  intro hmem
  obtain ⟨o, -, ho⟩ := List.mem_filterMap.1 hmem
  unfold pause? at ho
  split at ho
  · cases ho
  · split at ho
    · cases ho
    · split at ho <;> cases ho

end

/-! ### Runs -/

/-- The failure that a poll ends with at a moment. -/
def Moment.failure? : Moment → Option Failure
  | .complete (.error x) => some x
  | _ => none

/-- What a step of a poll tells: a read, or the failure of a step of the preparation or of taking
the registration back. -/
def Reading.tidings (opening : Opening K) (w : Waker) (p : Reading) (e : Environment K) :
    List Tiding :=
  let failure? := (p.tick opening w e).1.moment.failure?
  match p.moment with
  | .reading =>
    [.read p.future.chunk (Kernel.read e.kernel p.future.owned.number p.future.chunk).1]
  | .removing => (failure?.map Tiding.unremoved).toList
  | .rearming => []
  | .forgetting => []
  | .complete _ => []
  | _ => (failure?.map Tiding.unprepared).toList

/-- A future in its environment, and the poll in progress. -/
structure Reception (K : Type) where
  /-- The environment. -/
  environment : Environment K
  /-- The future. -/
  future : ReadToEnd
  /-- The waker of the poll in progress, and where the poll is. -/
  poll : Option (Waker × Moment) := none

namespace Reception

/-- A future that has just been made for a descriptor; so many bytes are requested, where zero
stands for "as configured". -/
def start (owned : Owned) (requested : Nat) (e : Environment K) : Reception K where
  environment := (create owned requested e).2
  future := (create owned requested e).1

/-- The position after the step of a poll at a moment. -/
def ticked (opening : Opening K) (w : Waker) (m : Moment) (x : Reception K) : Reception K where
  environment := (Reading.tick opening w ⟨x.future, m⟩ x.environment).2
  future := (Reading.tick opening w ⟨x.future, m⟩ x.environment).1.future
  poll := some (w, (Reading.tick opening w ⟨x.future, m⟩ x.environment).1.moment)

/-- **A step** of a poll of the future, or of others, and what it tells. A poll may begin however
the last one has ended. -/
inductive Move (opening : Opening K) (x : Reception K) : List Tiding → Reception K → Prop
  /-- Others do something; the reactor does not fail. -/
  | other {e : Environment K} (he : e.reactor.failure = none) :
    Move opening x [] { x with environment := e }
  /-- A poll begins. -/
  | begin (w : Waker) (hp : x.poll = none) :
    Move opening x [] { x with poll := some (w, x.future.begin.moment) }
  /-- The poll makes a step. -/
  | tick {w : Waker} {m : Moment} (hp : x.poll = some (w, m)) :
    Move opening x (Reading.tidings opening w ⟨x.future, m⟩ x.environment) (x.ticked opening w m)
  /-- The poll ends. -/
  | finish {w : Waker} {r : Polled Bytes} (hp : x.poll = some (w, .complete r)) :
    Move opening x [.ended r] { x with poll := none }

/-- Some steps, with their tidings. -/
inductive Run (opening : Opening K) (x₀ : Reception K) : List Tiding → Reception K → Prop
  /-- No step. -/
  | refl : Run opening x₀ [] x₀
  /-- Another step. -/
  | step {h told : List Tiding} {x x' : Reception K} (hr : Run opening x₀ h x)
    (hm : Move opening x told x') : Run opening x₀ (h ++ told) x'

end Reception

/-! ### What a step leaves alone -/

section

variable {opening : Opening K} {f : ReadToEnd} {e : Environment K} {w : Waker} {m : Moment}

omit [Kernel K] in
/-- **A future that is made** reads at least one byte at once: what is requested, or else what is
configured, or else the default. -/
theorem chunk_create (owned : Owned) (requested : Nat) (e : Environment K) :
    (create owned requested e).1.chunk =
      Config.chunkSize requested e.config.readBuffer.value := by
  unfold create
  dsimp only
  split
  · next hpos => rw [Config.chunkSize, if_pos hpos]
  · next hzero =>
    obtain rfl : requested = 0 := Nat.eq_zero_of_not_pos hzero
    rfl

theorem chunkSize_pos (requested configured : Nat) : 0 < Config.chunkSize requested configured := by
  unfold Config.chunkSize
  split
  · assumption
  · split
    · assumption
    · decide

omit [Kernel K] in
theorem Reading.andThen_chunk (next : ReadToEnd × Moment) (hn : next.1.chunk = f.chunk)
    (r : Except Failure Unit × Environment K) : (andThen f next r).1.future.chunk = f.chunk := by
  rcases r with ⟨_ | _, e⟩
  · rfl
  · exact hn

/-- A poll leaves the number of bytes that are read at once alone. -/
theorem Reading.chunk_tick : (tick opening w ⟨f, m⟩ e).1.future.chunk = f.chunk := by
  cases m with
  | opening =>
    dsimp only [tick]
    split <;> rfl
  | reading =>
    dsimp only [tick, read]
    split
    · rfl
    · rfl
    · split
      · rfl
      · split <;> rfl
  | forgetting => rfl
  | complete r => rfl
  | _ =>
    dsimp only [tick]
    exact andThen_chunk _ (by rfl) _

/-- A poll does not make the reactor fail. -/
theorem Reading.alive_tick (ha : e.reactor.failure = none) :
    (tick opening w ⟨f, m⟩ e).2.reactor.failure = none := by
  cases m with
  | opening =>
    dsimp only [tick, Environment.onSystem, Environment.note]
    split
    all_goals
      next ho => exact (congrArg (·.2.reactor.failure) ho).symm.trans ha
  | arming =>
    rw [tick, andThen_snd, Environment.setWaker_of_alive ha]
    exact ha
  | reading =>
    show (read f e).2.reactor.failure = none
    rw [reactor_read]
    exact ha
  | rearming =>
    rw [tick, andThen_snd, Environment.setWaker_of_alive ha]
    exact ha
  | forgetting => exact ha
  | complete r => exact ha
  | _ =>
    rw [tick, andThen_snd]
    exact ha

end

/-! ### How buffer and results come from the outcomes -/

/-- A future that no poll has begun to prepare. -/
structure Untouched (h : List Tiding) (f : ReadToEnd) : Prop where
  /-- It has not been prepared. -/
  started : f.started = false
  /-- It has not come to its end. -/
  finished : f.finished = false
  /-- It has not stored anything. -/
  buffer : f.buffer = []
  /-- It has not read. -/
  outcomes : outcomes h = []
  /-- No poll of it has ended. -/
  results : results h = []

/-- **A future that is reading**, where some results are still due. -/
structure Underway (h : List Tiding) (due : List (Polled Bytes)) (f : ReadToEnd) : Prop where
  /-- It has been prepared. -/
  started : f.started = true
  /-- It has not come to its end. -/
  finished : f.finished = false
  /-- No read has reached the end of the file. -/
  unended : .ok [] ∉ outcomes h
  /-- What it has stored is what has been read. -/
  buffer : f.buffer = content (outcomes h)
  /-- The results are those of the outcomes. -/
  results : results h ++ due = pauses f.owned.number (outcomes h)

/-- A future that has just read the end of the file, after some other outcomes. -/
structure Ending (h : List Tiding) (rs : List (Except Errno Bytes)) (f : ReadToEnd) : Prop where
  /-- These are the outcomes. -/
  outcomes : outcomes h = rs ++ [.ok []]
  /-- The end of the file has been read once. -/
  unended : .ok [] ∉ rs
  /-- What it has stored is what has been read. -/
  buffer : f.buffer = content rs
  /-- The results are those of the outcomes before. -/
  results : results h = pauses f.owned.number rs

/-- **A future that has resulted in the stream**, where some results are still due. -/
structure Resolved (h : List Tiding) (due : List (Polled Bytes)) (f : ReadToEnd) : Prop where
  /-- It has come to its end. -/
  finished : f.finished = true
  /-- After the results of the outcomes before the end comes the stream, and then refusals. -/
  results : ∃ rs k, outcomes h = rs ++ [.ok []] ∧ .ok [] ∉ rs ∧
    results h ++ due = pauses f.owned.number rs ++
      .ok (.ready (content rs)) :: List.replicate k (refusal f.token)

/-- The end of the file has been read, and the registration could not be taken back. -/
def Lapsed (h : List Tiding) : Prop := .ok [] ∈ outcomes h ∧ ∃ x, .unremoved x ∈ h

namespace Reception

/-- **What is known** of a future between its polls, and at each moment of a poll. -/
def Known (h : List Tiding) (f : ReadToEnd) : Option (Waker × Moment) → Prop
  | none => Untouched h f ∨ Underway h [] f ∨ Resolved h [] f
  | some (_, .opening) => Untouched h f
  | some (_, .unblocking) => Underway h [] f
  | some (_, .checking) => Underway h [] f
  | some (_, .adding) => Underway h [] f
  | some (_, .arming) => Underway h [] f
  | some (_, .reading) => Underway h [] f
  | some (_, .rearming) => Underway h [.ok .pending] f
  | some (_, .forgetting) => ∃ rs, Ending h rs f
  | some (_, .removing) => ∃ rs, Ending h rs f
  | some (_, .complete r) => Underway h [r] f ∨ Resolved h [r] f

end Reception

section

open Reception Reading

variable {opening : Opening K} {f : ReadToEnd} {e : Environment K} {w : Waker} {m : Moment}
  {h told : List Tiding} {rs : List (Except Errno Bytes)}

theorem Lapsed.append (hl : Lapsed h) : Lapsed (h ++ told) := by
  obtain ⟨hend, x, hx⟩ := hl
  exact ⟨by simp [hend], x, by simp [hx]⟩

/-- A future that begins to prepare itself has nothing to show for it yet. -/
theorem Untouched.begun (hk : Untouched h f) (owned : Owned) :
    Underway h [] { f with started := true, owned } where
  started := rfl
  finished := hk.finished
  unended := by simp [hk.outcomes]
  buffer := by simp [hk.outcomes, hk.buffer, content]
  results := by simp [hk.outcomes, hk.results, pauses]

namespace Reception

omit [Kernel K] in
/-- A step that tells nothing of a failure has not failed. -/
theorem andThen_fst_of_unfailed {next : ReadToEnd × Moment}
    {r : Except Failure Unit × Environment K} (hr : (andThen f next r).1.moment.failure? = none) :
    (andThen f next r).1 = ⟨next.1, next.2⟩ := by
  rcases r with ⟨x | u, e⟩
  · cases hr
  · rfl

omit [Kernel K] in
theorem failure?_eq_none {tell : Failure → Tiding}
    (hp : ∀ x, tell x ∉ (m.failure?.map tell).toList) : m.failure? = none := by
  cases hm : m.failure? with
  | none => rfl
  | some x =>
    rw [hm] at hp
    exact absurd List.mem_cons_self (hp x)

omit [Kernel K] in
/-- The preparation leads on to reading. -/
theorem known_preparing {next : ReadToEnd × Moment} {r : Except Failure Unit × Environment K}
    (hp : ∀ x, .unprepared x ∉
      ((andThen f next r).1.moment.failure?.map Tiding.unprepared).toList)
    (hn : Known h next.1 (some (w, next.2))) :
    Known (h ++ ((andThen f next r).1.moment.failure?.map Tiding.unprepared).toList)
      (andThen f next r).1.future (some (w, (andThen f next r).1.moment)) := by
  have hnone := failure?_eq_none hp
  rw [hnone, andThen_fst_of_unfailed hnone]
  simpa using hn

/-- A read that does not reach the end of the file: what it has read is stored, and it ends the poll
or not. -/
theorem underway_read (hk : Underway h [] f) (n : Nat) {o : Except Errno Bytes} (ho : .ok [] ≠ o) :
    Underway (h ++ [.read n o]) (pause? f.owned.number o).toList
      { f with buffer := f.buffer ++ piece o } where
  started := hk.started
  finished := hk.finished
  unended := by simp [hk.unended, ho]
  buffer := by simp [hk.buffer]
  results := by
    have hresults := hk.results
    rw [List.append_nil] at hresults
    simp [hresults]

/-- **A read**: data is stored, the end of the file leads on to the end, and what else there is ends
the poll or leads on to the next read. -/
theorem known_read (hk : Underway h [] f) :
    Known (h ++ [.read f.chunk (Kernel.read e.kernel f.owned.number f.chunk).1])
      (Reading.read f e).1.future (some (w, (Reading.read f e).1.moment)) := by
  have hread := @underway_read _ _ hk f.chunk
  dsimp only [Reading.read]
  rcases Kernel.read e.kernel f.owned.number f.chunk with ⟨x | ⟨_ | ⟨b, bs⟩⟩, k⟩
  · have hread : Underway (h ++ [.read f.chunk (.error x)])
        (pause? f.owned.number (.error x)).toList f := by
      simpa [piece] using @hread (.error x) nofun
    dsimp only [pause?] at hread
    dsimp only
    split at hread
    · next hi =>
      rw [if_pos hi]
      exact hread
    · next hi =>
      rw [if_neg hi]
      split at hread
      · next hb =>
        rw [if_pos hb]
        exact hread
      · next hb =>
        rw [if_neg hb]
        exact .inl hread
  · refine ⟨outcomes h, by simp, hk.unended, hk.buffer, ?_⟩
    simpa using hk.results
  · exact @hread (.ok (b :: bs)) nofun

/-- **The steps of a poll** lead from what is known to what is known, unless the registration cannot
be taken back at the end. -/
theorem known_tick (hk : Known h f (some (w, m))) (ha : e.reactor.failure = none)
    (hp : ∀ x, .unprepared x ∉ tidings opening w ⟨f, m⟩ e) :
    Known (h ++ tidings opening w ⟨f, m⟩ e) (tick opening w ⟨f, m⟩ e).1.future
        (some (w, (tick opening w ⟨f, m⟩ e).1.moment)) ∨
      Lapsed (h ++ tidings opening w ⟨f, m⟩ e) := by
  cases m with
  | opening =>
    left
    have hnone := failure?_eq_none (m := (tick opening w ⟨f, .opening⟩ e).1.moment) hp
    rw [tidings]
    dsimp only
    rw [hnone]
    dsimp only [tick] at hnone ⊢
    split at hnone
    · cases hnone
    · next owned _ _ =>
      show Underway (h ++ []) [] { f with started := true, owned }
      rw [List.append_nil]
      exact hk.begun owned
  | unblocking => exact .inl (known_preparing hp hk)
  | checking => exact .inl (known_preparing hp hk)
  | adding =>
    have hn : Underway h [] { f with registered := true } :=
      ⟨hk.started, hk.finished, hk.unended, hk.buffer, hk.results⟩
    exact .inl (known_preparing hp hn)
  | arming => exact .inl (known_preparing hp hk)
  | reading => exact .inl (known_read hk)
  | rearming =>
    left
    rw [tidings, List.append_nil, tick, Environment.setWaker_of_alive ha]
    exact .inl hk
  | forgetting =>
    left
    rw [tidings, List.append_nil]
    exact hk
  | removing =>
    obtain ⟨rs, hk⟩ := hk
    dsimp only [tidings, tick]
    rcases e.onSystem _ with ⟨x | u, e'⟩
    · right
      show Lapsed (h ++ [.unremoved x])
      exact ⟨by simp [hk.outcomes], x, by simp⟩
    · left
      right
      show Resolved (h ++ []) [.ok (.ready f.buffer)] { f with finished := true, buffer := [] }
      rw [List.append_nil, hk.buffer]
      refine ⟨rfl, rs, 0, hk.outcomes, hk.unended, ?_⟩
      rw [hk.results]
      rfl
  | complete r =>
    left
    rw [tidings, List.append_nil]
    exact hk

end Reception

/-- A poll begins with what is known between the polls. -/
theorem Reception.known_begin (hk : Known h f none) : Known h f (some (w, f.begin.moment)) := by
  rw [begin]
  dsimp only
  obtain hk | hk | hk := hk
  · rw [if_neg (by simp [hk.finished]), if_neg (by simp [hk.started])]
    exact hk
  · rw [if_neg (by simp [hk.finished]), if_pos hk.started]
    exact hk
  · rw [if_pos hk.finished]
    obtain ⟨rs, k, houtcomes, hunended, hresults⟩ := hk.results
    rw [List.append_nil] at hresults
    refine .inr ⟨hk.finished, rs, k + 1, houtcomes, hunended, ?_⟩
    rw [hresults, List.replicate_succ', List.append_assoc]
    rfl

/-- A poll ends with what is known between the polls. -/
theorem Reception.known_finish {r : Polled Bytes} (hk : Known h f (some (w, .complete r))) :
    Known (h ++ [.ended r]) f none := by
  obtain hk | hk := hk
  · exact .inr (.inl ⟨hk.started, hk.finished, by simpa using hk.unended, by simpa using hk.buffer,
      by simpa using hk.results⟩)
  · refine .inr (.inr ⟨hk.finished, ?_⟩)
    simpa using hk.results

end

/-! ### Runs of a new future -/

namespace Reception

variable {opening : Opening K} {x₀ x x' : Reception K} {h told : List Tiding} {w : Waker}

/-- **What does not change** in the run of a future that reads so many bytes at once. -/
structure Steady (size : Nat) (t : Token) (h : List Tiding) (x : Reception K) : Prop where
  /-- The reactor has not failed. -/
  alive : x.environment.reactor.failure = none
  /-- The number of bytes is the same. -/
  chunk : x.future.chunk = size
  /-- The token is the same. -/
  token : x.future.token = t
  /-- Every read has asked for that many bytes. -/
  asked : ∀ n o, .read n o ∈ h → n = size

omit [Kernel K] in
theorem Steady.mono {size : Nat} {t : Token} {environment : Environment K}
    (hs : Steady size t h x) (ha : environment.reactor.failure = none)
    (poll : Option (Waker × Moment)) (hnone : ∀ n o, .read n o ∉ told) :
    Steady size t (h ++ told) { x with environment, poll } :=
  ⟨ha, hs.chunk, hs.token, fun n o hmem ↦
    (List.mem_append.1 hmem).elim (hs.asked n o) fun hm ↦ absurd hm (hnone n o)⟩

/-- A step of a poll reads as many bytes as the future is to read at once. -/
theorem count_of_mem_tidings {f : ReadToEnd} {m : Moment} {e : Environment K} {n : Nat}
    {o : Except Errno Bytes} (hmem : .read n o ∈ Reading.tidings opening w ⟨f, m⟩ e) :
    n = f.chunk := by
  cases m <;> simp_all [Reading.tidings]

/-- **Every step** keeps what does not change. -/
theorem Move.steady {size : Nat} {t : Token} (hm : Move opening x told x')
    (hs : Steady size t h x) : Steady size t (h ++ told) x' := by
  cases hm with
  | other he => exact hs.mono he _ (by simp)
  | begin w hp => exact hs.mono hs.alive _ (by simp)
  | tick hp =>
    refine ⟨Reading.alive_tick hs.alive, Reading.chunk_tick.trans hs.chunk,
      (Reading.token_tick _ _).trans hs.token, fun n o hmem ↦ ?_⟩
    obtain hmem | hmem := List.mem_append.1 hmem
    · exact hs.asked n o hmem
    · exact (count_of_mem_tidings hmem).trans hs.chunk
  | finish hp => exact hs.mono hs.alive _ (by simp)

/-- **Every step** keeps what is known of the future, unless it fails to take the registration back
at the end of the file. -/
theorem Move.known (hm : Move opening x told x') (ha : x.environment.reactor.failure = none)
    (hp : ∀ e, .unprepared e ∉ told) (hk : Known h x.future x.poll) :
    Known (h ++ told) x'.future x'.poll ∨ Lapsed (h ++ told) := by
  cases hm with
  | other he =>
    rw [List.append_nil]
    exact .inl hk
  | begin w hpoll =>
    rw [hpoll] at hk
    rw [List.append_nil]
    exact .inl (known_begin hk)
  | tick hpoll =>
    rw [hpoll] at hk
    exact known_tick hk ha hp
  | finish hpoll =>
    rw [hpoll] at hk
    exact .inl (known_finish hk)

section

variable {owned : Owned} {requested : Nat} {e₀ : Environment K}

omit [Kernel K] in
theorem untouched_start : Untouched [] (start owned requested e₀).future := by
  unfold start create
  dsimp only
  split <;> exact ⟨rfl, rfl, rfl, rfl, rfl⟩

omit [Kernel K] in
theorem steady_start (ha : e₀.reactor.failure = none) :
    Steady (Config.chunkSize requested e₀.config.readBuffer.value)
      (start owned requested e₀).future.token [] (start owned requested e₀) where
  alive := by
    unfold start create
    dsimp only
    split <;> exact ha
  chunk := chunk_create owned requested e₀
  token := rfl
  asked := by simp

theorem Run.steady (hr : Run opening (start owned requested e₀) h x)
    (ha : e₀.reactor.failure = none) :
    Steady (Config.chunkSize requested e₀.config.readBuffer.value)
      (start owned requested e₀).future.token h x := by
  induction hr with
  | refl => exact steady_start ha
  | step _ hm ih => exact hm.steady ih

theorem Run.known (hr : Run opening (start owned requested e₀) h x)
    (ha : e₀.reactor.failure = none) (hp : ∀ e, .unprepared e ∉ h) :
    Known h x.future x.poll ∨ Lapsed h := by
  induction hr with
  | refl => exact .inl (.inl untouched_start)
  | step hr hm ih =>
    have ih := ih fun e he ↦ hp e (by simp [he])
    rcases ih with hk | hl
    · exact hm.known (hr.steady ha).alive (fun e he ↦ hp e (by simp [he])) hk
    · exact .inr hl.append

end

/-! ### Polls that are left alone -/

/-- No step of a poll tells of its end. -/
theorem results_tidings (w : Waker) (p : Reading) (e : Environment K) :
    results (Reading.tidings opening w p e) = [] := by
  have htell (tell : Failure → Tiding) (htell : ∀ y, (tell y).result? = none)
      (failure? : Option Failure) : results (failure?.map tell).toList = [] := by
    cases failure? <;> simp [results, htell]
  unfold Reading.tidings
  dsimp only
  split
  case h_1 => rfl
  case h_2 => exact htell _ (fun _ ↦ rfl) _
  case h_6 => exact htell _ (fun _ ↦ rfl) _
  all_goals rfl

/-- A poll that is left alone makes its steps. -/
theorem Run.play {m : Moment} {y : Reading × Environment K} (hr : Run opening x₀ h x)
    (hp : x.poll = some (w, m)) (hy : Plays opening w (⟨x.future, m⟩, x.environment) y) :
    ∃ told, Run opening x₀ (h ++ told) ⟨y.2, y.1.future, some (w, y.1.moment)⟩ ∧
      results told = [] := by
  obtain ⟨n, rfl⟩ := hy
  induction n generalizing h x m with
  | zero =>
    obtain ⟨e, f, p⟩ := x
    obtain rfl : p = some (w, m) := hp
    exact ⟨[], (List.append_nil h).symm ▸ hr, rfl⟩
  | succ n ih =>
    obtain ⟨told, hr', htold⟩ := ih (hr.step (.tick hp)) rfl
    rw [List.append_assoc] at hr'
    exact ⟨_, hr', by rw [results_append, results_tidings, htold, List.nil_append]⟩

/-- **A call of the function** is a poll whose steps follow each other at once. -/
theorem Run.call (hr : Run opening x₀ h x) (hp : x.poll = none) (w : Waker) :
    ∃ told,
      Run opening x₀ (h ++ told) ⟨(x.future.poll opening w x.environment).2.2,
        (x.future.poll opening w x.environment).2.1, none⟩ ∧
      results told = [(x.future.poll opening w x.environment).1] := by
  obtain ⟨told, hplayed, htold⟩ :=
    (hr.step (.begin w hp)).play rfl (plays_poll x.future opening w x.environment)
  rw [List.append_nil] at hplayed
  refine ⟨told ++ [.ended (x.future.poll opening w x.environment).1], ?_, by simp [htold]⟩
  rw [← List.append_assoc]
  exact hplayed.step (.finish rfl)

/-! ### What the polls result in -/

/-- What occurs only at the end of a list stands at the end. -/
theorem eq_of_append_cons_eq_concat {A : Type} {a : A} {as bs rest : List A}
    (heq : as ++ a :: rest = bs ++ [a]) (hbs : a ∉ bs) : as = bs ∧ rest = [] := by
  rcases List.eq_nil_or_concat rest with rfl | ⟨rest, b, rfl⟩
  · exact ⟨(List.append_inj' heq rfl).1, rfl⟩
  · rw [List.concat_eq_append, ← List.cons_append, ← List.append_assoc] at heq
    obtain ⟨rfl, -⟩ := List.append_inj' heq rfl
    simp at hbs

/-- **What the polls of a future result in** that reads so many bytes at once, when none is in
progress. -/
structure Delivers (opening : Opening K) (size : Nat) (x₀ x : Reception K) (h : List Tiding) :
    Prop where
  /-- No read asks for nothing, which a read would answer as if it were the end of the file. -/
  positive : 0 < size
  /-- Every read has asked for the same number of bytes. -/
  asked : ∀ n o, .read n o ∈ h → n = size
  /-- Until a read has reached the end of the file, every read that has found nothing and every read
  that has failed has ended a poll, nothing else has, and no poll has resulted in a value. -/
  before : .ok [] ∉ outcomes h →
    results h = pauses x.future.owned.number (outcomes h) ∧
      ∀ bytes, .ok (.ready bytes) ∉ results h
  /-- Once a read has reached the end of the file and the registration has been taken back, there is
  no other read. That poll has resulted in what the reads before have read, and every later one in a
  refusal. -/
  after : ∀ rs rest, outcomes h = rs ++ .ok [] :: rest → (∀ e, .unremoved e ∉ h) →
    rest = [] ∧ ∃ k, results h = pauses x.future.owned.number rs ++
      .ok (.ready (content rs)) :: List.replicate k (refusal x.future.token)
  /-- A call of the function is one more poll. -/
  call : ∀ w, ∃ told,
    Run opening x₀ (h ++ told) ⟨(x.future.poll opening w x.environment).2.2,
      (x.future.poll opening w x.environment).2.1, none⟩ ∧
    results told = [(x.future.poll opening w x.environment).1]

omit [Kernel K] in
/-- Before the end of the file, the results are those of the outcomes. -/
theorem Known.results (hk : Known h x.future none) (hunended : .ok [] ∉ outcomes h) :
    results h = pauses x.future.owned.number (outcomes h) := by
  obtain hk | hk | hk := hk
  · simp [hk.results, hk.outcomes, pauses]
  · simpa using hk.results
  · obtain ⟨rs, -, houtcomes, -⟩ := hk.results
    simp [houtcomes] at hunended

omit [Kernel K] in
/-- The end of the file has been read: the future has resulted in the stream. -/
theorem Known.resolved (hk : Known h x.future none) (hended : .ok [] ∈ outcomes h) :
    Resolved h [] x.future := by
  obtain hk | hk | hk := hk
  · simp [hk.outcomes] at hended
  · exact absurd hended hk.unended
  · exact hk

/-- **A future returns exactly the stream.** -/
theorem Run.delivers {owned : Owned} {requested : Nat} {e₀ : Environment K}
    (hr : Run opening (start owned requested e₀) h x) (ha : e₀.reactor.failure = none)
    (hpoll : x.poll = none) (hp : ∀ e, .unprepared e ∉ h) :
    Delivers opening (Config.chunkSize requested e₀.config.readBuffer.value)
      (start owned requested e₀) x h where
  positive := chunkSize_pos _ _
  asked := (hr.steady ha).asked
  before hunended := by
    have hk := (hr.known ha hp).resolve_right fun hl ↦ hunended hl.1
    rw [hpoll] at hk
    have hresults := Known.results hk hunended
    exact ⟨hresults, fun bytes ↦ hresults ▸ not_ready_mem_pauses⟩
  after rs rest houtcomes hremoved := by
    have hk := (hr.known ha hp).resolve_right fun ⟨_, e, he⟩ ↦ hremoved e he
    rw [hpoll] at hk
    obtain ⟨rs', k, houtcomes', hunended, hresults⟩ :=
      (Known.resolved hk (by simp [houtcomes])).results
    obtain ⟨rfl, rfl⟩ := eq_of_append_cons_eq_concat (houtcomes.symm.trans houtcomes') hunended
    rw [List.append_nil] at hresults
    exact ⟨rfl, k, hresults⟩
  call := hr.call hpoll

/-! ### An example -/

/-- A pipe that nobody has written to, a poller, and a configuration that asks for reads of zero
bytes. -/
def pond : Environment Host where
  kernel := (Host.createPoller (Host.openPipe default).2).2
  config := (Config.set {} [Bytes.utf8 "http", Bytes.utf8 "read_buffer_size"] (.unsigned 0)).2
  reactor := { poller := 102 }

/-- The waker that the polls are handed. -/
def angler : Waker := ⟨some ⟨0⟩, 7, some ⟨0⟩⟩

/-- Somebody writes into the pipe, and closes it. -/
def poured (e : Environment Host) : Environment Host :=
  { e with kernel := (Host.close (Host.write e.kernel 101 [104, 105]).2 101).2 }

/-- What happens when the pipe is written to and closed after the first poll: there is nothing to
read at first, then two bytes and the end. A third poll comes too late. -/
def haul : List Tiding :=
  [.read 4096 (.error .wouldBlock), .ended (.ok .pending), .read 4096 (.ok [104, 105]),
    .read 4096 (.ok []), .ended (.ok (.ready [104, 105])), .ended (refusal 1)]

/-- The bytes are returned, although reads of zero bytes are both requested and configured. -/
theorem delivers_pond :
    ∃ x : Reception Host, Run .none (start ⟨100⟩ 0 pond) haul x ∧
      Delivers .none 4096 (start ⟨100⟩ 0 pond) x haul := by
  have hpour {h : List Tiding} {x : Reception Host} (hr : Run .none (start ⟨100⟩ 0 pond) h x)
      (ha : x.environment.reactor.failure = none) :=
    hr.step (.other (e := poured x.environment) ha)
  have hstart : Run .none (start ⟨100⟩ 0 pond) [] (start ⟨100⟩ 0 pond) := .refl
  have hbegun := hstart.step (.begin angler rfl)
  have hopened := hbegun.step (.tick rfl)
  have hunblocked := hopened.step (.tick rfl)
  have hchecked := hunblocked.step (.tick rfl)
  have hadded := hchecked.step (.tick rfl)
  have harmed := hadded.step (.tick rfl)
  have hread := harmed.step (.tick rfl)
  have hleft := hread.step (.tick rfl)
  have hpending := hleft.step (.finish rfl)
  have hpoured := hpour hpending rfl
  have hagain := hpoured.step (.begin angler rfl)
  have hdata := hagain.step (.tick rfl)
  have hend := hdata.step (.tick rfl)
  have hforgotten := hend.step (.tick rfl)
  have hremoved := hforgotten.step (.tick rfl)
  have hready := hremoved.step (.finish rfl)
  have hlate := hready.step (.begin angler rfl)
  have hrefused : Run _ _ haul _ := hlate.step (.finish rfl)
  exact ⟨_, hrefused, hrefused.delivers rfl rfl (by simp [haul])⟩

end Reception

end ReadToEnd

end TaskRuntime
