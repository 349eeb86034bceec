import TaskRuntime.Kernel.Host
import TaskRuntime.Proofs.ReactorFailure

/-!
# A dead reactor strands nobody

The polls of one future that reads are followed step by step, while everybody else does what he
likes with tokens other than the future's own (`ReadToEnd.Stage`): the steps of a poll are steps of
the reactor's surroundings like all others (`Stage.Move.run`).

## Why nobody is stranded

A poll that leaves the future pending leaves its waker as the last thing it does, and one that is
ready has read the end of the file; `Stage.Follows` says so of the poll in progress and of the last
one that has ended. If the poll left its waker before the failure, the waker was stored, so its copy
is woken. After the failure, no waker can be left, so a poll that begins then does not leave the
future pending.
-/

namespace TaskRuntime

namespace Report

/-- A report of a poll of the future, or about the waker of its token. -/
def Own (t : Token) (k : Report) : Prop := k.Private ∨ k.Touches t

/-- Replaces or drops the waker of a token, or begins a poll. -/
def Renews (t : Token) (k : Report) : Prop := k.Touches t ∨ k.Begins

theorem Begins.own {k : Report} (hk : k.Begins) (t : Token) : k.Own t := by
  cases k <;> first | exact hk.elim | exact .inl trivial

theorem Renews.own {t : Token} {k : Report} (hk : k.Renews t) : k.Own t :=
  hk.elim .inr fun hk ↦ hk.own t

end Report

open Reactor (Scope)

namespace ReadToEnd

variable {K : Type}

/-- A future, the poll in progress, if there is one, and what is around it. -/
structure Stage (K : Type) where
  /-- The reactor, and what its loop works on. -/
  scope : Scope K
  /-- The future. -/
  future : ReadToEnd
  /-- The waker of the poll in progress, and where the poll is. -/
  poll : Option (Waker × Moment) := none

/-- The end of the file has been reached. -/
def Moment.Emptied : Moment → Prop
  | forgetting => True
  | removing => True
  | complete (.ok (.ready _)) => True
  | _ => False

/-- **What a poll has told** by the time it is somewhere: one that leaves the future pending has
left its waker, and one that is ready has read the end of the file. -/
structure Upholds (t : Token) (w : Waker) (m : Moment) (h : List Report) : Prop where
  /-- The poll has begun. -/
  began : Since (· = .began w) Report.Begins h
  /-- It leaves its waker before it leaves the future pending. -/
  pending : m = .complete (.ok .pending) → Since (· = .left t w) (Report.Renews t) h
  /-- It reads the end of the file before it is ready. -/
  emptied : m.Emptied → Since (· = .emptied) Report.Begins h

/-- What the poll in progress has told, or else the last poll. -/
def Follows (t : Token) (h : List Report) : Option (Waker × Moment) → Prop
  | none => ∀ r, Since (· = .ended r) Report.Begins h → ∃ w, Upholds t w (.complete r) h
  | some (w, m) => Upholds t w m h ∧ ∀ r, ¬ Since (· = .ended r) Report.Begins h

variable {t : Token} {w : Waker} {m m' : Moment} {h n : List Report}

/-- What others do does not matter to a poll. -/
theorem Upholds.others (hu : Upholds t w m h) (hn : ∀ k ∈ n, ¬ k.Own t) :
    Upholds t w m (h ++ n) where
  began := since_append.2 (.inr ⟨hu.began, fun k hk hb ↦ hn k hk (hb.own t)⟩)
  pending hm := since_append.2 (.inr ⟨hu.pending hm, fun k hk hb ↦ hn k hk hb.own⟩)
  emptied hm := since_append.2 (.inr ⟨hu.emptied hm, fun k hk hb ↦ hn k hk (hb.own t)⟩)

/-- The poll goes on. -/
theorem Upholds.next (hu : Upholds t w m h) (hn : ∀ k ∈ n, ¬ k.Begins)
    (hp : m' = .complete (.ok .pending) → m = m' ∧ n = [] ∨ n = [.left t w])
    (he : m'.Emptied → m.Emptied ∨ n = [.emptied]) : Upholds t w m' (h ++ n) where
  began := since_append.2 (.inr ⟨hu.began, hn⟩)
  pending hm := by
    obtain ⟨rfl, rfl⟩ | rfl := hp hm
    · simpa using hu.pending hm
    · exact since_concat.2 (.inl rfl)
  emptied hm := by
    obtain hm | rfl := he hm
    · exact since_append.2 (.inr ⟨hu.emptied hm, hn⟩)
    · exact since_concat.2 (.inl rfl)

theorem begin_ne_pending (f : ReadToEnd) : f.begin.moment ≠ .complete (.ok .pending) := by
  rw [begin]
  dsimp only
  split
  · simp
  · split <;> simp

theorem not_emptied_begin (f : ReadToEnd) : ¬ f.begin.moment.Emptied := by
  rw [begin]
  dsimp only
  split
  · exact not_false
  · split <;> exact not_false

/-! ### Steps -/

variable [Kernel K] (opening : Opening K)

namespace Reading

/-- What a step of a poll tells. -/
def tells (w : Waker) (p : Reading) (e : Environment K) : List Report :=
  match p.moment with
  | .checking => Report.verdict .admitted e.reactor.check
  | .arming => Report.verdict (.left p.future.token w) (e.setWaker p.future.token w).1
  | .rearming => Report.verdict (.left p.future.token w) (e.setWaker p.future.token w).1
  | .reading =>
    match (Kernel.read e.kernel p.future.owned.number p.future.chunk).1 with
    | .ok [] => [.emptied]
    | _ => []
  | .forgetting => [.forgotten p.future.token]
  | _ => []

end Reading

namespace Stage

/-- The poll in progress makes a step. -/
def tick (x : Stage K) (w : Waker) (m : Moment) : Stage K :=
  let (p, e) := Reading.tick opening w ⟨x.future, m⟩ x.scope.environment
  { scope := { x.scope with environment := e }, future := p.future, poll := some (w, p.moment) }

/-- **One atomic step** of a poll of the future, or of anybody else. -/
inductive Move : Stage K → List Report → Stage K → Prop
  /-- Somebody else makes a step, with tokens of his own. -/
  | other {x n scope} (hm : Scope.Move x.scope n scope)
      (hn : ∀ k ∈ n, ¬ k.Own x.future.token) : Move x n { x with scope }
  /-- A poll begins. -/
  | begin {x} (w : Waker) (hp : x.poll = none) :
      Move x [.began w] { x with poll := some (w, x.future.begin.moment) }
  /-- The poll makes a step. -/
  | tick {x w m} (hp : x.poll = some (w, m)) :
      Move x (Reading.tells w ⟨x.future, m⟩ x.scope.environment) (x.tick opening w m)
  /-- The poll ends. -/
  | finish {x w r} (hp : x.poll = some (w, .complete r)) : Move x [.ended r] { x with poll := none }

/-- Any number of steps, with what they tell. -/
inductive Run (x₀ : Stage K) : List Report → Stage K → Prop
  /-- No step. -/
  | refl : Run x₀ [] x₀
  /-- One more step. -/
  | step {h x n x'} (hr : Run x₀ h x) (hm : Move opening x n x') : Run x₀ (h ++ n) x'

end Stage

/-! ### What a step of a poll does -/

namespace Reading

variable {opening} {f : ReadToEnd} {e : Environment K}

omit [Kernel K] in
/-- What is told of an operation that may be refused is not told of the beginning or the end of a
poll, unless the operation is one. -/
theorem verdict_inner {r : Except Failure Unit} {k k' : Report} (hk : k ∈ Report.verdict k' r)
    (hk' : ¬ k'.Begins ∧ ∀ r, k' ≠ .ended r) : ¬ k.Begins ∧ ∀ r, k ≠ .ended r := by
  rcases r with x | u
  · obtain rfl := List.mem_singleton.1 hk
    exact ⟨not_false, fun r ↦ nofun⟩
  · obtain rfl := List.mem_singleton.1 hk
    exact hk'

/-- What a step tells is not told of the beginning or the end of a poll. -/
theorem tells_inner {k : Report} (hk : k ∈ tells w ⟨f, m⟩ e) : ¬ k.Begins ∧ ∀ r, k ≠ .ended r := by
  cases m with
  | checking => exact verdict_inner hk ⟨not_false, fun r ↦ nofun⟩
  | arming => exact verdict_inner hk ⟨not_false, fun r ↦ nofun⟩
  | rearming => exact verdict_inner hk ⟨not_false, fun r ↦ nofun⟩
  | forgetting =>
    obtain rfl := List.mem_singleton.1 hk
    exact ⟨not_false, fun r ↦ nofun⟩
  | reading =>
    dsimp only [tells] at hk
    split at hk
    · obtain rfl := List.mem_singleton.1 hk
      exact ⟨not_false, fun r ↦ nofun⟩
    · cases hk
  | _ => cases hk

/-- **A step of a poll** keeps what the poll upholds. -/
theorem upholds_tick (hu : Upholds f.token w m h) :
    Upholds f.token w (tick opening w ⟨f, m⟩ e).1.moment (h ++ tells w ⟨f, m⟩ e) := by
  have hno : ∀ k ∈ tells w ⟨f, m⟩ e, ¬ k.Begins := fun k hk ↦ (tells_inner hk).1
  -- Most steps lead to a moment that neither leaves the future pending nor is near its end.
  have hinner {m' : Moment} (hp : m' ≠ .complete (.ok .pending)) (he : ¬ m'.Emptied) :
      Upholds f.token w m' (h ++ tells w ⟨f, m⟩ e) :=
    hu.next hno (fun hm ↦ absurd hm hp) fun hm ↦ absurd hm he
  have hthen (next : ReadToEnd × Moment) (r : Except Failure Unit × Environment K)
      (hp : next.2 ≠ .complete (.ok .pending)) (he : ¬ next.2.Emptied) :
      Upholds f.token w (andThen f next r).1.moment (h ++ tells w ⟨f, m⟩ e) := by
    rcases r with ⟨x | u, e⟩
    · exact hinner nofun not_false
    · exact hinner hp he
  cases m with
  | opening =>
    dsimp only [tick]
    split
    · exact hinner nofun not_false
    · exact hinner nofun not_false
  | unblocking => exact hthen (f, .checking) _ nofun not_false
  | checking => exact hthen (f, .adding) _ nofun not_false
  | adding => exact hthen ({ f with registered := true }, .arming) _ nofun not_false
  | arming => exact hthen (f, .reading) _ nofun not_false
  | reading =>
    dsimp only [tick, read]
    split
    · next k hread =>
      refine hu.next hno nofun fun _ ↦ .inr ?_
      rw [tells, hread]
    · exact hinner nofun not_false
    · split
      · exact hinner nofun not_false
      · split
        · exact hinner nofun not_false
        · exact hinner nofun not_false
  | rearming =>
    dsimp only [tick]
    rcases hset : e.setWaker f.token w with ⟨x | u, e'⟩
    · exact hinner nofun not_false
    · refine hu.next hno (fun _ ↦ .inr ?_) fun hm ↦ hm.elim
      rw [tells, hset]
      rfl
  | forgetting => exact hu.next hno nofun fun _ ↦ .inl trivial
  | removing =>
    dsimp only [tick]
    rcases e.onSystem _ with ⟨x | u, e'⟩
    · exact hinner nofun not_false
    · exact hu.next hno nofun fun _ ↦ .inl trivial
  | complete r => exact hu.next hno (fun hm ↦ .inl ⟨rfl, rfl⟩) .inl

end Reading

namespace Stage

variable {opening} {x₀ x x' : Stage K} {before after : List Report} {reason : Bytes}

/-- The steps of a poll are steps of the reactor's surroundings. -/
theorem tick_run (x : Stage K) (w : Waker) (m : Moment) :
    Scope.Run x.scope (Reading.tells w ⟨x.future, m⟩ x.scope.environment)
      (x.tick opening w m).scope := by
  obtain ⟨⟨e, s, watch⟩, f, p⟩ := x
  have hsystem (t : System K) : Scope.Run ⟨e, s, watch⟩ [] ⟨{ e with toSystem := t }, s, watch⟩ :=
    .single (.system t)
  -- What a step leaves of the environment does not depend on what comes after the operation.
  have hthen (next : ReadToEnd × Moment) (r : Except Failure Unit × Environment K)
      {n : List Report} (hr : Scope.Run ⟨e, s, watch⟩ n ⟨r.2, s, watch⟩) :
      Scope.Run ⟨e, s, watch⟩ n ⟨(Reading.andThen f next r).2, s, watch⟩ := by
    rw [Reading.andThen_snd]
    exact hr
  cases m with
  | opening =>
    show Scope.Run _ [] ⟨(Reading.tick opening w ⟨f, .opening⟩ e).2, s, watch⟩
    dsimp only [Reading.tick, Environment.onSystem, Environment.note]
    generalize opening f.owned _ = r
    rcases r with ⟨x | owned, t⟩
    · exact hsystem t
    · exact hsystem t
  | unblocking => exact hthen _ _ (hsystem _)
  | checking => exact hthen _ _ (.single .check)
  | adding => exact hthen _ _ (hsystem _)
  | arming => exact hthen _ _ (.single (.leave f.token w))
  | reading =>
    show Scope.Run _ (Reading.tells w ⟨f, .reading⟩ e) ⟨(Reading.read f e).2, s, watch⟩
    dsimp only [Reading.tells, Reading.read]
    rcases Kernel.read e.kernel f.owned.number f.chunk with ⟨x | ⟨_ | ⟨b, bs⟩⟩, k⟩
    · dsimp only
      split
      · exact hsystem _
      · split
        · exact hsystem _
        · exact hsystem _
    · exact (hsystem _).trans (.single (.aside trivial))
    · exact hsystem _
  | rearming => exact hthen _ _ (.single (.leave f.token w))
  | forgetting => exact .single (.forget f.token)
  | removing => exact hthen _ _ (hsystem _)
  | complete r => exact .refl

theorem Move.run (hm : Move opening x n x') : Scope.Run x.scope n x'.scope := by
  cases hm with
  | other hm hn => exact .single hm
  | begin w hp => exact .single (.aside trivial)
  | tick hp => exact tick_run x _ _
  | finish hp => exact .single (.aside trivial)

/-- What is told of a future and its surroundings is told of the surroundings. -/
theorem Run.run (hr : Run opening x₀ h x) : Scope.Run x₀.scope h x.scope := by
  induction hr with
  | refl => exact .refl
  | step _ hm ih => exact ih.trans hm.run

/-- **A step** of anybody keeps what is known of the poll in progress, or else of the last poll. -/
theorem Move.follows (hf : Follows x.future.token h x.poll) (hm : Move opening x n x') :
    Follows x'.future.token (h ++ n) x'.poll := by
  cases hm with
  | @other _ scope hm hn =>
    have hends (r : Polled Bytes)
        (hs : Since (· = .ended r) Report.Begins (h ++ n)) :
        Since (· = .ended r) Report.Begins h := by
      refine (since_append_of_silent ?_ fun k hk hb ↦ hn k hk (hb.own _)).1 hs
      rintro k hk rfl
      exact hn _ hk (.inl trivial)
    show Follows x.future.token (h ++ n) x.poll
    rcases hp : x.poll with _ | ⟨w, m⟩
    · rw [hp] at hf
      intro r hs
      obtain ⟨w, hu⟩ := hf r (hends r hs)
      exact ⟨w, hu.others hn⟩
    · rw [hp] at hf
      exact ⟨hf.1.others hn, fun r hs ↦ hf.2 r (hends r hs)⟩
  | begin w hp =>
    refine ⟨⟨since_concat.2 (.inl rfl), fun hm ↦ ?_, fun hm ↦ ?_⟩, fun r hs ↦ ?_⟩
    · exact absurd hm (begin_ne_pending x.future)
    · exact absurd hm (not_emptied_begin x.future)
    · exact (since_concat.1 hs).elim nofun fun hs ↦ hs.2 trivial
  | @tick w m hp =>
    rw [hp] at hf
    obtain ⟨hu, hr⟩ := hf
    show Follows (Reading.tick opening w ⟨x.future, m⟩ x.scope.environment).1.future.token _
      (some (w, _))
    rw [Reading.token_tick]
    refine ⟨Reading.upholds_tick hu, fun r hs ↦ ?_⟩
    rcases since_append.1 hs with hs | ⟨hs, -⟩
    · obtain ⟨k, hk, hkr⟩ := hs.exists_mem
      exact (Reading.tells_inner hk).2 r hkr
    · exact hr r hs
  | @finish w r hp =>
    rw [hp] at hf
    intro r' hs
    rcases since_concat.1 hs with heq | ⟨hs, -⟩
    · injection heq with heq
      subst heq
      have hno : ∀ k ∈ [Report.ended r], ¬ k.Begins := by simp [Report.Begins]
      have hquiet : ∀ k ∈ [Report.ended r], ¬ k.Renews x.future.token := by
        simp [Report.Renews, Report.Touches, Report.Begins]
      exact ⟨w, since_append.2 (.inr ⟨hf.1.began, hno⟩),
        fun hm ↦ since_append.2 (.inr ⟨hf.1.pending hm, hquiet⟩),
        fun hm ↦ since_append.2 (.inr ⟨hf.1.emptied hm, hno⟩)⟩
    · exact absurd hs (hf.2 r')

theorem Run.follows (hr : Run opening x₀ h x) (hp : x₀.poll = none) :
    Follows x.future.token h x.poll := by
  induction hr with
  | refl =>
    rw [hp]
    exact fun r hs ↦ absurd hs not_since_nil
  | step _ hm ih => exact hm.follows ih

end Stage

/-! ### The failure -/

/-- A poll that nobody interrupts does not leave its future pending, once the reactor has failed. -/
theorem poll_ne_pending {e : Environment K} {reason : Bytes}
    (hf : e.reactor.failure = some reason) (f : ReadToEnd) (w : Waker) :
    (f.poll opening w e).1 ≠ .ok .pending := by
  have hconclude (f : ReadToEnd) (k : K) (pause : Pause) :
      (f.conclude w { e with kernel := k } pause).1 ≠ .ok .pending := by
    cases pause with
    | endOfFile =>
      dsimp only [conclude]
      split <;> simp
    | wouldBlock =>
      dsimp only [conclude, Environment.note]
      rw [Environment.setWaker_of_failed (by exact hf)]
      simp
    | failed x => rintro ⟨⟩
  rw [poll]
  split
  · simp
  · by_cases hs : f.started
    · rw [prepare, if_pos hs]
      exact hconclude _ _ _
    · -- The first poll is refused at registration, if not before.
      rw [prepare, if_neg hs]
      dsimp only [Environment.onSystem, Environment.note]
      generalize opening f.owned _ = r
      rcases r with ⟨x | owned, s⟩
      · simp
      · dsimp only
        rcases s.setNonblocking owned with ⟨x | u, s⟩
        · simp
        · dsimp only
          rw [Environment.register_of_failed (by exact hf)]
          simp

end ReadToEnd

namespace Reactor.Scope

variable {K : Type} [Kernel K]

/-- What is known of a reactor that has failed, for the reason that it has told. -/
structure Failed (before : List Report) (reason : Bytes) (after : List Report) (x : Scope K) :
    Prop where
  /-- Every waker that was left, and neither replaced nor dropped, is woken exactly once. -/
  woken : x.watch = .stopped → ∀ t w, Since (· = .left t w) (Report.Touches t) before →
    (alarms after).filter (·.1 = t) = [(t, w)]
  /-- Nobody has left a waker or been admitted since, and who was refused was told the reason. -/
  told : ∀ k ∈ after, k.Dead reason
  /-- Nobody can leave a waker. -/
  setWaker : ∀ t w, x.environment.setWaker t w =
    (.error (.misuse .reactorFailed (some reason)), x.environment)
  /-- Nobody can register a source. -/
  register : ∀ source interests t, x.environment.register source interests t =
    (.error (.misuse .reactorFailed (some reason)), x.environment)
  /-- No poll that nobody interrupts leaves a future pending. -/
  poll : ∀ (opening : ReadToEnd.Opening K) (f : ReadToEnd) (w : Waker),
    (f.poll opening w x.environment).1 ≠ .ok .pending

theorem Dead.failed {before after : List Report} {reason : Bytes} {x : Scope K}
    (hd : Dead before reason after x) : Failed before reason after x where
  woken hw t w hs := by
    obtain ⟨stored, rest, hstored, hrest, hcopies⟩ := hd.copies
    rw [hw] at hrest
    cases hrest
    rw [List.append_nil] at hcopies
    rw [hcopies]
    exact Table.filter_entries (hstored t w hs)
  told := hd.told
  setWaker := Environment.setWaker_of_failed hd.failure
  register := Environment.register_of_failed hd.failure
  poll opening := ReadToEnd.poll_ne_pending opening hd.failure

end Reactor.Scope

namespace ReadToEnd

variable {K : Type} [Kernel K] {opening : Opening K} {t : Token} {w : Waker}
  {h before after : List Report} {reason : Bytes}

namespace Stage

variable {x₀ x : Stage K}

/-- After the failure, no waker has been left. -/
theorem since_left_before (hd : ∀ k ∈ after, k.Dead reason)
    (hs : Since (· = .left t w) (Report.Renews t) (before ++ .failed reason :: after)) :
    Since (· = .left t w) (Report.Renews t) before ∧ ∀ k ∈ after, ¬ k.Renews t := by
  rcases since_append.1 hs with hs | ⟨hs, hno⟩
  · obtain ⟨k, hk, rfl⟩ := hs.exists_mem
    rcases List.mem_cons.1 hk with hk | hk
    · cases hk
    · exact (hd _ hk).elim
  · exact ⟨hs, fun k hk ↦ hno k (List.mem_cons_of_mem _ hk)⟩

/-- What has ended since it began is the last poll. -/
theorem Run.upholds (hr : Run opening x₀ h x) (hp : x₀.poll = none) {r : Polled Bytes}
    (hs : Since (· = .ended r) Report.Begins h) :
    ∃ w, Upholds x.future.token w (.complete r) h := by
  have hf := hr.follows hp
  rcases hx : x.poll with _ | ⟨w, m⟩
  · rw [hx] at hf
    exact hf r hs
  · rw [hx] at hf
    exact absurd hs (hf.2 r)

/-- **A future that is left pending is woken** by the failure. -/
theorem Run.woken (hr : Run opening x₀ (before ++ .failed reason :: after) x)
    (hp : x₀.poll = none) (hd : Scope.Failed before reason after x.scope)
    (hw : x.scope.watch = .stopped) (hs : Since (· = .ended (.ok .pending)) Report.Begins
      (before ++ .failed reason :: after)) :
    ∃ w, Since (· = .began w) Report.Begins before ∧
      (alarms after).filter (·.1 = x.future.token) = [(x.future.token, w)] := by
  obtain ⟨w, hu⟩ := hr.upholds hp hs
  obtain ⟨hleft, hno⟩ := since_left_before hd.told (hu.pending rfl)
  refine ⟨w, ?_, hd.woken hw _ _ (hleft.mono (fun _ ↦ id) fun _ _ ↦ .inl)⟩
  rcases since_append.1 hu.began with hs | ⟨hs, -⟩
  · obtain ⟨k, hk, rfl⟩ := hs.exists_mem
    rcases List.mem_cons.1 hk with hk | hk
    · cases hk
    · exact absurd (.inr trivial) (hno _ hk)
  · exact hs

/-- **A poll that begins after the failure** ends at the end of the file, or fails. -/
theorem Run.not_pending (hr : Run opening x₀ (before ++ .failed reason :: after) x)
    (hp : x₀.poll = none) (hd : ∀ k ∈ after, k.Dead reason) (hw : .began w ∈ after)
    {r : Polled Bytes}
    (hs : Since (· = .ended r) Report.Begins (before ++ .failed reason :: after)) :
    (∃ e, r = .error e) ∨ (∃ bytes, r = .ok (.ready bytes)) ∧
      Since (· = .emptied) Report.Begins (before ++ .failed reason :: after) := by
  obtain ⟨w', hu⟩ := hr.upholds hp hs
  rcases r with e | p
  · exact .inl ⟨e, rfl⟩
  · cases p with
    | pending =>
      obtain ⟨-, hno⟩ := since_left_before hd (hu.pending rfl)
      exact absurd (.inr trivial) (hno _ hw)
    | ready bytes => exact .inr ⟨⟨bytes, rfl⟩, hu.emptied trivial⟩

end Stage

/-- **A dead reactor strands nobody.** Whatever the order in which sources are registered and wakers
are left and dropped, and whenever the loop fails: once the wakes of the failure are done, every
waker that was stored has been woken once, and nobody gets in any more. A future that has been left
pending has had the waker of its last poll woken, and a poll that begins after the failure ends at
the end of the file or fails. -/
theorem nobody_stranded (opening : Opening K) {x₀ : Stage K}
    (hf : x₀.scope.environment.reactor.failure = none) (hw : x₀.scope.watch.Unharmed)
    (hp : x₀.poll = none) :
    (∀ before reason after x, Scope.Run x₀.scope (before ++ .failed reason :: after) x →
      Scope.Failed before reason after x) ∧
    ∀ before reason after x, Stage.Run opening x₀ (before ++ .failed reason :: after) x →
      (x.scope.watch = .stopped →
        Since (· = .ended (.ok .pending)) Report.Begins (before ++ .failed reason :: after) →
        ∃ w, Since (· = .began w) Report.Begins before ∧
          (alarms after).filter (·.1 = x.future.token) = [(x.future.token, w)]) ∧
      ∀ w r, .began w ∈ after →
        Since (· = .ended r) Report.Begins (before ++ .failed reason :: after) →
        (∃ e, r = .error e) ∨ (∃ bytes, r = .ok (.ready bytes)) ∧
          Since (· = .emptied) Report.Begins (before ++ .failed reason :: after) := by
  have hfailed {before reason after x}
      (hr : Scope.Run x₀.scope (before ++ .failed reason :: after) x) :
      Scope.Failed before reason after x := (hr.dead hf hw).failed
  refine ⟨fun before reason after x hr ↦ hfailed hr, fun before reason after x hr ↦ ?_⟩
  have hd := hfailed hr.run
  exact ⟨hr.woken hp hd, fun w r hk hs ↦ hr.not_pending hp hd.told hk hs⟩

namespace Stage

/-- A future for a pipe that nobody writes to. There is no poller, so the loop is about to fail. -/
def unheard : Stage Host where
  scope :=
    { environment := { kernel := (Host.openPipe default).2 }, signals := {}, watch := .waiting }
  future := { owned := ⟨100⟩, token := 1, chunk := 4, started := true }

/-- The waker that the polls of the future are handed. -/
def unheardWaker : Waker := ⟨some ⟨0⟩, 7, some ⟨0⟩⟩

/-- Why the loop fails. -/
def unheardReason : Bytes := (Failure.os .badDescriptor (Bytes.utf8 "epoll_wait")).message

/-- What is told until the future is left pending. -/
def unheardBefore : List Report :=
  [.began unheardWaker, .left 1 unheardWaker, .ended (.ok .pending)]

/-- How the future is refused afterwards. -/
def unheardRefusal : Failure := .misuse .reactorFailed (some unheardReason)

/-- What is told from the failure on, until another poll has ended. -/
def unheardAfter : List Report :=
  [.alarmed 1 unheardWaker, .began unheardWaker, .refused unheardRefusal,
    .ended (.error unheardRefusal)]

/-- The future is left pending, the loop fails, the waker of the future is woken, and another poll
is refused. -/
theorem run_unheard : ∃ x,
    Run .none unheard (unheardBefore ++ .failed unheardReason :: unheardAfter.take 1) x ∧
      x.scope.watch = .stopped ∧ x.future.token = 1 ∧
      ∃ y, Run .none unheard (unheardBefore ++ .failed unheardReason :: unheardAfter) y := by
  have hbegun : Run .none unheard ([] ++ [.began unheardWaker]) _ :=
    .step .refl (.begin unheardWaker rfl)
  have hread := hbegun.step (.tick rfl)
  have hleft := hread.step (.tick rfl)
  have hpending := hleft.step (.finish rfl)
  -- What the loop tells does not concern the future.
  have hother {n : List Report} (hn : n = [.failed unheardReason] ∨ n = [.alarmed 1 unheardWaker]) :
      ∀ k ∈ n, ¬ k.Own 1 := by
    obtain rfl | rfl := hn
    · simp [Report.Own, Report.Private, Report.Touches]
    · simp [Report.Own, Report.Private, Report.Touches]
  have hbroken := hpending.step (.other .loop nofun)
  have hfailed := hbroken.step (.other .loop (hother (.inl rfl)))
  have hunmarked := hfailed.step (.other .loop nofun)
  have halarmed := hunmarked.step (.other .loop (hother (.inr rfl)))
  have hrung := halarmed.step (.other .loop nofun)
  have hover := hrung.step (.other .loop nofun)
  have hagain := hover.step (.begin unheardWaker rfl)
  have hreread := hagain.step (.tick rfl)
  have hrefused := hreread.step (.tick rfl)
  have hended := hrefused.step (.finish rfl)
  exact ⟨_, hover, rfl, rfl, _, hended⟩

end Stage

/-- The waker of the future is woken once, and the poll that begins afterwards fails. -/
theorem nobody_stranded_unheard :
    (∃ w, Since (· = .began w) Report.Begins Stage.unheardBefore ∧
      (alarms (Stage.unheardAfter.take 1)).filter (·.1 = 1) = [(1, w)]) ∧
    ∃ (x : Scope Host) (r : Polled Bytes),
      Scope.Failed Stage.unheardBefore Stage.unheardReason Stage.unheardAfter x ∧
      Since (· = .ended r) Report.Begins
        (Stage.unheardBefore ++ .failed Stage.unheardReason :: Stage.unheardAfter) ∧
      ((∃ e, r = .error e) ∨ (∃ bytes, r = .ok (.ready bytes)) ∧
        Since (· = .emptied) Report.Begins
          (Stage.unheardBefore ++ .failed Stage.unheardReason :: Stage.unheardAfter)) := by
  obtain ⟨x, hx, hover, htoken, y, hy⟩ := Stage.run_unheard
  have hstart := @nobody_stranded Host _ .none Stage.unheard rfl trivial rfl
  have hended : Since (· = .ended (.error Stage.unheardRefusal)) Report.Begins
      (Stage.unheardBefore ++ .failed Stage.unheardReason :: Stage.unheardAfter) :=
    ⟨Stage.unheardBefore ++ .failed Stage.unheardReason :: Stage.unheardAfter.take 3, _, [], rfl,
      rfl, nofun⟩
  refine ⟨?_, y.scope, _, hstart.1 _ _ _ _ hy.run, hended, ?_⟩
  · have hwoken := (hstart.2 _ _ _ _ hx).1 hover
      ⟨Stage.unheardBefore.take 2, _, _, rfl, rfl, by simp [Report.Begins, Stage.unheardAfter]⟩
    rwa [htoken] at hwoken
  · exact (hstart.2 _ _ _ _ hy).2 Stage.unheardWaker _ (by simp [Stage.unheardAfter]) hended

end ReadToEnd

end TaskRuntime
