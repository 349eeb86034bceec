import TaskRuntime.Proofs.History
import TaskRuntime.Proofs.SlowLoop
import TaskRuntime.Proofs.SlowRead

/-!
# When the reactor fails

Sources are registered, wakers are left and dropped by any number of threads, while the loop of the
reactor dispatches events and may fail at any moment. Each operation is an atomic step
(`Reactor.Scope.Move`), except that registration looks at the reactor in one step and goes to the
poller in another; the loop records its failure and copies the stored wakers in one step, and wakes
the copies one after the other (`Reactor.Scope.tick`).

## What holds at every moment

`Reactor.Scope.Alive` holds before the failure: whoever has left a waker that has not been replaced
or dropped since has it stored. `Reactor.Scope.Dead` holds after the failure: the copies that have
been woken and those that are still to be woken are the wakers that were stored at the failure, and
nothing has been admitted or left since. One lemma for each (`Alive.move`, `Dead.move`) says that
every step keeps it.
-/

namespace TaskRuntime

/-! ### Reports -/

/-- Something that is told about a reactor and a future. -/
inductive Report
  /-- A waker has been left under a token. -/
  | left (t : Token) (w : Waker)
  /-- The waker of a token has been dropped. -/
  | forgotten (t : Token)
  /-- A source may be registered with the poller. -/
  | admitted
  /-- A source or a waker has been refused. -/
  | refused (e : Failure)
  /-- The failure of the loop has been recorded. -/
  | failed (reason : Bytes)
  /-- The copy of the waker of a token has been woken. -/
  | alarmed (t : Token) (w : Waker)
  /-- A poll of the future begins, and is handed a waker. -/
  | began (w : Waker)
  /-- A poll of the future has reached the end of the file. -/
  | emptied
  /-- A poll of the future ends. -/
  | ended (result : Polled Bytes)

namespace Report

/-- Replaces or drops the waker of a token. -/
def Touches (t : Token) : Report → Prop
  | left t' _ => t' = t
  | forgotten t' => t' = t
  | _ => False

/-- A report that concerns the future alone. -/
def Private : Report → Prop
  | began _ => True
  | emptied => True
  | ended _ => True
  | _ => False

/-- Begins a poll of the future. -/
def Begins : Report → Prop
  | began _ => True
  | _ => False

/-- A report that changes neither which wakers are stored nor whether the reactor has failed. -/
def Still : Report → Prop
  | left _ _ => False
  | forgotten _ => False
  | failed _ => False
  | _ => True

theorem Still.not_touches {k : Report} (hk : k.Still) (t : Token) : ¬ k.Touches t := by
  cases k <;> first | exact hk.elim | exact not_false

theorem Private.still {k : Report} (hk : k.Private) : k.Still := by
  cases k <;> first | exact hk.elim | exact trivial

/-- The copy that has been woken, if one has. -/
def alarm? : Report → Option (Token × Waker)
  | alarmed t w => some (t, w)
  | _ => none

/-- What is told of an operation that may be refused. -/
def verdict (r : Report) : Except Failure Unit → List Report
  | .ok () => [r]
  | .error e => [refused e]

/-- A report of a reactor that has failed for a reason: nothing is admitted or left, and who is
refused is told the reason. -/
def Dead (reason : Bytes) : Report → Prop
  | left _ _ => False
  | admitted => False
  | failed _ => False
  | refused e => e = .misuse .reactorFailed (some reason)
  | _ => True

theorem Private.dead {k : Report} (hk : k.Private) (reason : Bytes) : k.Dead reason := by
  cases k <;> first | exact hk.elim | exact trivial

end Report

/-- The copies that have been woken, in order. -/
def alarms (h : List Report) : List (Token × Waker) := h.filterMap Report.alarm?

theorem alarms_append (h n : List Report) : alarms (h ++ n) = alarms h ++ alarms n :=
  List.filterMap_append

/-! ### Wakers and sources, as long as the reactor lives and afterwards -/

namespace Environment

variable {K : Type} {e : Environment K} {reason : Bytes}

theorem setWaker_of_alive (hf : e.reactor.failure = none) (t : Token) (w : Waker) :
    e.setWaker t w = (.ok (), { e with
      reactor := { e.reactor with wakers := e.reactor.wakers.insert t w } }) := by
  have hcheck : e.reactor.check = .ok () := by rw [Reactor.check, hf]
  rw [setWaker, Reactor.setWaker, hcheck]

theorem setWaker_of_failed (hf : e.reactor.failure = some reason) (t : Token) (w : Waker) :
    e.setWaker t w = (.error (.misuse .reactorFailed (some reason)), e) := by
  rw [setWaker, Reactor.setWaker, Reactor.check, hf]

theorem register_of_failed [Kernel K] (hf : e.reactor.failure = some reason) (source : Descriptor)
    (interests : Interests) (t : Token) :
    e.register source interests t = (.error (.misuse .reactorFailed (some reason)), e) := by
  rw [register_eq, Reactor.check, hf]

end Environment

/-- The entries of a key that has a value. -/
theorem Table.filter_entries {K V : Type} [DecidableEq K] {t : Table K V} {k : K} {v : V}
    (hg : t.get? k = some v) : t.entries.filter (·.1 = k) = [(k, v)] := by
  obtain ⟨l, hl⟩ := t
  induction l with
  | nil => simp [Table.get?, Table.find] at hg
  | cons a l ih =>
    obtain ⟨hnot, hnodup⟩ := List.nodup_cons.1 hl
    by_cases ha : a.1 = k
    · have hnone : l.filter (·.1 = k) = [] := by
        refine List.filter_eq_nil_iff.2 fun b hb hbk ↦ hnot ?_
        exact List.mem_map.2 ⟨b, hb, (of_decide_eq_true hbk).trans ha.symm⟩
      have hav : a.2 = v := by simpa [Table.get?, Table.find, ha] using hg
      rw [List.filter_cons_of_pos (by simpa using ha), hnone, ← ha, ← hav]
    · rw [List.filter_cons_of_neg (by simpa using ha)]
      exact ih hnodup (by simpa [Table.get?, Table.find, ha] using hg)

namespace Reactor

namespace Watch

/-- The copies that are still to be woken, once the failure has been recorded. -/
inductive Alarms : Watch → List (Token × Waker) → Prop
  /-- The mark is about to be taken away. -/
  | unmarking (l) : Alarms (.unmarking l) l
  /-- The next copy is about to be woken. -/
  | alarming (l) : Alarms (.alarming l) l
  /-- The wake of a copy is not finished. -/
  | ringing (w l) : Alarms (.ringing w l) l
  /-- All copies have been woken. -/
  | stopped : Alarms .stopped []

/-- The failure has not been recorded. -/
def Unharmed : Watch → Prop
  | unmarking _ => False
  | alarming _ => False
  | ringing _ _ => False
  | _ => True

end Watch

namespace Scope

section

variable {K : Type} {x x' : Scope K} {h n before after : List Report} {reason : Bytes}

/-! ### Before the failure -/

/-- **Before the failure**, every waker that has been left and not been replaced or dropped since is
stored. -/
structure Alive (h : List Report) (x : Scope K) : Prop where
  /-- No failure is recorded. -/
  failure : x.environment.reactor.failure = none
  /-- The loop has not recorded one. -/
  watch : x.watch.Unharmed
  /-- No failure has been told. -/
  untold : ∀ reason, .failed reason ∉ h
  /-- What has been left is stored. -/
  stored : ∀ t w, Since (· = .left t w) (Report.Touches t) h →
    x.environment.reactor.wakers.get? t = some w

/-- A step that tells of no waker and no failure. -/
theorem Alive.still (ha : Alive h x) (hn : ∀ k ∈ n, k.Still)
    (hf : x'.environment.reactor.failure = x.environment.reactor.failure)
    (hs : x'.environment.reactor.wakers = x.environment.reactor.wakers)
    (hw : x'.watch.Unharmed) : Alive (h ++ n) x' where
  failure := hf.trans ha.failure
  watch := hw
  untold reason hk := by
    rcases List.mem_append.1 hk with hk | hk
    · exact ha.untold reason hk
    · exact hn _ hk
  stored t w hs' := by
    rw [hs]
    refine ha.stored t w ((since_append_of_silent ?_ ?_).1 hs')
    · rintro k hk rfl
      exact hn _ hk
    · exact fun k hk ↦ (hn k hk).not_touches t

/-- A waker is left. -/
theorem Alive.leave (ha : Alive h x) (t : Token) (w : Waker) :
    Alive (h ++ [.left t w]) { x with environment := (x.environment.setWaker t w).2 } := by
  rw [Environment.setWaker_of_alive ha.failure]
  refine ⟨ha.failure, ha.watch, fun reason hk ↦ ?_, fun t' w' hs ↦ ?_⟩
  · exact ha.untold reason (by simpa using hk)
  · show (x.environment.reactor.wakers.insert t w).get? t' = some w'
    rw [Table.get?_insert]
    rcases since_concat.1 hs with heq | ⟨hs, hno⟩
    · injection heq with ht hw
      rw [if_pos ht, hw]
    · rw [if_neg (show ¬ t = t' from hno)]
      exact ha.stored t' w' hs

/-- A waker is dropped. -/
theorem Alive.forget (ha : Alive h x) (t : Token) :
    Alive (h ++ [.forgotten t])
      { x with environment := { x.environment with
               reactor := { x.environment.reactor with
                            wakers := x.environment.reactor.wakers.erase t } } } := by
  refine ⟨ha.failure, ha.watch, fun reason hk ↦ ?_, fun t' w' hs ↦ ?_⟩
  · exact ha.untold reason (by simpa using hk)
  · show (x.environment.reactor.wakers.erase t).get? t' = some w'
    rw [Table.get?_erase]
    rcases since_concat.1 hs with heq | ⟨hs, hno⟩
    · cases heq
    · rw [if_neg (show ¬ t = t' from hno)]
      exact ha.stored t' w' hs

/-! ### After the failure -/

/-- **After the failure**, the copies that have been woken and those that are still to be woken are
the wakers that were stored, and nothing has been admitted or left since. -/
structure Dead (before : List Report) (reason : Bytes) (after : List Report) (x : Scope K) :
    Prop where
  /-- The reason is recorded. -/
  failure : x.environment.reactor.failure = some reason
  /-- No other failure was told before. -/
  untold : ∀ reason, .failed reason ∉ before
  /-- The copies are those of all wakers that were stored. -/
  copies : ∃ (stored : Table Token Waker) (rest : List (Token × Waker)),
    (∀ t w, Since (· = .left t w) (Report.Touches t) before → stored.get? t = some w) ∧
      x.watch.Alarms rest ∧ alarms after ++ rest = stored.entries
  /-- What has been told since is told of a dead reactor. -/
  told : ∀ k ∈ after, k.Dead reason

/-- A step of another thread that wakes no copy. -/
theorem Dead.still (hd : Dead before reason after x) (hn : ∀ k ∈ n, k.Dead reason)
    (hf : x'.environment.reactor.failure = x.environment.reactor.failure)
    (hw : x'.watch = x.watch) (halarms : alarms n = []) : Dead before reason (after ++ n) x' where
  failure := hf.trans hd.failure
  untold := hd.untold
  copies := by
    rw [hw, alarms_append, halarms, List.append_nil]
    exact hd.copies
  told k hk := (List.mem_append.1 hk).elim (hd.told k) (hn k)

end

/-! ### Steps -/

variable {K : Type} [Kernel K]

/-- What a step of the loop tells. -/
def tells (x : Scope K) : List Report :=
  match x.watch with
  | .broken reason => [.failed reason]
  | .alarming ((t, w) :: _) => [.alarmed t w]
  | _ => []

/-- **One atomic step** of the loop or of another thread. -/
inductive Move : Scope K → List Report → Scope K → Prop
  /-- Somebody leaves a waker. -/
  | leave {x} (t : Token) (w : Waker) :
      Move x (Report.verdict (.left t w) (x.environment.setWaker t w).1)
        { x with environment := (x.environment.setWaker t w).2 }
  /-- Somebody who registers a source looks whether the reactor has failed. -/
  | check {x} : Move x (Report.verdict .admitted x.environment.reactor.check) x
  /-- Somebody drops a waker. -/
  | forget {x} (t : Token) :
      Move x [.forgotten t]
        { x with environment := { x.environment with
                 reactor := { x.environment.reactor with
                              wakers := x.environment.reactor.wakers.erase t } } }
  /-- Somebody makes system calls: among them, to add a source to the poller and to remove it. -/
  | system {x} (s : System K) :
      Move x [] { x with environment := { x.environment with toSystem := s } }
  /-- Somebody gets a token. -/
  | issue {x} : Move x [] { x with environment := x.environment.issueToken.2 }
  /-- Somebody stops the loop. -/
  | stop {x} :
      Move x [] { x with environment := { x.environment with
                         reactor := { x.environment.reactor with running := false } } }
  /-- Somebody wakes, parks or polls. -/
  | signals {x} (s : Signals) : Move x [] { x with signals := s }
  /-- A poll of the future tells of itself. -/
  | aside {x} {k : Report} (hk : k.Private) : Move x [k] x
  /-- The loop makes a step. -/
  | loop {x} : Move x x.tells x.tick

/-- Any number of steps, with what they tell. -/
inductive Run (x₀ : Scope K) : List Report → Scope K → Prop
  /-- No step. -/
  | refl : Run x₀ [] x₀
  /-- One more step. -/
  | step {h x n x'} (hr : Run x₀ h x) (hm : Move x n x') : Run x₀ (h ++ n) x'

variable {x₀ x x' : Scope K} {h n before after : List Report} {reason : Bytes}

/-- A step of a loop that is not about to record a failure. -/
theorem tick_of_unharmed (hw : x.watch.Unharmed) (hb : ∀ reason, x.watch ≠ .broken reason) :
    x.tells = [] ∧ x.tick.watch.Unharmed ∧
      x.tick.environment.reactor.failure = x.environment.reactor.failure ∧
      x.tick.environment.reactor.wakers = x.environment.reactor.wakers := by
  obtain ⟨e, s, watch⟩ := x
  cases watch with
  | testing =>
    refine ⟨rfl, ?_, rfl, rfl⟩
    rw [tick]
    dsimp only
    split <;> exact trivial
  | waiting =>
    refine ⟨rfl, ?_⟩
    rw [tick]
    dsimp only
    rcases Poller.wait e.toSystem e.reactor.poller e.reactor.buffer none with ⟨x | u, buffer, s'⟩
    · cases x with
      | os errno doing =>
        dsimp only [waited]
        split <;> exact ⟨trivial, rfl, rfl⟩
      | _ => exact ⟨trivial, rfl, rfl⟩
    · exact ⟨trivial, rfl, rfl⟩
  | sorting events =>
    cases events with
    | nil => exact ⟨rfl, trivial, rfl, rfl⟩
    | cons event rest =>
      refine ⟨rfl, ?_⟩
      rw [tick]
      dsimp only
      rcases e.reactor.dispatch e.toSystem event with ⟨_ | w, s'⟩ <;> exact ⟨trivial, rfl, rfl⟩
  | pushing w events => exact ⟨rfl, trivial, rfl, rfl⟩
  | notifying w events => exact ⟨rfl, trivial, rfl, rfl⟩
  | broken reason => exact absurd rfl (hb reason)
  | unmarking copies => exact hw.elim
  | alarming copies => exact hw.elim
  | ringing w copies => exact hw.elim
  | stopped => exact ⟨rfl, trivial, rfl, rfl⟩

/-- **A step before the failure** keeps what is stored, or is the failure. -/
theorem Alive.move (ha : Alive h x) (hm : Move x n x') :
    Alive (h ++ n) x' ∨ ∃ reason, n = [.failed reason] ∧ Dead h reason [] x' := by
  cases hm with
  | leave t w =>
    have hok : (x.environment.setWaker t w).1 = .ok () := by
      rw [Environment.setWaker_of_alive ha.failure]
    rw [hok]
    exact .inl (ha.leave t w)
  | check =>
    have hok : x.environment.reactor.check = .ok () := by rw [Reactor.check, ha.failure]
    rw [hok]
    refine .inl (ha.still ?_ rfl rfl ha.watch)
    simp [Report.verdict, Report.Still]
  | forget t => exact .inl (ha.forget t)
  | system s => exact .inl (ha.still (by simp) rfl rfl ha.watch)
  | issue => exact .inl (ha.still (by simp) rfl rfl ha.watch)
  | stop => exact .inl (ha.still (by simp) rfl rfl ha.watch)
  | signals s => exact .inl (ha.still (by simp) rfl rfl ha.watch)
  | aside hk => exact .inl (ha.still (by simpa using hk.still) rfl rfl ha.watch)
  | loop =>
    by_cases hb : ∃ reason, x.watch = .broken reason
    · obtain ⟨reason, hb⟩ := hb
      refine .inr ⟨reason, by rw [tells, hb], ?_, ha.untold, ?_, by simp⟩
      · rw [tick, hb]
      · refine ⟨x.environment.reactor.wakers, x.environment.reactor.wakers.entries, ha.stored, ?_,
          rfl⟩
        rw [tick, hb]
        exact .unmarking _
    · have hb' (reason : Bytes) : x.watch ≠ .broken reason := fun e ↦ hb ⟨reason, e⟩
      obtain ⟨htells, hw, hf, hs⟩ := tick_of_unharmed ha.watch hb'
      exact .inl (ha.still (by simp [htells]) hf hs hw)

/-- A step of the loop after it has recorded its failure: it wakes the next copy, or tells
nothing. -/
theorem tick_of_alarms {l : List (Token × Waker)} (hw : x.watch.Alarms l) :
    x.tick.environment.reactor.failure = x.environment.reactor.failure ∧
      (∀ k ∈ x.tells, ∃ t w, k = .alarmed t w) ∧
      ∃ rest, x.tick.watch.Alarms rest ∧ alarms x.tells ++ rest = l := by
  obtain ⟨e, s, watch⟩ := x
  cases hw with
  | unmarking => exact ⟨rfl, by simp [tells], l, .alarming l, rfl⟩
  | alarming =>
    cases l with
    | nil => exact ⟨rfl, by simp [tells], [], .stopped, rfl⟩
    | cons c rest => exact ⟨rfl, by simp [tells], rest, .ringing c.2 rest, rfl⟩
  | ringing w => exact ⟨rfl, by simp [tells], l, .alarming l, rfl⟩
  | stopped => exact ⟨rfl, by simp [tells], [], .stopped, rfl⟩

/-- **A step after the failure** admits and leaves nothing, and each copy is woken in its turn. -/
theorem Dead.move (hd : Dead before reason after x) (hm : Move x n x') :
    Dead before reason (after ++ n) x' := by
  cases hm with
  | leave t w =>
    rw [Environment.setWaker_of_failed hd.failure]
    exact hd.still (by simp [Report.verdict, Report.Dead]) rfl rfl rfl
  | check =>
    have herr : x.environment.reactor.check = .error (.misuse .reactorFailed (some reason)) := by
      rw [Reactor.check, hd.failure]
    rw [herr]
    exact hd.still (by simp [Report.verdict, Report.Dead]) rfl rfl rfl
  | forget t => exact hd.still (by simp [Report.Dead]) rfl rfl rfl
  | system s => exact hd.still (by simp) rfl rfl rfl
  | issue => exact hd.still (by simp) rfl rfl rfl
  | stop => exact hd.still (by simp) rfl rfl rfl
  | signals s => exact hd.still (by simp) rfl rfl rfl
  | @aside k hk =>
    refine hd.still (by simpa using hk.dead reason) rfl rfl ?_
    cases k <;> first | exact hk.elim | rfl
  | loop =>
    obtain ⟨stored, l, hstored, hl, hcopies⟩ := hd.copies
    obtain ⟨hf, htells, rest, hrest, hnext⟩ := tick_of_alarms hl
    refine ⟨hf.trans hd.failure, hd.untold, ⟨stored, rest, hstored, hrest, ?_⟩, fun k hk ↦ ?_⟩
    · rw [alarms_append, List.append_assoc, hnext, hcopies]
    · rcases List.mem_append.1 hk with hk | hk
      · exact hd.told k hk
      · obtain ⟨t, w, rfl⟩ := htells k hk
        exact trivial

/-! ### Runs -/

theorem Run.single (hm : Move x n x') : Run x n x' := List.nil_append n ▸ .step .refl hm

theorem Run.trans (hr : Run x₀ h x) (hn : Run x n x') : Run x₀ (h ++ n) x' := by
  induction hn with
  | refl => simpa using hr
  | step _ hm ih => exact List.append_assoc .. ▸ .step ih hm

/-- **At every moment** the reactor is alive, or it has failed once. -/
theorem Run.alive_or_dead (hr : Run x₀ h x) (hf : x₀.environment.reactor.failure = none)
    (hw : x₀.watch.Unharmed) :
    Alive h x ∨ ∃ before reason after, h = before ++ .failed reason :: after ∧
      Dead before reason after x := by
  induction hr with
  | refl => exact .inl ⟨hf, hw, by simp, fun t w hs ↦ absurd hs not_since_nil⟩
  | @step h x n x' _ hm ih =>
    rcases ih with ha | ⟨before, reason, after, rfl, hd⟩
    · refine (ha.move hm).imp_right ?_
      rintro ⟨reason, rfl, hd⟩
      exact ⟨h, reason, [], rfl, hd⟩
    · exact .inr ⟨before, reason, after ++ n, by simp, hd.move hm⟩

/-- **After the failure** has been told, the reactor is dead. -/
theorem Run.dead (hr : Run x₀ (before ++ .failed reason :: after) x)
    (hf : x₀.environment.reactor.failure = none) (hw : x₀.watch.Unharmed) :
    Dead before reason after x := by
  rcases hr.alive_or_dead hf hw with ha | ⟨before', reason', after', heq, hd⟩
  · exact absurd (by simp) (ha.untold reason)
  · -- The failure is told once, so there is one way to split the history at it.
    have hlater : ∀ r, .failed r ∉ after' := fun r hk ↦ hd.told _ hk
    rcases List.append_eq_append_iff.1 heq with ⟨l, hbefore, hrest⟩ | ⟨l, hbefore, hrest⟩
    · cases l with
      | nil =>
        obtain ⟨hk, rfl⟩ := List.cons.inj hrest
        injection hk with hk
        rw [hbefore, List.append_nil, ← hk] at hd
        exact hd
      | cons k l =>
        obtain ⟨rfl, -⟩ := List.cons.inj hrest
        exact absurd (by simp [hbefore]) (hd.untold reason)
    · cases l with
      | nil =>
        obtain ⟨hk, rfl⟩ := List.cons.inj hrest
        injection hk with hk
        rw [hbefore, List.append_nil, ← hk]
        exact hd
      | cons k l =>
        obtain ⟨-, rfl⟩ := List.cons.inj hrest
        exact absurd (by simp) (hlater reason)

end Scope

end Reactor

end TaskRuntime
