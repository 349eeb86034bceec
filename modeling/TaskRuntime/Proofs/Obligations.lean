import TaskRuntime.Proofs.Armed
import TaskRuntime.Proofs.Lives

/-!
# What a future owes the reactor

A future that counts as registered owes it to the reactor to take back what is stored under its
token: the waker first, whatever becomes of the registration with the poller. At the end of the file
the future does not count as registered any more, and the waker goes with the next step.

* `ReadToEnd.Flags` says at each moment of a poll what the flags of the future are. This holds of
  futures that have not been polled, and of futures that their last poll has left pending. A future
  whose poll has failed is another matter: it may have been prepared in vain, and go on to store
  wakers without owing anything (`ReadToEnd.Course.unregistered_pending`).
* Each step of a poll leaves under the token what the future owes afterwards
  (`ReadToEnd.Reading.stored_tick`), and under other tokens nothing new.
* Destroying a future leaves nothing under its token if it owes something
  (`ReadToEnd.stored_drop`), and never fails (`ReadToEnd.destroy_eq`). Moving it hands on what it
  owes (`ReadToEnd.owes_move`).
-/

namespace TaskRuntime

variable {K : Type}

namespace Environment

/-- A waker is stored under a token. -/
def Stored (e : Environment K) (t : Token) : Prop := e.reactor.wakers.contains t = true

/-- No waker is stored that has not been there before. -/
def StoresNone (e e' : Environment K) : Prop := ∀ t, e'.Stored t → e.Stored t

theorem stored_setWaker {e : Environment K} {t u : Token} {w : Waker}
    (h : (e.setWaker t w).2.Stored u) : u = t ∨ e.Stored u := by
  rcases hf : e.reactor.failure with _ | reason
  · rw [setWaker_of_alive hf] at h
    exact Table.contains_insert.1 h
  · rw [setWaker_of_failed hf] at h
    exact .inr h

variable [Kernel K]

theorem stored_deregister {e : Environment K} {d : Descriptor} {t u : Token}
    (h : (e.deregister d t).2.Stored u) : u ≠ t ∧ e.Stored u := Table.contains_erase.1 h

/-- Only the system can be the reason why a source is not taken out of the poller. -/
theorem os_of_deregister {e : Environment K} {d : Descriptor} {t : Token} {x : Failure}
    (h : (e.deregister d t).1 = .error x) : ∃ errno doing, x = .os errno doing := by
  rw [deregister, Reactor.deregister] at h
  dsimp only at h
  rcases hr : Poller.deregister e.toSystem e.reactor.poller d with ⟨r, s⟩
  rw [hr] at h
  obtain rfl : r = .error x := h
  unfold Poller.deregister at hr
  split at hr
  · exact ⟨_, _, (Except.error.inj (Prod.mk.inj hr).1).symm⟩
  · cases (Prod.mk.inj hr).1

end Environment

namespace ReadToEnd

/-! ### Obligations -/

/-- **A future owes** it to the reactor to take back what is stored under a token. -/
def Owes (f : ReadToEnd) (t : Token) : Prop := f.registered = true ∧ f.token = t

/-- A future that has not been polled. -/
structure New (f : ReadToEnd) : Prop where
  /-- It has not been prepared. -/
  started : f.started = false
  /-- It does not count as registered. -/
  registered : f.registered = false
  /-- It has not come to its end. -/
  finished : f.finished = false

/-- A future that has been prepared, and whether it counts as registered. -/
structure Begun (f : ReadToEnd) (registered : Bool) : Prop where
  /-- It has been prepared. -/
  started : f.started = true
  /-- It counts as registered, or not. -/
  registered : f.registered = registered
  /-- It has not come to its end. -/
  finished : f.finished = false

/-- A future that may be polled: a new one, or one that its last poll has left pending. -/
def Poised (f : ReadToEnd) : Prop := f.New ∨ f.Begun true

/-- **What the flags of a future are** at each moment of a poll. -/
def Flags (f : ReadToEnd) : Moment → Prop
  | .opening => f.New
  | .unblocking => f.Begun false
  | .checking => f.Begun false
  | .adding => f.Begun false
  | .arming => f.Begun true
  | .reading => f.Begun true
  | .rearming => f.Begun true
  | .forgetting => f.Begun false
  | .removing => f.Begun false
  | .complete (.ok .pending) => f.Begun true
  | .complete (.ok (.ready _)) => f.registered = false
  | .complete (.error _) => f.started = true

/-- What a future owes while it is being polled. At the end of the file, the waker is still to be
dropped when the future does not count as registered any more. -/
def Reading.Owes (p : Reading) (t : Token) : Prop :=
  p.future.token = t ∧ (p.future.registered = true ∨ p.moment = .forgetting)

section

variable {f : ReadToEnd} {t : Token} {m : Moment}

theorem New.not_owes (h : f.New) : ¬ f.Owes t := by
  rintro ⟨hr, -⟩
  rw [h.registered] at hr
  cases hr

/-- A future that may be polled and owes something has been prepared. -/
theorem Poised.begun (h : f.Poised) (ho : f.Owes t) : f.Begun true :=
  h.resolve_left fun hn ↦ hn.not_owes ho

/-- A poll begins with the flags that the future has. -/
theorem Poised.flags (h : f.Poised) : Flags f.begin.future f.begin.moment := by
  obtain h | h := h
  · have hm : f.begin.moment = .opening := by simp [begin, h.finished, h.started]
    rw [hm]
    exact h
  · have hm : f.begin.moment = .reading := by simp [begin, h.finished, h.started]
    rw [hm]
    exact h

theorem Owes.begin (h : f.Owes t) : f.begin.Owes t := ⟨h.2, .inl h.1⟩

theorem Reading.Owes.of_complete {r : Polled Bytes} (h : Reading.Owes ⟨f, .complete r⟩ t) :
    f.Owes t := ⟨h.2.resolve_right nofun, h.1⟩

/-! ### The steps of a poll -/

namespace Reading

variable [Kernel K] {e : Environment K} {opening : Opening K} {w : Waker}

omit [Kernel K] in
theorem flags_andThen {g : ReadToEnd} {next : ReadToEnd × Moment}
    {r : Except Failure Unit × Environment K} (hg : g.started = true)
    (hn : Flags next.1 next.2) :
    Flags (andThen g next r).1.future (andThen g next r).1.moment := by
  rcases r with ⟨x | u, e⟩
  · exact hg
  · exact hn

/-- **The flags** go from moment to moment. -/
theorem flags_tick (h : Flags f m) :
    Flags (tick opening w ⟨f, m⟩ e).1.future (tick opening w ⟨f, m⟩ e).1.moment := by
  cases m with
  | opening =>
    dsimp only [tick]
    split
    · exact rfl
    · exact ⟨rfl, h.registered, h.finished⟩
  | unblocking => exact flags_andThen h.started h
  | checking => exact flags_andThen h.started h
  | adding => exact flags_andThen h.started ⟨h.started, rfl, h.finished⟩
  | arming => exact flags_andThen h.started h
  | reading =>
    dsimp only [tick, read]
    split
    · exact ⟨h.started, rfl, h.finished⟩
    · exact ⟨h.started, h.registered, h.finished⟩
    · split
      · exact h
      · split
        · exact h
        · exact h.started
  | rearming => exact flags_andThen h.started h
  | forgetting => exact h
  | removing => exact flags_andThen h.started h.registered
  | complete r => exact h

/-- Reading reaches the kernel and the log, and not the reactor. -/
theorem reactor_read : (read f e).2.reactor = e.reactor := by
  unfold read
  split
  · rfl
  · rfl
  · split
    · rfl
    · split <;> rfl

/-- A read leaves the future owing what it owes. -/
theorem owes_read (h : f.registered = true) (t : Token) :
    (read f e).1.Owes t ↔ f.token = t := by
  unfold read
  split
  · exact ⟨fun hp ↦ hp.1, fun ht ↦ ⟨ht, .inr rfl⟩⟩
  · exact ⟨fun hp ↦ hp.1, fun ht ↦ ⟨ht, .inl h⟩⟩
  · split
    · exact ⟨fun hp ↦ hp.1, fun ht ↦ ⟨ht, .inl h⟩⟩
    · split <;> exact ⟨fun hp ↦ hp.1, fun ht ↦ ⟨ht, .inl h⟩⟩

omit [Kernel K] in
/-- A future that does not count as registered owes nothing, but for a waker that is still to be
dropped. -/
theorem not_owes_of_begun (h : f.Begun false) (hm : m ≠ .forgetting) :
    ¬ Reading.Owes ⟨f, m⟩ t := by
  rintro ⟨-, hr | hr⟩
  · rw [show f.registered = false from h.registered] at hr
    cases hr
  · exact hm hr

omit [Kernel K] in
/-- Leaving the waker stores it under the token of the future, or not at all. -/
theorem stored_leave {next : Moment} (h : f.registered = true)
    (hs : (andThen f (f, next) (e.setWaker f.token w)).2.Stored t) :
    (andThen f (f, next) (e.setWaker f.token w)).1.Owes t ∨
      e.Stored t ∧ ¬ Reading.Owes ⟨f, m⟩ t := by
  have howes (ht : f.token = t) : (andThen f (f, next) (e.setWaker f.token w)).1.Owes t := by
    rcases e.setWaker f.token w with ⟨_ | _, _⟩ <;> exact ⟨ht, .inl h⟩
  rw [andThen_snd] at hs
  by_cases ht : f.token = t
  · exact .inl (howes ht)
  · exact .inr ⟨(Environment.stored_setWaker hs).resolve_left (Ne.symm ht), fun hp ↦ ht hp.1⟩

/-- **What is stored after a step of a poll** is owed by the future, or has been there before and
was not owed by it. -/
theorem stored_tick (h : Flags f m) (hs : (tick opening w ⟨f, m⟩ e).2.Stored t) :
    (tick opening w ⟨f, m⟩ e).1.Owes t ∨ e.Stored t ∧ ¬ Reading.Owes ⟨f, m⟩ t := by
  cases m with
  | opening =>
    refine .inr ⟨?_, fun hp ↦ h.not_owes ⟨hp.2.resolve_right (by simp), hp.1⟩⟩
    -- An opening reaches the system only.
    dsimp only [tick] at hs
    split at hs
    all_goals
      next ho =>
      have hreactor := congrArg (·.2.reactor.wakers.contains t) ho
      exact hreactor.trans hs
  | unblocking =>
    rw [tick, andThen_snd] at hs
    exact .inr ⟨hs, not_owes_of_begun h (by simp)⟩
  | checking =>
    rw [tick, andThen_snd] at hs
    exact .inr ⟨hs, not_owes_of_begun h (by simp)⟩
  | adding =>
    rw [tick, andThen_snd] at hs
    exact .inr ⟨hs, not_owes_of_begun h (by simp)⟩
  | arming => exact stored_leave h.registered hs
  | reading =>
    rw [tick, Environment.Stored, reactor_read] at hs
    by_cases ht : f.token = t
    · exact .inl ((owes_read h.registered t).2 ht)
    · exact .inr ⟨hs, fun hp ↦ ht hp.1⟩
  | rearming => exact stored_leave h.registered hs
  | forgetting =>
    obtain ⟨hne, hs⟩ := Table.contains_erase.1 hs
    exact .inr ⟨hs, fun hp ↦ hne hp.1.symm⟩
  | removing =>
    rw [tick, andThen_snd] at hs
    exact .inr ⟨hs, not_owes_of_begun h (by simp)⟩
  | complete r =>
    by_cases hp : Reading.Owes ⟨f, .complete r⟩ t
    · exact .inl hp
    · exact .inr ⟨hs, hp⟩

end Reading

/-! ### Destroying and moving -/

variable [Kernel K] {e : Environment K}

/-- **A future that is destroyed** leaves nothing that it owes, whether its source can be taken out
of the poller or not. -/
theorem stored_drop (hs : (f.drop e).Stored t) : e.Stored t ∧ ¬ f.Owes t := by
  unfold drop at hs
  dsimp only at hs
  split at hs
  · next hr =>
    split at hs
    all_goals
      next h =>
      have hd : (e.deregister f.owned.number f.token).2.Stored t := by
        rw [h]
        exact hs
      obtain ⟨hne, hs⟩ := Environment.stored_deregister hd
      exact ⟨hs, fun ho ↦ hne ho.2.symm⟩
  · next hr => exact ⟨hs, fun ho ↦ hr ho.1⟩

/-- Destroying a future where failures count: only those of the system are caught and logged. -/
def destroy (f : ReadToEnd) (e : Environment K) : Except Failure Unit × Environment K :=
  let close (e : Environment K) : Environment K :=
    { e with toSystem := e.toSystem.release .file f.owned }
  if f.registered then
    match e.deregister f.owned.number f.token with
    | (.ok (), e) => (.ok (), close e)
    | (.error (.os errno doing), e) =>
      (.ok (), close (e.note .warning (dropFailure (.os errno doing))))
    | (.error x, e) => (.error x, e)
  else (.ok (), close e)

/-- **Destroying a future never fails.** -/
theorem destroy_eq (f : ReadToEnd) (e : Environment K) : f.destroy e = (.ok (), f.drop e) := by
  rw [destroy, drop]
  dsimp only
  split
  · rcases hd : e.deregister f.owned.number f.token with ⟨x | u, e'⟩
    · obtain ⟨errno, doing, rfl⟩ := Environment.os_of_deregister (congrArg Prod.fst hd)
      rfl
    · rfl
  · rfl

omit [Kernel K] in
/-- **A future that is moved** hands on what it owes, and owes nothing any more. -/
theorem owes_move (f : ReadToEnd) (t : Token) :
    (f.move.1.Owes t ↔ f.Owes t) ∧ ¬ f.move.2.Owes t := ⟨.rfl, nofun⟩

/-- What is left of a future that has been moved refuses polls, and disappears without a trace. -/
theorem left_move (f : ReadToEnd) (opening : Opening K) (w : Waker) (e : Environment K) :
    (∃ x, f.move.2.poll opening w e = (.error x, f.move.2, e)) ∧ f.move.2.drop e = e :=
  ⟨⟨_, rfl⟩, rfl⟩

end

end ReadToEnd

end TaskRuntime
