import TaskRuntime.Proofs.EdgeRule
import TaskRuntime.Proofs.ReactorFailure

/-!
# Futures that are armed

A future that reads is armed if it is registered and its waker is stored (`ReadToEnd.Armed`). It is
covered if, in case there is something to read, an event is pending or news of it are on their way
(`ReadToEnd.Covered`). News are on their way while the loop has an event of the future's token to
dispatch, while it is about to push for the future's waker, and while the task is queued
(`Reactor.Scope.News`).

## Who keeps this

* The steps of a poll: what holds at each moment of a poll is `ReadToEnd.Holds`, and
  `ReadToEnd.Reading.holds_tick` says that each step leads to the next moment with what holds there.
  A poll finds the future covered when a read finds nothing to read.
* The steps of the loop: a pending event is delivered, then dispatched, and finds the waker, which
  is stored (`Reactor.Scope.covered_tick`).
* Everybody else, as long as he is of no concern to the future (`Environment.Spares`).
-/

namespace TaskRuntime

variable {K : Type} [Kernel K]

/-- What others may do to an environment without any regard to a token. -/
structure Environment.Spares (rule : EdgeRule K) (t : Token) (e e' : Environment K) : Prop where
  /-- The poller is the same. -/
  poller : e'.reactor.poller = e.reactor.poller
  /-- The waker of the token is the same. -/
  waker : e'.reactor.wakers.get? t = e.reactor.wakers.get? t
  /-- Registrations under the token are of no concern. -/
  kernel : ∀ d, rule.watched e.kernel ⟨e.reactor.poller, d, t⟩ →
    rule.Spares ⟨e.reactor.poller, d, t⟩ e.kernel e'.kernel

namespace ReadToEnd

/-- The registration of a future. -/
def registration (f : ReadToEnd) (e : Environment K) : Registration :=
  ⟨e.reactor.poller, f.owned.number, f.token⟩

/-- **A future is armed** with a waker: it is registered, and the waker is stored. -/
structure Armed (rule : EdgeRule K) (e : Environment K) (w : Waker) (f : ReadToEnd) : Prop where
  /-- The registration is in force. -/
  watched : rule.watched e.kernel (f.registration e)
  /-- The waker is stored. -/
  stored : e.reactor.wakers.get? f.token = some w

/-- **A future is covered**: if there is something to read, an event is pending, or there are news.
-/
def Covered (rule : EdgeRule K) (e : Environment K) (news : Prop) (f : ReadToEnd) : Prop :=
  rule.readable e.kernel f.owned.number → rule.pending e.kernel (f.registration e) ∨ news

/-- **What holds at each moment of a poll.** -/
def Holds (rule : EdgeRule K) (e : Environment K) (w : Waker) (news : Prop) (f : ReadToEnd) :
    Moment → Prop
  | .arming => rule.watched e.kernel (f.registration e)
  | .reading => Armed rule e w f
  | .rearming => Armed rule e w f ∧ Covered rule e news f
  | .complete (.ok .pending) => Armed rule e w f ∧ Covered rule e news f
  | _ => True

section

variable {rule : EdgeRule K} {e e' : Environment K} {w : Waker} {news news' : Prop}
  {f : ReadToEnd} {m : Moment}

/-! ### Others -/

theorem Armed.spares (ha : Armed rule e w f) (hs : e.Spares rule f.token e') :
    Armed rule e' w f where
  watched := by
    rw [registration, hs.poller]
    exact (hs.kernel _ ha.watched).watched
  stored := hs.waker.trans ha.stored

theorem Covered.spares (hc : Covered rule e news f) (ha : rule.watched e.kernel (f.registration e))
    (hs : e.Spares rule f.token e') (hn : news → news') : Covered rule e' news' f := by
  intro hr
  have hk := hs.kernel _ ha
  rw [registration, hs.poller]
  rcases hk.fresh hr with hr' | hp
  · exact (hc hr').imp (hk.pending hr) hn
  · exact .inl hp

/-- What holds at a moment holds whatever others do. -/
theorem Holds.spares (hh : Holds rule e w news f m) (hs : e.Spares rule f.token e')
    (hn : news → news') : Holds rule e' w news' f m := by
  have hboth (h : Armed rule e w f ∧ Covered rule e news f) :
      Armed rule e' w f ∧ Covered rule e' news' f :=
    ⟨h.1.spares hs, h.2.spares h.1.watched hs hn⟩
  cases m with
  | arming =>
    show rule.watched e'.kernel (f.registration e')
    rw [registration, hs.poller]
    exact (hs.kernel _ hh).watched
  | reading => exact hh.spares hs
  | rearming => exact hboth hh
  | complete r =>
    rcases r with x | _ | b
    · trivial
    · exact hboth hh
    · trivial
  | _ => trivial

/-! ### The steps of a poll -/

namespace Reading

/-- A step that follows an operation. -/
theorem holds_andThen {g : ReadToEnd} {next : ReadToEnd × Moment}
    {r : Except Failure Unit × Environment K}
    (h : r.1 = .ok () → Holds rule r.2 w news next.1 next.2) :
    Holds rule (andThen g next r).2 w news (andThen g next r).1.future
      (andThen g next r).1.moment := by
  rcases r with ⟨x | u, e⟩
  · trivial
  · exact h rfl

omit [Kernel K] in
/-- A waker that is left is stored. -/
theorem of_setWaker (t : Token) (w : Waker) (h : (e.setWaker t w).1 = .ok ()) :
    (e.setWaker t w).2 =
      { e with reactor := { e.reactor with wakers := e.reactor.wakers.insert t w } } := by
  rcases hf : e.reactor.failure with _ | reason
  · rw [Environment.setWaker_of_alive hf]
  · rw [Environment.setWaker_of_failed hf] at h
    cases h

/-- A registration that succeeds has been one of the kernel. -/
theorem of_register (s : System K) (r : Registration) (i : Interests)
    (h : (Poller.register s r.poller r.source r.token i).1 = .ok ()) :
    Kernel.add s.kernel r.poller r.source ⟨i, r.token⟩ =
      (.ok (), (Poller.register s r.poller r.source r.token i).2.kernel) := by
  unfold Poller.register at h ⊢
  dsimp only [System.call, System.note] at h ⊢
  generalize Kernel.add s.kernel r.poller r.source ⟨i, r.token⟩ = added at h ⊢
  rcases added with ⟨x | u, k⟩
  · cases h
  · rfl

/-- **A read** finds the future covered when it finds nothing to read. -/
theorem holds_read (ha : Armed rule e w f) :
    Holds rule (read f e).2 w news (read f e).1.future (read f e).1.moment := by
  have hread := rule.read f.owned.number f.chunk ha.watched
  dsimp only [read]
  rcases hk : Kernel.read e.kernel f.owned.number f.chunk with ⟨x | ⟨_ | ⟨b, bs⟩⟩, k⟩
  · rw [hk] at hread
    have hstill : Armed rule { e with kernel := k } w f := ⟨hread.watched, ha.stored⟩
    dsimp only
    split
    · exact hstill
    · split
      · next hb =>
        refine ⟨⟨hread.watched, ha.stored⟩, fun hr ↦ ?_⟩
        exact absurd hr (rule.read_wouldBlock hk hb ha.watched)
      · trivial
  · trivial
  · rw [hk] at hread
    exact ⟨hread.watched, ha.stored⟩

/-- **The steps of a poll** lead from what holds to what holds. -/
theorem holds_tick {opening : Opening K} (hs : rule.sound e.kernel)
    (hh : Holds rule e w news f m) :
    Holds rule (tick opening w ⟨f, m⟩ e).2 w news (tick opening w ⟨f, m⟩ e).1.future
      (tick opening w ⟨f, m⟩ e).1.moment := by
  have harmed (hwatched : rule.watched e.kernel (f.registration e))
      (hok : (e.setWaker f.token w).1 = .ok ()) : Armed rule (e.setWaker f.token w).2 w f := by
    rw [of_setWaker _ _ hok]
    exact ⟨hwatched, by simp⟩
  cases m with
  | opening =>
    dsimp only [tick]
    split <;> trivial
  | unblocking => exact holds_andThen fun _ ↦ trivial
  | checking => exact holds_andThen fun _ ↦ trivial
  | adding => exact holds_andThen fun hok ↦ (rule.add hs (of_register _ (f.registration e) _ hok)).1
  | arming => exact holds_andThen (harmed hh)
  | reading => exact holds_read hh
  | rearming =>
    refine holds_andThen fun hok ↦ ⟨harmed hh.1.watched hok, ?_⟩
    rw [of_setWaker _ _ hok]
    exact hh.2
  | forgetting => trivial
  | removing => exact holds_andThen fun _ ↦ trivial
  | complete r => exact hh

end Reading

end

end ReadToEnd

/-! ### The steps of the loop -/

namespace Reactor

/-- An event under a token has been delivered, and waits to be dispatched. -/
def Watch.Undispatched (t : Token) : Watch → Prop
  | .sorting events => ∃ e ∈ events, e.token = t
  | .pushing _ events => ∃ e ∈ events, e.token = t
  | .notifying _ events => ∃ e ∈ events, e.token = t
  | _ => False

/-- The loop is about to push for a waker. -/
def Watch.Pushes (w : Waker) : Watch → Prop
  | .pushing u _ => u = w
  | _ => False

theorem dispatch_fst (r : Reactor) (s : System K) (e : Event) :
    (r.dispatch s e).1 = if e.token = notifyToken then none else r.wakers.get? e.token := by
  unfold dispatch
  split
  · rfl
  · dsimp only
    split <;> next h => exact h.symm

theorem dispatch_kernel (r : Reactor) (s : System K) (e : Event) :
    (r.dispatch s e).2.kernel =
      if e.token = notifyToken then drainNotifier r.notifier s.kernel else s.kernel := by
  unfold dispatch
  split
  · rfl
  · dsimp only
    split <;> rfl

namespace Scope

/-- **News are on their way** to the owner of a waker: an event of his token is to be dispatched,
the loop is about to push for him, or he is queued. -/
def News (x : Scope K) (t : Token) (w : Waker) (q : QueueRef) : Prop :=
  x.watch.Undispatched t ∨ x.watch.Pushes w ∨ w.id ∈ (x.signals.queue q).ids

variable {rule : EdgeRule K} {x : Scope K} {t : Token} {w : Waker} {q : QueueRef}

/-- The steps of the loop reach failure, mark and buffer of the reactor only. -/
theorem exists_reactor_tick (x : Scope K) : ∃ running failure buffer,
    x.tick.environment.reactor = { x.environment.reactor with running, failure, buffer } := by
  obtain ⟨e, s, watch⟩ := x
  cases watch with
  | waiting =>
    rw [tick]
    dsimp only
    rcases Poller.wait e.toSystem e.reactor.poller e.reactor.buffer none with ⟨x | u, buffer, t⟩
    · cases x with
      | os errno doing =>
        dsimp only [waited]
        split <;> exact ⟨_, _, _, rfl⟩
      | _ => exact ⟨_, _, _, rfl⟩
    · exact ⟨_, _, _, rfl⟩
  | sorting events => cases events <;> exact ⟨_, _, _, rfl⟩
  | alarming copies => cases copies <;> exact ⟨_, _, _, rfl⟩
  | _ => exact ⟨_, _, _, rfl⟩

/-- The steps of the loop leave poller and wakers alone. -/
theorem reactor_tick (x : Scope K) :
    x.tick.environment.reactor.poller = x.environment.reactor.poller ∧
      x.tick.environment.reactor.wakers = x.environment.reactor.wakers := by
  obtain ⟨running, failure, buffer, h⟩ := exists_reactor_tick x
  rw [h]
  exact ⟨rfl, rfl⟩

/-- But for the wait, the steps of the loop are of no concern to a registration. -/
theorem spares_tick (hw : x.watch ≠ .waiting) :
    x.environment.Spares rule t x.tick.environment := by
  obtain ⟨hpoller, hwakers⟩ := reactor_tick x
  refine ⟨hpoller, by rw [hwakers], fun d hd ↦ ?_⟩
  obtain ⟨e, s, watch⟩ := x
  cases watch with
  | waiting => exact absurd rfl hw
  | sorting events =>
    cases events with
    | nil => exact .refl hd
    | cons event rest =>
      show rule.Spares _ _ (e.reactor.dispatch e.toSystem event).2.kernel
      rw [dispatch_kernel]
      split
      · exact rule.drainNotifier _ _ hd
      · exact .refl hd
  | alarming copies => cases copies <;> exact .refl hd
  | _ => exact .refl hd

/-- But for the wait, the loop passes news on: an event that it dispatches finds the waker. -/
theorem News.tick (hn : x.News t w q) (hw : x.watch ≠ .waiting)
    (hs : x.environment.reactor.wakers.get? t = some w) (ht : t ≠ notifyToken)
    (hq : x.signals.Queue q) (hwq : w.queue = some q ∧ w.parker ≠ none) : x.tick.News t w q := by
  obtain ⟨e, s, watch⟩ := x
  have hpush (u : Waker) (hid : w.id ∈ (s.queue q).ids) : w.id ∈ ((s.pushFor u).queue q).ids :=
    (hq.mem_pushFor u w.id).2 (.inr hid)
  have hunpark (u : Waker) (hid : w.id ∈ (s.queue q).ids) :
      w.id ∈ ((s.unparkFor u).queue q).ids := by rwa [Signals.queue_unparkFor]
  cases watch with
  | waiting => exact absurd rfl hw
  | sorting events =>
    cases events with
    | nil =>
      obtain ⟨k, hk, -⟩ | hn | hn := hn
      · cases hk
      · exact hn.elim
      · exact .inr (.inr hn)
    | cons event rest =>
      show News ⟨_, s, Option.elim (e.reactor.dispatch e.toSystem event).1 _ _⟩ t w q
      rw [dispatch_fst]
      obtain ⟨k, hk, hkt⟩ | hn | hn := hn
      · rcases List.mem_cons.1 hk with rfl | hk
        · have hwaker : (if k.token = notifyToken then none
              else e.reactor.wakers.get? k.token) = some w := by
            rw [hkt, if_neg ht]
            exact hs
          rw [hwaker]
          exact .inr (.inl rfl)
        · refine .inl ?_
          cases (if event.token = notifyToken then none else e.reactor.wakers.get? event.token) with
          | none => exact ⟨k, hk, hkt⟩
          | some u => exact ⟨k, hk, hkt⟩
      · exact hn.elim
      · exact .inr (.inr hn)
  | pushing u events =>
    obtain hn | rfl | hn := hn
    · exact .inl hn
    · exact .inr (.inr ((hq.mem_pushFor _ _).2 (.inl ⟨hwq.1, hwq.2, rfl⟩)))
    · exact .inr (.inr (hpush u hn))
  | notifying u events =>
    obtain hn | hn | hn := hn
    · exact .inl hn
    · exact hn.elim
    · exact .inr (.inr (hunpark u hn))
  | alarming copies =>
    obtain hn | hn | hn := hn
    · exact hn.elim
    · exact hn.elim
    · cases copies with
      | nil => exact .inr (.inr hn)
      | cons c rest => exact .inr (.inr (hpush c.2 hn))
  | ringing u copies =>
    obtain hn | hn | hn := hn
    · exact hn.elim
    · exact hn.elim
    · exact .inr (.inr (hunpark u hn))
  | _ =>
    obtain hn | hn | hn := hn
    · exact hn.elim
    · exact hn.elim
    · exact .inr (.inr hn)

/-- **The wait** delivers events, or fails. -/
theorem tick_waiting (hw : x.watch = .waiting) :
    x.tick.signals = x.signals ∧ ∃ n,
      (∃ events, Kernel.wait x.environment.kernel x.environment.reactor.poller n none =
          (.ok events, x.tick.environment.kernel) ∧ x.tick.watch = .sorting events) ∨
        ∃ errno, Kernel.wait x.environment.kernel x.environment.reactor.poller n none =
          (.error errno, x.tick.environment.kernel) := by
  obtain ⟨e, s, watch⟩ := x
  obtain rfl : watch = .waiting := hw
  simp only [tick, Poller.wait, System.call]
  rcases hk : Kernel.wait e.kernel e.reactor.poller e.reactor.buffer.count none with
    ⟨errno | events, k⟩
  · dsimp only [waited]
    split <;> exact ⟨rfl, _, .inr ⟨errno, hk⟩⟩
  · exact ⟨rfl, _, .inl ⟨events, hk, rfl⟩⟩

section

variable {f : ReadToEnd} {m : ReadToEnd.Moment}

/-- The steps of the loop leave the registration of a future in force. -/
theorem watched_tick (hsound : rule.sound x.environment.kernel)
    (ha : rule.watched x.environment.kernel (f.registration x.environment)) :
    rule.watched x.tick.environment.kernel (f.registration x.tick.environment) := by
  rw [ReadToEnd.registration, (reactor_tick x).1]
  by_cases hw : x.watch = .waiting
  · obtain ⟨-, n, ⟨events, hk, -⟩ | ⟨errno, hk⟩⟩ := tick_waiting hw
    · exact (rule.wait hsound hk ha).1
    · exact (rule.wait_error hsound hk ha).watched
  · exact ((spares_tick hw).kernel _ ha).watched

/-- **The steps of the loop** keep a future covered: the wait delivers its event, the dispatch finds
its waker, and the push queues its task. -/
theorem covered_tick (hsound : rule.sound x.environment.kernel) (ha : f.Armed rule x.environment w)
    (hc : f.Covered rule x.environment (x.News f.token w q)) (ht : f.token ≠ notifyToken)
    (hq : x.signals.Queue q) (hwq : w.queue = some q ∧ w.parker ≠ none) :
    f.Covered rule x.tick.environment (x.tick.News f.token w q) := by
  by_cases hw : x.watch = .waiting
  · obtain ⟨hsignals, n, hk⟩ := tick_waiting hw
    -- While the loop waits, news can only be that the task is queued.
    have hnews (hn : x.News f.token w q) : x.tick.News f.token w q := by
      rw [News, hw] at hn
      obtain hn | hn | hn := hn
      · exact hn.elim
      · exact hn.elim
      · exact .inr (.inr (by rwa [hsignals]))
    obtain ⟨events, hk, hsort⟩ | ⟨errno, hk⟩ := hk
    · intro hr
      obtain ⟨hr', hpending⟩ := (rule.wait hsound hk ha.watched).2 hr
      rw [ReadToEnd.registration, (reactor_tick x).1]
      rcases hc hr' with hpend | hn
      · refine (hpending hpend).imp_right fun hevent ↦ .inl ?_
        rw [hsort]
        exact hevent
      · exact .inr (hnews hn)
    · intro hr
      have hs := rule.wait_error hsound hk ha.watched
      rw [ReadToEnd.registration, (reactor_tick x).1]
      rcases hs.fresh hr with hr' | hpend
      · exact (hc hr').imp (hs.pending hr) hnews
      · exact .inl hpend
  · exact hc.spares ha.watched (spares_tick hw) fun hn ↦ hn.tick hw ha.stored ht hq hwq

/-- What holds at a moment of a poll holds after a step of the loop. -/
theorem holds_tick (hsound : rule.sound x.environment.kernel)
    (hh : f.Holds rule x.environment w (x.News f.token w q) m) (ht : f.token ≠ notifyToken)
    (hq : x.signals.Queue q) (hwq : w.queue = some q ∧ w.parker ≠ none) :
    f.Holds rule x.tick.environment w (x.tick.News f.token w q) m := by
  have harmed (ha : f.Armed rule x.environment w) : f.Armed rule x.tick.environment w :=
    ⟨watched_tick hsound ha.watched, by rw [(reactor_tick x).2]; exact ha.stored⟩
  have hboth (h : f.Armed rule x.environment w ∧
      f.Covered rule x.environment (x.News f.token w q)) :
      f.Armed rule x.tick.environment w ∧
        f.Covered rule x.tick.environment (x.tick.News f.token w q) :=
    ⟨harmed h.1, covered_tick hsound h.1 h.2 ht hq hwq⟩
  cases m with
  | arming => exact watched_tick hsound hh
  | reading => exact harmed hh
  | rearming => exact hboth hh
  | complete r =>
    rcases r with x | _ | b
    · trivial
    · exact hboth hh
    · trivial
  | _ => trivial

end

end Scope

end Reactor

end TaskRuntime
