import TaskRuntime.Proofs.Armed
import TaskRuntime.Proofs.HostEdges

/-!
# What a pending future has arranged

A future that is left pending is to have its descriptor registered with the poller and the waker of
its last poll stored. The waker is always stored (`ReadToEnd.Course.Run.arranged`): leaving it is
the last thing that a poll does before it leaves the future pending. The registration is another
matter. Preparation counts as done as soon as it has begun, so when one of its steps fails, the
next poll goes on to read, and may leave the future pending without any registration
(`ReadToEnd.Course.unregistered_pending`). Taking the registration back at the end of the file and
failing at it leads to the same. There is no other way: a future that is left pending is registered
unless an earlier poll has failed and left it unregistered.

The polls of one future are followed step by step, with any wakers and any outcomes of the system
calls, and others may act between the steps (`ReadToEnd.Course`). What a kernel has to say about
registrations is a `Roster`.
-/

namespace TaskRuntime

/-- **The registrations of a kernel** that are in force. -/
structure Roster (K : Type) [Kernel K] where
  /-- A source is registered with a poller for changes of readability. -/
  enrolled : K → Registration → Prop
  /-- A registration that succeeds is in force. -/
  add : ∀ {r : Registration} {k k' : K},
    Kernel.add k r.poller r.source ⟨Interests.readable ||| Interests.edge, r.token⟩ = (.ok (), k') →
    enrolled k' r
  /-- Reading the source leaves it in force. -/
  read : ∀ {r : Registration} {k : K} (n : Nat), enrolled k r →
    enrolled (Kernel.read k r.source n).2 r

variable {K : Type} [Kernel K]

/-- What others may do to an environment while a future under a token is polled and between its
polls: its registration and its waker are its own. -/
structure Environment.Minds (roster : Roster K) (t : Token) (e e' : Environment K) : Prop where
  /-- The poller is the same. -/
  poller : e'.reactor.poller = e.reactor.poller
  /-- The waker of the token is the same. -/
  waker : e'.reactor.wakers.get? t = e.reactor.wakers.get? t
  /-- Registrations under the token stay in force. -/
  kernel : ∀ d, roster.enrolled e.kernel ⟨e.reactor.poller, d, t⟩ →
    roster.enrolled e'.kernel ⟨e.reactor.poller, d, t⟩

namespace ReadToEnd

/-! ### Polls of one future -/

/-- A future in its environment, the poll in progress, and the polls that have ended: how, and
whether the future counted as registered afterwards. -/
structure Course (K : Type) where
  /-- The environment. -/
  environment : Environment K
  /-- The future. -/
  future : ReadToEnd
  /-- The waker of the poll in progress, and where the poll is. -/
  poll : Option (Waker × Moment) := none
  /-- The polls that have ended. -/
  past : List (Polled Bytes × Bool) := []

namespace Course

/-- Nobody has polled the future yet. -/
structure Fresh (x : Course K) : Prop where
  /-- Nobody polls it. -/
  poll : x.poll = none
  /-- Nobody has polled it. -/
  past : x.past = []
  /-- It has not been prepared. -/
  started : x.future.started = false
  /-- It is not registered. -/
  registered : x.future.registered = false

/-- **A step** of a poll of the future, or of others. A poll may begin however the last one has
ended. -/
inductive Move (roster : Roster K) (opening : Opening K) (x : Course K) : Course K → Prop
  /-- Others do something. -/
  | other {e : Environment K} (he : x.environment.Minds roster x.future.token e) :
    Move roster opening x { x with environment := e }
  /-- A poll begins. -/
  | begin (w : Waker) (hp : x.poll = none) :
    Move roster opening x { x with poll := some (w, x.future.begin.moment) }
  /-- The poll makes a step. -/
  | tick {w : Waker} {m : Moment} (hp : x.poll = some (w, m)) :
    Move roster opening x { x with
      environment := (Reading.tick opening w ⟨x.future, m⟩ x.environment).2
      future := (Reading.tick opening w ⟨x.future, m⟩ x.environment).1.future
      poll := some (w, (Reading.tick opening w ⟨x.future, m⟩ x.environment).1.moment) }
  /-- The poll ends. -/
  | finish {w : Waker} {r : Polled Bytes} (hp : x.poll = some (w, .complete r)) :
    Move roster opening x { x with
      poll := none
      past := x.past ++ [(r, x.future.registered)] }

/-- Some steps. -/
inductive Run (roster : Roster K) (opening : Opening K) (x₀ : Course K) : Course K → Prop
  /-- No step. -/
  | refl : Run roster opening x₀ x₀
  /-- Another step. -/
  | step {x x' : Course K} (hr : Run roster opening x₀ x) (hm : Move roster opening x x') :
    Run roster opening x₀ x'

/-- A poll has failed and left the future unregistered. -/
def Faulted (past : List (Polled Bytes × Bool)) : Prop := ∃ e, (.error e, false) ∈ past

end Course

variable {roster : Roster K} {e e' : Environment K} {w : Waker} {f : ReadToEnd} {m : Moment}
  {past : List (Polled Bytes × Bool)}

/-- The future has been prepared, be it in vain. -/
structure Prepared (roster : Roster K) (e : Environment K) (past : List (Polled Bytes × Bool))
    (f : ReadToEnd) : Prop where
  /-- Preparation has begun. -/
  started : f.started = true
  /-- What counts as registered is registered. -/
  enrolled : f.registered = true → roster.enrolled e.kernel (f.registration e)
  /-- The future counts as registered unless a poll has failed and left it unregistered. -/
  registered : f.registered = true ↔ ¬ Course.Faulted past

/-- **What is known of a future** between its polls, and at each moment of a poll. -/
def Known (roster : Roster K) (e : Environment K) (past : List (Polled Bytes × Bool))
    (f : ReadToEnd) : Option (Waker × Moment) → Prop
  | none => f.finished = true ∨
      (f.started = false ∧ f.registered = false ∧ ¬ Course.Faulted past) ∨
      Prepared roster e past f
  | some (_, .opening) => f.registered = false ∧ ¬ Course.Faulted past
  | some (_, .unblocking) => f.started = true ∧ f.registered = false ∧ ¬ Course.Faulted past
  | some (_, .checking) => f.started = true ∧ f.registered = false ∧ ¬ Course.Faulted past
  | some (_, .adding) => f.started = true ∧ f.registered = false ∧ ¬ Course.Faulted past
  | some (_, .arming) => Prepared roster e past f
  | some (_, .reading) => Prepared roster e past f
  | some (_, .rearming) => Prepared roster e past f
  | some (_, .forgetting) => f.started = true ∧ f.registered = false
  | some (_, .removing) => f.started = true ∧ f.registered = false
  | some (w, .complete (.ok .pending)) =>
      Prepared roster e past f ∧ e.reactor.wakers.get? f.token = some w
  | some (_, .complete (.ok (.ready _))) => f.finished = true
  | some (_, .complete (.error _)) => f.finished = true ∨ f.started = true ∧
      (f.registered = true →
        roster.enrolled e.kernel (f.registration e) ∧ ¬ Course.Faulted past)

/-- **What a future that is left pending has arranged.** -/
structure Arranged (roster : Roster K) (past : List (Polled Bytes × Bool)) (w : Waker)
    (f : ReadToEnd) (e : Environment K) : Prop where
  /-- The waker of the poll is stored. -/
  stored : e.reactor.wakers.get? f.token = some w
  /-- If it counts as registered, its descriptor is registered with the poller under its token. -/
  enrolled : f.registered = true → roster.enrolled e.kernel (f.registration e)
  /-- It counts as registered unless an earlier poll has failed and left it unregistered. -/
  registered : f.registered = true ↔ ∀ x, (.error x, false) ∉ past

theorem Prepared.arranged_of_stored (hf : Prepared roster e past f)
    (hw : e.reactor.wakers.get? f.token = some w) : Arranged roster past w f e where
  stored := hw
  enrolled := hf.enrolled
  registered := hf.registered.trans not_exists

/-! ### Others -/

theorem enrolled_of_minds (hs : e.Minds roster f.token e')
    (he : roster.enrolled e.kernel (f.registration e)) :
    roster.enrolled e'.kernel (f.registration e') := by
  rw [registration, hs.poller]
  exact hs.kernel _ he

theorem Prepared.minds (hf : Prepared roster e past f) (hs : e.Minds roster f.token e') :
    Prepared roster e' past f :=
  ⟨hf.started, fun hr ↦ enrolled_of_minds hs (hf.enrolled hr), hf.registered⟩

/-- What is known is known whatever others do. -/
theorem Known.minds {p : Option (Waker × Moment)} (hk : Known roster e past f p)
    (hs : e.Minds roster f.token e') : Known roster e' past f p := by
  rcases p with _ | ⟨w, m⟩
  · exact hk.imp_right (Or.imp_right fun hf ↦ hf.minds hs)
  cases m with
  | arming => exact Prepared.minds hk hs
  | reading => exact Prepared.minds hk hs
  | rearming => exact Prepared.minds hk hs
  | complete r =>
    rcases r with x | _ | b
    · exact hk.imp_right fun hf ↦
        ⟨hf.1, fun hr ↦ ⟨enrolled_of_minds hs (hf.2 hr).1, (hf.2 hr).2⟩⟩
    · exact ⟨hk.1.minds hs, hs.waker.trans hk.2⟩
    · exact hk
  | _ => exact hk

/-! ### The steps of a poll -/

/-- A future that is prepared counts as such when its poll fails. -/
theorem Prepared.failed (hf : Prepared roster e past f) (w : Waker) (x : Failure) :
    Known roster e past f (some (w, .complete (.error x))) :=
  .inr ⟨hf.started, fun hr ↦ ⟨hf.enrolled hr, hf.registered.1 hr⟩⟩

/-- So does one that is not registered. -/
theorem failed_of_unregistered (hs : f.started = true) (hr : f.registered = false) (w : Waker)
    (x : Failure) : Known roster e past f (some (w, .complete (.error x))) := by
  refine .inr ⟨hs, fun ht ↦ ?_⟩
  rw [hr] at ht
  cases ht

namespace Reading

/-- A step that follows an operation. -/
theorem known_andThen {g : ReadToEnd} {next : ReadToEnd × Moment}
    {r : Except Failure Unit × Environment K}
    (hok : r.1 = .ok () → Known roster r.2 past next.1 (some (w, next.2)))
    (hfail : ∀ x, r.1 = .error x → Known roster r.2 past g (some (w, .complete (.error x)))) :
    Known roster (andThen g next r).2 past (andThen g next r).1.future
      (some (w, (andThen g next r).1.moment)) := by
  rcases r with ⟨x | u, e⟩
  · exact hfail x rfl
  · exact hok rfl

/-- **Leaving a waker**: it is stored, or the poll fails and nothing changes. -/
theorem known_setWaker (hf : Prepared roster e past f) (m : Moment)
    (hm : ∀ e', e'.reactor.wakers.get? f.token = some w → Prepared roster e' past f →
      Known roster e' past f (some (w, m))) :
    Known roster (andThen f (f, m) (e.setWaker f.token w)).2 past
      (andThen f (f, m) (e.setWaker f.token w)).1.future
      (some (w, (andThen f (f, m) (e.setWaker f.token w)).1.moment)) := by
  refine known_andThen (fun hok ↦ ?_) fun x hx ↦ ?_
  · rw [of_setWaker _ _ hok]
    exact hm _ (by simp) ⟨hf.started, hf.enrolled, hf.registered⟩
  · have he : (e.setWaker f.token w).2 = e := by
      rcases hfail : e.reactor.failure with _ | reason
      · rw [Environment.setWaker_of_alive hfail] at hx
        cases hx
      · rw [Environment.setWaker_of_failed hfail]
    rw [he]
    exact hf.failed w x

/-- **A read** leaves the future prepared, until the end has been reached. -/
theorem known_read (hf : Prepared roster e past f) :
    Known roster (read f e).2 past (read f e).1.future (some (w, (read f e).1.moment)) := by
  have hread (hr : f.registered = true) := roster.read f.chunk (hf.enrolled hr)
  dsimp only [read]
  rcases hk : Kernel.read e.kernel f.owned.number f.chunk with ⟨x | ⟨_ | ⟨b, bs⟩⟩, k⟩
  · have hstill : Prepared roster { e with kernel := k } past f := by
      refine ⟨hf.started, fun hr ↦ ?_, hf.registered⟩
      have he := hread hr
      rwa [show Kernel.read e.kernel (f.registration e).source f.chunk = _ from hk] at he
    dsimp only
    split
    · exact hstill
    · split
      · exact ⟨hstill.started, hstill.enrolled, hstill.registered⟩
      · exact hstill.failed w _
  · exact ⟨hf.started, rfl⟩
  · refine ⟨hf.started, fun hr ↦ ?_, hf.registered⟩
    have he := hread hr
    rwa [show Kernel.read e.kernel (f.registration e).source f.chunk = _ from hk] at he

/-- **The steps of a poll** lead from what is known to what is known. -/
theorem known_tick {opening : Opening K} (hk : Known roster e past f (some (w, m))) :
    Known roster (tick opening w ⟨f, m⟩ e).2 past (tick opening w ⟨f, m⟩ e).1.future
      (some (w, (tick opening w ⟨f, m⟩ e).1.moment)) := by
  cases m with
  | opening =>
    dsimp only [tick]
    split
    · exact failed_of_unregistered (f := { f with started := true }) rfl hk.1 w _
    · exact ⟨rfl, hk.1, hk.2⟩
  | unblocking =>
    exact known_andThen (fun _ ↦ hk) fun x _ ↦ failed_of_unregistered hk.1 hk.2.1 w x
  | checking =>
    exact known_andThen (fun _ ↦ hk) fun x _ ↦ failed_of_unregistered hk.1 hk.2.1 w x
  | adding =>
    obtain ⟨hs, hr, hno⟩ := hk
    refine known_andThen (fun hok ↦ ?_) fun x _ ↦ failed_of_unregistered hs hr w x
    exact ⟨hs, fun _ ↦ roster.add (of_register _ (f.registration e) _ hok), iff_of_true rfl hno⟩
  | arming => exact known_setWaker hk .reading fun _ _ hf ↦ hf
  | reading => exact known_read hk
  | rearming => exact known_setWaker hk (.complete (.ok .pending)) fun _ hw hf ↦ ⟨hf, hw⟩
  | forgetting => exact hk
  | removing => exact known_andThen (fun _ ↦ rfl) fun x _ ↦ failed_of_unregistered hk.1 hk.2 w x
  | complete r => exact hk

end Reading

/-- A poll begins with what is known between the polls. -/
theorem known_begin (hk : Known roster e past f none) :
    Known roster e past f (some (w, f.begin.moment)) := by
  rw [begin]
  dsimp only
  split
  · next hfinished => exact .inl hfinished
  · next hfinished =>
    obtain hfresh | hprepared := hk.resolve_left hfinished
    · rw [hfresh.1]
      exact hfresh.2
    · rw [hprepared.started]
      exact hprepared

/-- A poll ends with what is known between the polls. -/
theorem known_finish {r : Polled Bytes} (hk : Known roster e past f (some (w, .complete r))) :
    Known roster e (past ++ [(r, f.registered)]) f none := by
  rcases r with x | _ | b
  · refine hk.imp_right fun ⟨hs, hr⟩ ↦ .inr ⟨hs, fun ht ↦ (hr ht).1, ?_⟩
    cases ht : f.registered with
    | true => simpa [Course.Faulted] using (hr ht).2
    | false => simp [Course.Faulted]
  · refine .inr (.inr ⟨hk.1.started, hk.1.enrolled, ?_⟩)
    simpa [Course.Faulted] using hk.1.registered
  · exact .inl hk

namespace Course

variable {opening : Opening K} {x₀ x x' : Course K}

/-! ### Runs -/

/-- **Every step** keeps what is known of the future. -/
theorem Move.known (hm : Move roster opening x x')
    (hk : Known roster x.environment x.past x.future x.poll) :
    Known roster x'.environment x'.past x'.future x'.poll := by
  cases hm with
  | other he => exact hk.minds he
  | begin w hp =>
    rw [hp] at hk
    exact known_begin hk
  | tick hp =>
    rw [hp] at hk
    exact Reading.known_tick hk
  | finish hp =>
    rw [hp] at hk
    exact known_finish hk

theorem Run.known (hr : Run roster opening x₀ x) (hx : x₀.Fresh) :
    Known roster x.environment x.past x.future x.poll := by
  induction hr with
  | refl =>
    rw [hx.poll]
    exact .inr (.inl ⟨hx.started, hx.registered, by simp [Faulted, hx.past]⟩)
  | step _ hm ih => exact hm.known ih

/-- A poll that is left alone makes its steps. -/
theorem Run.play {m : Moment} {y : Reading × Environment K} (hr : Run roster opening x₀ x)
    (hp : x.poll = some (w, m)) (hy : Plays opening w (⟨x.future, m⟩, x.environment) y) :
    Run roster opening x₀
      { x with environment := y.2, future := y.1.future, poll := some (w, y.1.moment) } := by
  obtain ⟨n, rfl⟩ := hy
  induction n generalizing x m with
  | zero =>
    obtain ⟨e, f, p, past⟩ := x
    obtain rfl : p = some (w, m) := hp
    exact hr
  | succ n ih => exact ih (hr.step (.tick hp)) rfl

/-- **What a poll that leaves its future pending has arranged**, whatever the wakers and the
outcomes of earlier polls: its waker is stored, and the descriptor is registered, unless an earlier
poll has failed and left the future unregistered. This holds of the poll that others interrupt, and
of the function. -/
theorem Run.arranged (hr : Run roster opening x₀ x) (hx : x₀.Fresh) :
    (∀ w, x.poll = some (w, .complete (.ok .pending)) →
      Arranged roster x.past w x.future x.environment) ∧
    (x.poll = none → ∀ w f e, x.future.poll opening w x.environment = (.ok .pending, f, e) →
      Arranged roster x.past w f e) := by
  refine ⟨fun w hp ↦ ?_, fun hp w f e hf ↦ ?_⟩
  · have hk := hr.known hx
    rw [hp] at hk
    exact hk.1.arranged_of_stored hk.2
  · have hplays := plays_poll x.future opening w x.environment
    rw [hf] at hplays
    have hk := ((hr.step (.begin w hp)).play rfl hplays).known hx
    exact hk.1.arranged_of_stored hk.2

end Course

end ReadToEnd

/-! ### The host -/

namespace Host

variable {h h' : Host} {r : Registration} {d : Descriptor} {n : Nat}

/-- Reading leaves descriptors and pollers alone. -/
theorem read_files_pollers (h : Host) (d : Descriptor) (n : Nat) :
    (h.read d n).2.files = h.files ∧ (h.read d n).2.pollers = h.pollers := by
  unfold read
  split
  all_goals
    dsimp only
    first
      | exact ⟨rfl, rfl⟩
      | (split <;> exact ⟨rfl, rfl⟩)

/-- A poller that is asked to report on a source that it has not reported on so far. -/
theorem interest?_concat {p : Poller} (hnew : ¬ p.interests.any (·.descriptor = r.source) = true) :
    Poller.interest? ⟨p.interests ++ [interestOf r], p.queue⟩ r.source = some (interestOf r) := by
  have hnone : p.interests.find? (·.descriptor = r.source) = none :=
    List.find?_eq_none.2 fun i hi he ↦ hnew (List.any_eq_true.2 ⟨i, hi, he⟩)
  rw [Poller.interest?, List.find?_append, hnone]
  simp [interestOf]

theorem source?_of_poller? {p : Poller} (hp : h.poller? d = some (n, p)) :
    h.source? d = some (.poller n) := by
  unfold poller? at hp
  split at hp
  · next hs =>
    rw [hs, (Prod.mk.inj (Option.some.inj hp)).1]
  · cases hp

theorem eq_of_setPoller {p q : Poller} (hq : (h.setPoller n p).pollers[n]? = some q) : q = p := by
  obtain ⟨hlt, hset⟩ := List.getElem?_eq_some_iff.1 hq
  exact hset.symm.trans (List.getElem_set_self _)

/-- The poller behind a descriptor is to report on a source. -/
def Enrolled (h : Host) (r : Registration) : Prop :=
  ∃ n, h.source? r.poller = some (.poller n) ∧
    ∀ p, h.pollers[n]? = some p → p.interest? r.source = some (interestOf r)

theorem enrolled_of_add
    (ha : h.add r.poller r.source ⟨Interests.readable ||| Interests.edge, r.token⟩ = (.ok (), h')) :
    h'.Enrolled r := by
  unfold add at ha
  split at ha
  · cases (Prod.mk.inj ha).1
  · next n p hcheck =>
    split at ha
    · cases (Prod.mk.inj ha).1
    · next hnew =>
      obtain ⟨-, rfl⟩ := Prod.mk.inj ha
      have hsource : h.source? r.poller = some (.poller n) :=
        source?_of_poller? (poller?_of_checkControl hcheck)
      refine ⟨n, hsource, fun q hq ↦ ?_⟩
      rw [eq_of_setPoller hq]
      split
      · exact interest?_concat hnew
      · rw [Poller.interest?, interests_enqueue]
        exact interest?_concat hnew

/-- In a sound host, there is a poller behind each descriptor of one. -/
theorem enrolled_iff_watched (hs : h.Sound) : h.Enrolled r ↔ edges.watched h r := by
  constructor
  · rintro ⟨n, hsource, hi⟩
    have hlt := hs.pollers _ _ hsource
    have hp : h.pollers[n]? = some h.pollers[n] := List.getElem?_eq_getElem hlt
    exact ⟨n, _, ⟨hsource, hp⟩, hi _ hp⟩
  · rintro ⟨n, p, hb, hi⟩
    refine ⟨n, hb.1, fun q hq ↦ ?_⟩
    obtain rfl := Option.some.inj (hb.2.symm.trans hq)
    exact hi

/-- **The registrations of a host.** -/
def roster : Roster Host where
  enrolled := Enrolled
  add := enrolled_of_add
  read {r h} n he := by
    obtain ⟨hfiles, hpollers⟩ := read_files_pollers h r.source n
    obtain ⟨m, hsource, hi⟩ := he
    refine ⟨m, ?_, fun p hp ↦ hi p (hpollers ▸ hp)⟩
    show ((h.read r.source n).2.files.get? r.poller).map _ = _
    rw [hfiles]
    exact hsource

end Host

namespace ReadToEnd.Course

/-- A poller, and a future for a pipe that nobody has written to. -/
def overseen : Course Host where
  environment :=
    { kernel := (Host.createPoller (Host.openPipe default).2).2, reactor := { poller := 102 } }
  future := { owned := ⟨100⟩, token := 1, chunk := 4 }

/-- The waker that the polls of the future are handed. -/
def overseer : Waker := ⟨some ⟨0⟩, 7, some ⟨0⟩⟩

theorem fresh_overseen : overseen.Fresh := ⟨rfl, rfl, rfl, rfl⟩

/-- The first poll leaves the future pending, and registered with the poller, whether it is followed
step by step or called as a function. -/
theorem arranged_overseen :
    (∃ x : Course Host, x.poll = some (overseer, .complete (.ok .pending)) ∧
      x.future.registered = true ∧
      Host.roster.enrolled x.environment.kernel (x.future.registration x.environment) ∧
      Arranged Host.roster x.past overseer x.future x.environment) ∧
    ∃ f e, overseen.future.poll .none overseer overseen.environment = (.ok .pending, f, e) ∧
      Arranged Host.roster [] overseer f e := by
  have hstart : Run Host.roster .none overseen overseen := .refl
  refine ⟨?_, ?_⟩
  · have hbegun := hstart.step (.begin overseer rfl)
    have hopened := hbegun.step (.tick rfl)
    have hunblocked := hopened.step (.tick rfl)
    have hchecked := hunblocked.step (.tick rfl)
    have hadded := hchecked.step (.tick rfl)
    have harmed := hadded.step (.tick rfl)
    have hread := harmed.step (.tick rfl)
    have hleft := hread.step (.tick rfl)
    have harranged := (hleft.arranged fresh_overseen).1 overseer rfl
    exact ⟨_, rfl, rfl, harranged.enrolled rfl, harranged⟩
  · have hpending :
        (overseen.future.poll .none overseer overseen.environment).1 = .ok .pending := by
      rw [ReadToEnd.poll, if_neg (by decide), ReadToEnd.prepare, if_neg (by decide)]
      show (ReadToEnd.advance _ _ _).1 = _
      rw [ReadToEnd.advance, ReadToEnd.drain]
      rfl
    rcases hp : overseen.future.poll .none overseer overseen.environment with ⟨r, f, e⟩
    rw [hp] at hpending
    obtain rfl : r = .ok .pending := hpending
    exact ⟨f, e, rfl, (hstart.arranged fresh_overseen).2 rfl overseer f e hp⟩

/-- The same with a poller that refuses whatever it is asked. -/
def overlooked : Course Host :=
  { overseen with environment :=
      { overseen.environment with kernel := overseen.environment.kernel.disable 102 } }

/-- **A pending future that is not registered.** The first poll fails at the registration. The next
poll does not try again, finds nothing to read, and leaves the future pending: nothing will ever
wake it. -/
theorem unregistered_pending :
    ∃ x : Course Host, overlooked.Fresh ∧ Run Host.roster .none overlooked x ∧
      x.past.map Prod.snd = [false] ∧ x.poll = some (overseer, .complete (.ok .pending)) ∧
      x.future.registered = false ∧
      ¬ Host.roster.enrolled x.environment.kernel (x.future.registration x.environment) := by
  have hstart : Run Host.roster .none overlooked overlooked := .refl
  have hbegun := hstart.step (.begin overseer rfl)
  have hopened := hbegun.step (.tick rfl)
  have hunblocked := hopened.step (.tick rfl)
  have hchecked := hunblocked.step (.tick rfl)
  have hrefused := hchecked.step (.tick rfl)
  have hfailed := hrefused.step (.finish rfl)
  have hagain := hfailed.step (.begin overseer rfl)
  have hread := hagain.step (.tick rfl)
  have hleft := hread.step (.tick rfl)
  refine ⟨_, ⟨rfl, rfl, rfl, rfl⟩, hleft, rfl, rfl, rfl, ?_⟩
  rintro ⟨n, hsource, -⟩
  exact absurd (show some Host.Source.other = some (.poller n) from hsource) nofun

end ReadToEnd.Course

end TaskRuntime
