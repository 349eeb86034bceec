import TaskRuntime.Proofs.Queued
import TaskRuntime.Proofs.Quiet

/-!
# No wake is missed

Between its look at the empty queue and the moment in which it sleeps, the thread of an executor
does not look at the queue again. A wake that pushes in between is not missed: as long as an id is
queued, there is a token, or somebody who has pushed has yet to notify.

Polls may take tokens and run tasks to completion as they like. The thread is then not on its way to
sleep, and looks at the queue before it gets there.

## The invariant

`Ensemble.Watchful` is kept by every step. Its field `wake` is the statement itself, for the whole
way to sleep, where a wake of the thread's own also counts as one that has yet to notify.
-/

namespace TaskRuntime

variable {W B V : Type} {β : Behaviour W B V} {σ : Surroundings W B V}

/-! ### On the way to sleep -/

namespace Machine

variable {m m' : Machine W B V} {n : List (Note V)} {c : Call W B V}

theorem not_drowsy_of_leave {site : Site W B} {rest : List (Call W B V)}
    {result : Except Failure (Option V)} (h : leave β site c rest result = (n, m'))
    (ho : Orderly (c :: rest)) : ∀ d ∈ m'.calls.head?, ¬ d.doing.Drowsy := by
  obtain ⟨ds, w, -, -, -, hcalls⟩ := leave_spec h
  rw [hcalls]
  cases rest with
  | nil => simp [resumed]
  | cons e rest =>
    intro d hd
    obtain rfl : { e with doing := e.doing.resume result } = d := Option.mem_some.1 hd
    exact ((ho.waits e List.mem_cons_self).resume result).not_drowsy

/-- A call that is on its way to sleep after a change of position has been so before, or has found
the queue empty at this moment. -/
theorem Shift.drowsy {x : Executor B} {s s' : Signals} {d d' : Doing W B V}
    (h : Shift σ x s d s' d') (hd : d'.Drowsy) :
    s' = s ∧ ((s.queue x.queue).ids = [] ∨ d.Drowsy) := by
  cases h with
  | announce hq _ => exact ⟨rfl, Or.inl hq⟩
  | count hq => exact ⟨rfl, Or.inl hq⟩
  | announced => exact ⟨rfl, Or.inr trivial⟩
  | asleep => exact ⟨rfl, Or.inr trivial⟩
  | idle _ => exact hd.elim
  | again => exact hd.elim
  | awake _ => exact hd.elim

/-- A call that is on its way to sleep after a turn has been so before, or has found the queue empty
at this moment. -/
theorem Turn.drowsy (hm : Turn β σ m n m') (ho : Orderly m.calls) (hc : c ∈ m'.calls.head?)
    (hd : c.doing.Drowsy) :
    m'.site.signals = m.site.signals ∧
      (m.site.ready = [] ∨ ∃ d ∈ m.calls.head?, d.doing.Drowsy) := by
  cases hm with
  | entered _ h =>
    obtain ⟨rfl, rfl⟩ := Prod.mk.inj h
    obtain rfl := Option.mem_some.1 hc
    exact hd.elim
  | @shifted _ _ _ _ e _ _ _ _ _ hs _ =>
    obtain rfl := Option.mem_some.1 hc
    obtain ⟨rfl, hz | he⟩ := hs.drowsy hd
    · exact ⟨rfl, Or.inl hz⟩
    · exact ⟨rfl, Or.inr ⟨e, rfl, he⟩⟩
  | firstFailed _ h => exact absurd hd (not_drowsy_of_leave h ho c hc)
  | firstReturned _ _ h =>
    exact absurd hd (not_drowsy_of_leave h (ho.move_head trivial) c hc)
  | pollFailed _ h => exact absurd hd (not_drowsy_of_leave h ho c hc)
  | finished _ _ h => exact absurd hd (not_drowsy_of_leave h ho c hc)
  | announceFailed _ h => exact absurd hd (not_drowsy_of_leave h ho c hc)
  | firstPended =>
    obtain rfl := Option.mem_some.1 hc
    exact hd.elim
  | firstResolved =>
    obtain rfl := Option.mem_some.1 hc
    exact hd.elim
  | stale he _ _ =>
    obtain rfl := Option.mem_some.1 hc
    rw [he] at hd
    exact hd.elim
  | began =>
    obtain rfl := Option.mem_some.1 hc
    exact hd.elim
  | pollPended =>
    obtain rfl := Option.mem_some.1 hc
    exact hd.elim
  | @pollResolved _ e _ _ id =>
    obtain rfl := Option.mem_some.1 hc
    by_cases he : e.id = id <;> simp [he, Doing.Drowsy] at hd

theorem length_parkers_of_leave {site : Site W B} {rest : List (Call W B V)}
    {result : Except Failure (Option V)} (h : leave β site c rest result = (n, m')) :
    m'.site.signals.parkers.length = site.signals.parkers.length := by
  obtain ⟨ds, w, -, -, hsite, -⟩ := leave_spec h
  rw [hsite]

theorem Shift.length_parkers {x : Executor B} {s s' : Signals} {d d' : Doing W B V}
    (h : Shift σ x s d s' d') : s'.parkers.length = s.parkers.length := by
  cases h with
  | awake h =>
    obtain ⟨p, -, rfl⟩ := Option.map_eq_some_iff.1 h
    simp [Signals.setParker]
  | _ => rfl

/-- Turns keep the parkers there are. -/
theorem Turn.length_parkers (hm : Turn β σ m n m') :
    m'.site.signals.parkers.length = m.site.signals.parkers.length := by
  cases hm with
  | entered _ h =>
    obtain ⟨rfl, rfl⟩ := Prod.mk.inj h
    rfl
  | shifted hs _ => exact hs.length_parkers
  | firstPended _ h =>
    obtain ⟨ds, tasks, w, -, -, rfl, -⟩ := Site.enqueue_spec h
    rfl
  | pollPended _ h =>
    obtain ⟨-, tasks, w, rfl, -⟩ := Site.insert_spec h
    rfl
  | stale _ hp _ =>
    obtain ⟨r, -, rfl⟩ := Signals.pop?_eq_some hp
    rfl
  | began _ hp _ =>
    obtain ⟨r, -, rfl⟩ := Signals.pop?_eq_some hp
    rfl
  | firstFailed _ h => exact (length_parkers_of_leave h).trans rfl
  | firstReturned _ _ h => exact (length_parkers_of_leave h).trans rfl
  | pollFailed _ h => exact (length_parkers_of_leave h).trans rfl
  | finished _ _ h => exact (length_parkers_of_leave h).trans rfl
  | announceFailed _ h => exact (length_parkers_of_leave h).trans rfl
  | firstResolved => rfl
  | pollResolved => rfl

end Machine

/-! ### Requests -/

namespace Act

variable {R : Type} {p p' : Act W B V R} {site site' : Site W B} {n : List (Note V)}

/-- Requests keep the parkers there are, and those of the executor. -/
theorem parkers_of_request? (h : p.request? β site = some (n, p', site')) :
    site'.signals.parkers.length = site.signals.parkers.length ∧
      site'.executor.refs = site.executor.refs := by
  cases p with
  | spawn b k =>
    rcases hs : site.spawn β b with ⟨id, notes, s⟩
    obtain ⟨-, -, rfl⟩ : notes = n ∧ k (.ok id) = p' ∧ s = site' := by
      simpa [request?, hs] using h
    obtain ⟨-, ds, tasks, w, -, -, rfl, -⟩ := Site.spawn_spec hs
    exact ⟨rfl, rfl⟩
  | look k =>
    obtain ⟨-, -, rfl⟩ : _ ∧ _ ∧ _ := by simpa [request?] using h
    exact ⟨rfl, rfl⟩
  | put w k =>
    obtain ⟨-, -, rfl⟩ : _ ∧ _ ∧ _ := by simpa [request?] using h
    exact ⟨rfl, rfl⟩
  | unpark k =>
    obtain ⟨-, -, rfl⟩ : _ ∧ _ ∧ _ := by simpa [request?] using h
    exact ⟨Signals.length_parkers_unpark _ _, rfl⟩
  | parkFor k =>
    obtain ⟨-, -, rfl⟩ : _ ∧ _ ∧ _ := by simpa [request?] using h
    exact ⟨by simp [Signals.parkFor, Signals.setParker], rfl⟩
  | figures k =>
    obtain ⟨-, -, rfl⟩ : _ ∧ _ ∧ _ := by simpa [request?] using h
    exact ⟨rfl, rfl⟩
  | done r => simp [request?] at h
  | wake w k => simp [request?] at h
  | blockOn b k => simp [request?] at h

/-- A quiet request leaves the ready queue alone, and takes no token. -/
theorem Quiet.signals_of_request? (hp : p.Quiet) (h : p.request? β site = some (n, p', site')) :
    site' = ⟨site.executor, site.signals, site'.world⟩ ∨
      site' = ⟨site.executor, site.signals.unpark site.executor.parker, site.world⟩ := by
  cases p with
  | look k =>
    obtain ⟨-, -, rfl⟩ : _ ∧ _ ∧ _ := by simpa [request?] using h
    exact Or.inl rfl
  | put w k =>
    obtain ⟨-, -, rfl⟩ : _ ∧ _ ∧ _ := by simpa [request?] using h
    exact Or.inl rfl
  | unpark k =>
    obtain ⟨-, -, rfl⟩ : _ ∧ _ ∧ _ := by simpa [request?] using h
    exact Or.inr rfl
  | figures k =>
    obtain ⟨-, -, rfl⟩ : _ ∧ _ ∧ _ := by simpa [request?] using h
    exact Or.inl rfl
  | done r => simp [request?] at h
  | wake w k => simp [request?] at h
  | spawn b k => exact hp.elim
  | parkFor k => exact hp.elim
  | blockOn b k => exact hp.elim

end Act

/-! ### The invariant -/

/-- A waker queues ids of an executor and notifies its thread. -/
def Waker.Rings (w : Waker) (x : Executor B) : Prop :=
  w.queue = some x.queue ∧ w.parker = some x.parker

/-- A waker that queues ids of an executor notifies no other thread than that of the executor. This
is true of all wakers that come from the executor, and of all that have another queue. -/
def Waker.Fits (w : Waker) (x : Executor B) : Prop :=
  w.queue = some x.queue → ∀ p, w.parker = some p → p = x.parker

theorem Executor.fits_waker (x : Executor B) (id : TaskId) : (x.waker id).Fits x :=
  fun _ _ hp ↦ (Option.some.inj hp).symm

namespace Ensemble

/-- There is a token, or a wake that has queued an id and has yet to notify the thread. -/
def Alarmed (s : Ensemble W B V) : Prop :=
  s.machine.site.signals.token s.machine.site.executor.parker = true ∨
    ∃ w, (w ∈ s.flights ∨ s.own = some w) ∧ w.Rings s.machine.site.executor

/-- **The thread is watchful.** -/
structure Watchful (s : Ensemble W B V) : Prop where
  /-- The parker exists. -/
  parker : s.machine.site.executor.parker.index < s.machine.site.signals.parkers.length
  /-- On the way to sleep, no id is queued without an alarm. -/
  wake : ∀ c ∈ s.machine.calls.head?, c.doing.Drowsy → s.machine.site.ready ≠ [] → s.Alarmed
  /-- The thread does not park in the middle of a wake of its own. -/
  own : ∀ c ∈ s.machine.calls.head?, c.doing = .park → s.own = none

variable {m m' : Machine W B V} {fl : List Waker} {own : Option Waker} {w : Waker}
  {n : List (Note V)}

/-- After a push, there is an alarm if the queue is not empty. -/
theorem Alarmed.pushFor {o : Option Waker} {fl' : List Waker} {calls : List (Call W B V)}
    (hq : m.site.signals.Queue m.site.executor.queue) (hw : w.Fits m.site.executor)
    (hfl : ∀ v, v = w ∨ v ∈ fl ∨ own = some v → v ∈ fl' ∨ o = some v)
    (h : m.site.ready ≠ [] → Alarmed ⟨m, fl, own⟩)
    (hready : (m.onSignals (·.pushFor w)).site.ready ≠ []) :
    Alarmed ⟨{ m.onSignals (·.pushFor w) with calls }, fl', o⟩ := by
  -- What is queued has been pushed just now, or there was an alarm for it already.
  obtain ⟨id, hid⟩ := List.exists_mem_of_ne_nil _ hready
  rcases (hq.mem_pushFor w id).1 hid with ⟨hwq, hwp, -⟩ | hid
  · obtain ⟨p, hp⟩ := Option.ne_none_iff_exists'.1 hwp
    exact Or.inr ⟨w, hfl w (Or.inl rfl), hwq, by rw [hp, hw hwq p hp]; rfl⟩
  · rcases h (List.ne_nil_of_mem hid) with ht | ⟨v, hv, hr⟩
    · exact Or.inl (by simpa [Machine.onSignals] using ht)
    · exact Or.inr ⟨v, hfl v (Or.inr hv), hr⟩

/-- After a notification, there is still an alarm. -/
theorem Alarmed.unparkFor {fl' : List Waker} {o : Option Waker}
    (hp : m.site.executor.parker.index < m.site.signals.parkers.length)
    (hfl : ∀ v, v ∈ fl ∨ own = some v → v = w ∨ v ∈ fl' ∨ o = some v)
    (h : Alarmed ⟨m, fl, own⟩) : Alarmed ⟨m.onSignals (·.unparkFor w), fl', o⟩ := by
  have htoken := Signals.token_unparkFor hp w
  rcases h with ht | ⟨v, hv, hr⟩
  · exact Or.inl (htoken.2 (Or.inr ht))
  · rcases hfl v hv with rfl | hv
    · exact Or.inl (htoken.2 (Or.inl ⟨by simp [hr.1], hr.2⟩))
    · exact Or.inr ⟨v, hv, hr⟩

theorem Alarmed.congr {s s' : Ensemble W B V} (h : s.Alarmed)
    (ht : s.machine.site.signals.token s.machine.site.executor.parker = true →
      s'.machine.site.signals.token s'.machine.site.executor.parker = true)
    (hx : s'.machine.site.executor.refs = s.machine.site.executor.refs)
    (hf : s'.flights = s.flights) (ho : s'.own = s.own) : s'.Alarmed := by
  obtain ⟨hq, hp⟩ := Prod.mk.inj hx
  rcases h with h | ⟨w, hw, hr⟩
  · exact Or.inl (ht h)
  · exact Or.inr ⟨w, by rw [hf, ho]; exact hw, by rw [hq]; exact hr.1, by rw [hp]; exact hr.2⟩

variable {s s' : Ensemble W B V}

/-- A turn keeps the thread watchful. -/
theorem Watchful.turn (h : Watchful ⟨m, fl, none⟩) (hm : Machine.Turn β σ m n m')
    (ho : Orderly m.calls) : Watchful ⟨m', fl, none⟩ := by
  obtain ⟨hq, hp⟩ := Prod.mk.inj hm.refs
  refine ⟨?_, fun c hc hd hz ↦ ?_, fun _ _ _ ↦ rfl⟩
  · rw [hp, hm.length_parkers]
    exact h.parker
  · obtain ⟨hsig, hcase⟩ := hm.drowsy ho hc hd
    have hready : m'.site.ready = m.site.ready := by rw [Site.ready, hsig, hq, ← Site.ready]
    rcases hcase with hnil | ⟨d, hdm, hdd⟩
    · exact absurd (hready.trans hnil) hz
    · refine (h.wake d hdm hdd (hready ▸ hz)).congr (fun ht ↦ ?_) hm.refs rfl rfl
      rw [hsig, hp]
      exact ht

/-- A request keeps the thread watchful. -/
theorem Watchful.request {R : Type} {c : Call W B V} {rest : List (Call W B V)}
    {wrap : Act W B V R → Doing W B V} {p p' : Act W B V R} {site : Site W B}
    (h : Watchful ⟨m, fl, none⟩) (hc : m.calls = c :: rest) (hw : Doing.Runs wrap)
    (hd : c.doing = wrap p) (hp : p.request? β m.site = some (n, p', site))
    (ho : Orderly m.calls) :
    Watchful ⟨{ m with site, calls := { c with doing := wrap p' } :: rest }, fl, none⟩ := by
  obtain ⟨hlen, hx⟩ := Act.parkers_of_request? hp
  have hparker : site.executor.parker = m.site.executor.parker := congrArg Prod.snd hx
  refine ⟨?_, fun d hmem hdd hz ↦ ?_, fun _ _ _ ↦ rfl⟩
  · show site.executor.parker.index < site.signals.parkers.length
    rw [hparker, hlen]
    exact h.parker
  · obtain rfl := Option.mem_some.1 hmem
    rw [hc] at ho
    have hcalm : c.doing.Calm := ho.calm c rfl
    have hdrowsy : c.doing.Drowsy := hd ▸ (hw.drowsy_iff p p').2 hdd
    -- On the way to sleep, a request does no more to the signals than to notify the thread.
    have hquiet : p.Quiet := hw.quiet (hd ▸ hcalm) (hd ▸ hdrowsy)
    have hc' : c ∈ m.calls.head? := by rw [hc]; rfl
    rcases hquiet.signals_of_request? hp with he | he
    · have hz' : m.site.ready ≠ [] := by
        rw [he] at hz
        exact hz
      refine (h.wake c hc' hdrowsy hz').congr (fun ht ↦ ?_) hx rfl rfl
      rw [he]
      exact ht
    · refine Or.inl ?_
      show site.signals.token site.executor.parker = true
      rw [he, Signals.token_unpark h.parker]
      simp

/-- **A step keeps the thread watchful**, if the wakers of others fit. -/
theorem Step.watchful (hs : Step β σ s n s') (hw : s.Watchful) (ho : Orderly s.machine.calls)
    (hq : s.machine.site.signals.Queue s.machine.site.executor.queue)
    (hf : ∀ w, .woke w ∈ n → w.Fits s.machine.site.executor) : s'.Watchful := by
  cases hs with
  | turn hset h => exact hw.turn (Machine.turn_of_step? hset h) ho
  | request hc hr hd h => exact hw.request hc hr hd h ho
  | @push m c rest w fl _ wrap k hc hr hd =>
    have hc' : c ∈ m.calls.head? := by rw [hc]; rfl
    refine ⟨?_, fun d hmem hdd hz ↦ ?_, fun d hmem hpark ↦ ?_⟩
    · simpa [Machine.onSignals] using hw.parker
    · obtain rfl := Option.mem_some.1 hmem
      have hdrowsy : c.doing.Drowsy := hd ▸ (hr.drowsy_iff _ _).2 hdd
      refine Alarmed.pushFor hq (hf w List.mem_cons_self) (fun v hv ↦ ?_)
        (hw.wake c hc' hdrowsy) hz
      rcases hv with rfl | hv | hv
      · exact Or.inr rfl
      · exact Or.inl hv
      · cases hv
    · obtain rfl := Option.mem_some.1 hmem
      exact absurd hpark (hr.ne_park k)
  | @notify m w fl =>
    refine ⟨?_, fun d hmem hdd hz ↦ ?_, fun _ _ _ ↦ rfl⟩
    · simpa [Machine.onSignals] using hw.parker
    · have hz' : m.site.ready ≠ [] := by simpa [Machine.onSignals, Site.ready] using hz
      refine Alarmed.unparkFor hw.parker (fun v hv ↦ ?_) (hw.wake d hmem hdd hz')
      rcases hv with hv | hv
      · exact Or.inr (Or.inl hv)
      · exact Or.inl (Option.some.inj hv).symm
  | @otherPush m own fl w =>
    refine ⟨?_, fun d hmem hdd hz ↦ ?_, hw.own⟩
    · simpa [Machine.onSignals] using hw.parker
    · refine Alarmed.pushFor hq (hf w List.mem_cons_self) (fun v hv ↦ ?_) (hw.wake d hmem hdd) hz
      rcases hv with rfl | hv | hv
      · exact Or.inl List.mem_cons_self
      · exact Or.inl (List.mem_cons_of_mem _ hv)
      · exact Or.inr hv
  | @otherNotify m own fl w hmem =>
    refine ⟨?_, fun d hd hdd hz ↦ ?_, hw.own⟩
    · simpa [Machine.onSignals] using hw.parker
    · have hz' : m.site.ready ≠ [] := by simpa [Machine.onSignals, Site.ready] using hz
      refine Alarmed.unparkFor hw.parker (fun v hv ↦ ?_) (hw.wake d hd hdd hz')
      by_cases hvw : v = w
      · exact Or.inl hvw
      · exact Or.inr (hv.imp_left (List.mem_erase_of_ne hvw).2)
  | @stray m own fl r =>
    refine ⟨?_, fun d hmem hdd hz ↦ ?_, hw.own⟩
    · simpa [Machine.onSignals] using hw.parker
    · refine (hw.wake d hmem hdd hz).congr (fun ht ↦ ?_) rfl rfl rfl
      have htoken := Signals.token_unpark hw.parker r
      rw [ht, Bool.or_true] at htoken
      exact htoken
  | world w => exact ⟨hw.parker, hw.wake, hw.own⟩
  | @elsewhere m own fl signals h =>
    refine ⟨Nat.lt_of_lt_of_le hw.parker h.parkers, fun d hmem hdd hz ↦ ?_, hw.own⟩
    have hz' : m.site.ready ≠ [] := by
      rw [Site.ready, ← h.queue]
      exact hz
    exact (hw.wake d hmem hdd hz').congr (fun ht ↦ h.token.trans ht) rfl rfl rfl
  | spawn b hc h =>
    obtain ⟨-, ds, tasks, w, -, -, rfl, -⟩ := Site.spawn_spec h
    exact ⟨hw.parker, by simp [hc], by simp [hc]⟩
  | blockOn b hc h =>
    obtain ⟨rfl, rfl⟩ := Prod.mk.inj h
    refine ⟨hw.parker, fun d hmem hdd _ ↦ ?_, fun _ _ _ ↦ rfl⟩
    obtain rfl := Option.mem_some.1 hmem
    exact hdd.elim
  | @sleep m fl hc =>
    refine ⟨?_, by simp [Machine.onSignals, hc], fun _ _ _ ↦ rfl⟩
    simpa [Machine.onSignals, Signals.parkFor, Signals.setParker] using hw.parker

/-! ### Runs -/

variable {P : Ensemble W B V → Prop} {site : Site W B} {h : List (Note V)}

theorem watchful_start (hs : site.Fresh) : (start site : Ensemble W B V).Watchful :=
  ⟨hs.parker, by simp [start], by simp [start]⟩

/-- **All runs keep the thread watchful.** -/
theorem Run.watchful (hs : site.Fresh) (hσ : σ.Quiet) (hr : Run β σ P (.start site) h s)
    (hf : ∀ w, .woke w ∈ h → w.Fits site.executor) : s.Watchful := by
  induction hr with
  | refl => exact watchful_start hs
  | step hr hstep _ ih =>
    have hq := (hr.law (Signals.Law.fresh hs)).queue
    have ho := hr.orderly hσ (orderly_start site)
    refine hstep.watchful (ih fun w hw ↦ hf w (List.mem_append_left _ hw)) ho hq fun w hw ↦ ?_
    have hfit := hf w (List.mem_append_right _ hw)
    obtain ⟨hqueue, hparker⟩ := Prod.mk.inj hr.refs
    rw [Waker.Fits, hqueue, hparker]
    exact hfit

/-- **No wake is missed.** If the thread is parking without a token while an id is queued, some wake
of another thread has queued an id of the executor and has yet to notify the thread. -/
theorem Run.in_flight (hs : site.Fresh) (hσ : σ.Quiet) (hr : Run β σ P (.start site) h s)
    (hf : ∀ w, .woke w ∈ h → w.Fits site.executor) {c : Call W B V} {rest : List (Call W B V)}
    (hc : s.machine.calls = c :: rest) (hpark : c.doing = .park)
    (ht : s.machine.site.signals.token s.machine.site.executor.parker = false)
    (hz : s.machine.site.ready ≠ []) : ∃ w ∈ s.flights, w.Rings s.machine.site.executor := by
  have hw := hr.watchful hs hσ hf
  have hmem : c ∈ s.machine.calls.head? := by rw [hc]; rfl
  rcases hw.wake c hmem (hpark ▸ trivial) hz with htoken | ⟨w, hfl | hown, hr⟩
  · rw [ht] at htoken
    cases htoken
  · exact ⟨w, hfl, hr⟩
  · rw [hw.own c hmem hpark] at hown
    cases hown

/-- Bodies that are never done, and leave it to others to wake them. -/
def dormant : Behaviour Unit Unit Unit where
  poll _ _ := .done (.ok .pending, ())
  drop _ w := w

/-- Another thread pushes for a wake just before the thread parks, and has yet to notify it. -/
theorem dormant_in_flight :
    ∃ h s c, Run dormant .still (CallsWithin 1) (.start (.blank ())) h s ∧
      s.machine.calls = [c] ∧ c.doing = .park ∧
      s.machine.site.signals.token s.machine.site.executor.parker = false ∧
      s.machine.site.ready ≠ [] ∧ ∃ w ∈ s.flights, w.Rings s.machine.site.executor := by
  have hblock : Run dormant .still (CallsWithin 1) (.start (.blank ())) _ _ :=
    .single (.blockOn () rfl rfl) (Nat.le_refl _)
  have hloop := hblock.trans (Machine.run_run 7 (by decide))
  have hrun : Run dormant .still (CallsWithin 1) (.start (.blank ()))
      [.issued 1, .began 1 true, .ended 1 true (.ok .pending), .entered 1, .began 1 false,
        .ended 1 false (.ok .pending), .parked, .woke ⟨some ⟨0⟩, 1, some ⟨0⟩⟩] _ :=
    hloop.trans (.single (.otherPush ⟨some ⟨0⟩, 1, some ⟨0⟩⟩) (Nat.le_refl _))
  have hz : ([1] : List TaskId) ≠ [] := List.cons_ne_nil 1 []
  refine ⟨_, _, _, hrun, rfl, rfl, rfl, hz, hrun.in_flight (Site.fresh_blank ())
    Surroundings.quiet_still (fun w hw ↦ ?_) rfl rfl rfl hz⟩
  obtain rfl : w = ⟨some ⟨0⟩, 1, some ⟨0⟩⟩ := by simpa using hw
  exact Executor.fits_waker (Site.blank () : Site Unit Unit).executor 1

end Ensemble

end TaskRuntime
