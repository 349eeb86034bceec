import TaskRuntime.Proofs.Akin

/-!
# Noise is not seen

Threads may be notified for no reason, and wakes may come through wakers that no longer mean
anything: those of tasks that have come to their ends, and those of other executors, among them
earlier ones of the same thread whose ids began with the same first id. None of this is seen by
anybody who does not look at the figures of the executor or at its parkings.

`Ensemble.Observed.noise_unseen` compares two runs with as much noise as one likes in each, in which
others do the same at the same points. The same is seen of both, and each can go on, without further
noise, to whatever the other has come to. If the one run is taken without noise, this says what
noise does to it; if the one run has not begun, that noise can be taken out of the other.

It makes no difference who makes the noise. A task that wakes to no purpose in the middle of its
poll does what a thread does that interrupts it there (`Ensemble.Observed.wake`), and a park that
returns for no reason is one that somebody has notified (`Ensemble.Observed.park_returns`).

What tasks can tell of the world is a parameter. Parkings may be announced in any part of it that
they do not look at; if nothing is announced there, they may look at all of it.

## Going round

Noise makes a scheduling loop go round where it would have parked, or lets it find ids to drop, so
one loop may be parking while the other is about to pop. What matters is that a loop that has
something to do gets to do it by itself (`Ensemble.Observed.gets_to_work`): it drops the ids of
tasks that have come to their ends, and wakes up if it is parking, since there is a token or a wake
that has yet to notify.
-/

namespace TaskRuntime

namespace Ensemble

variable {W B V : Type} {ω : Setoid W} {β : Behaviour W B V} {σ : Surroundings W B V}
  {noisy noisy' : Prop} {site : Site W B} {s₀ s s' r r' : Ensemble W B V}
  {t₀ t t' u : List (Sight W B V)} {a : Sight W B V} {h : List (Note V)}

namespace Observed

/-! ### Observed runs taken apart and put together -/

theorem mono (hr : Observed β σ ω noisy t₀ s₀ t s) (hn : noisy → noisy') :
    Observed β σ ω noisy' t₀ s₀ t s := by
  induction hr with
  | refl => exact .refl
  | seen _ hs ih => exact ih.seen hs
  | unseen _ hs ih => exact ih.unseen hs
  | noise h _ hs ih => exact .noise (hn h) ih hs

theorem trans (h₁ : Observed β σ ω noisy t₀ s₀ t s) (h₂ : Observed β σ ω noisy t s t' s') :
    Observed β σ ω noisy t₀ s₀ t' s' := by
  induction h₂ with
  | refl => exact h₁
  | seen _ hs ih => exact ih.seen hs
  | unseen _ hs ih => exact ih.unseen hs
  | noise hn _ hs ih => exact .noise hn ih hs

/-- Sights are added to those there are. -/
theorem isPrefix (hr : Observed β σ ω noisy t₀ s₀ t s) : t₀ <+: t := by
  induction hr with
  | refl => exact List.prefix_rfl
  | seen _ _ ih => exact ih.trans (List.prefix_append _ _)
  | unseen _ _ ih => exact ih
  | noise _ _ _ ih => exact ih

/-- **A sight belongs to a step**: what has been seen before, and what is seen afterwards. -/
theorem split (hr : Observed β σ ω noisy t₀ s₀ (t ++ a :: u) s) (ht : t₀ <+: t) :
    ∃ r r', Observed β σ ω noisy t₀ s₀ t r ∧ Seen β σ ω (notes t) r a r' ∧
      Observed β σ ω noisy (t ++ [a]) r' (t ++ a :: u) s := by
  generalize hw : t ++ a :: u = w at hr
  induction hr generalizing u with
  | refl =>
    have hlen := ht.length_le
    rw [← hw, List.length_append, List.length_cons] at hlen
    omega
  | @seen w s b s' hr hs ih =>
    -- The sight is the last one, or an earlier one.
    rcases List.eq_nil_or_concat u with rfl | ⟨u, c, rfl⟩
    · obtain ⟨rfl, hb⟩ := List.append_inj' hw rfl
      obtain rfl := List.singleton_inj.1 hb
      exact ⟨s, s', hr, hs, .refl⟩
    · have hw' : (t ++ a :: u) ++ [c] = w ++ [b] := by simpa using hw
      obtain ⟨rfl, hb⟩ := List.append_inj' hw' rfl
      obtain rfl := List.singleton_inj.1 hb
      obtain ⟨r, r', h₁, h₂, h₃⟩ := ih rfl
      exact ⟨r, r', h₁, h₂, h₃.seen hs⟩
  | unseen hr hs ih =>
    obtain ⟨r, r', h₁, h₂, h₃⟩ := ih hw
    subst hw
    exact ⟨r, r', h₁, h₂, h₃.unseen hs⟩
  | noise hn hr hs ih =>
    obtain ⟨r, r', h₁, h₂, h₃⟩ := ih hw
    subst hw
    exact ⟨r, r', h₁, h₂, .noise hn h₃ hs⟩

/-- A run has come to where less has been seen of it. -/
theorem through (hr : Observed β σ ω noisy [] s₀ t' s') (ht : t <+: t') :
    ∃ r, Observed β σ ω noisy [] s₀ t r ∧ Observed β σ ω noisy t r t' s' := by
  obtain ⟨u, rfl⟩ := ht
  cases u with
  | nil =>
    rw [List.append_nil] at hr ⊢
    exact ⟨s', hr, .refl⟩
  | cons a u =>
    obtain ⟨r, r', h₁, hstep, h₂⟩ := hr.split List.nil_prefix
    exact ⟨r, h₁, (Observed.refl.seen hstep).trans h₂⟩

end Observed

/-! ### What noise amounts to -/

/-- **A whole wake that means nothing is noise**, also if a task makes it in the middle of its poll:
the request then does this, and the program goes on. -/
theorem Observed.wake {m : Machine W B V} {fl : List Waker} {own : Option Waker} (w : Waker)
    (hw : w.Fits m.site.executor)
    (hspent : w.queue = some m.site.executor.queue → Spent (notes t) m w.id) :
    Observed β σ ω True t ⟨m, fl, own⟩ t ⟨m.onSignals (·.wake w), fl, own⟩ := by
  have hpush : Noise (notes t) ⟨m, fl, own⟩ ⟨m.onSignals (·.pushFor w), w :: fl, own⟩ :=
    .wake w hw hspent
  have hnotified : Unseen β σ (notes t) ⟨m.onSignals (·.pushFor w), w :: fl, own⟩
      ⟨(m.onSignals (·.pushFor w)).onSignals (·.unparkFor w), (w :: fl).erase w, own⟩ :=
    .notified List.mem_cons_self
  have hrun := (Observed.noise (ω := ω) trivial .refl hpush).unseen hnotified
  rw [List.erase_cons_head] at hrun
  simpa only [Machine.onSignals, Signals.wake_eq] using hrun

/-- The active call is at some place of the loop. -/
abbrev turning (x : Executor B) (v : Signals) (w : W) (c : Call W B V) (d : Doing W B V)
    (rest : List (Call W B V)) (o : Option (Except Failure (Option V))) (fl : List Waker) :
    Ensemble W B V :=
  ⟨⟨⟨x, v, w⟩, { c with doing := d } :: rest, o⟩, fl, none⟩

variable {x : Executor B} {v : Signals} {w : W} {c : Call W B V} {rest : List (Call W B V)}
  {o : Option (Except Failure (Option V))} {fl : List Waker}

/-- **A park that returns for no reason is noise**: the loop goes on, and there is no token. -/
theorem Observed.park_returns (hp : x.parker.index < v.parkers.length)
    (ht : x.tasks.isEmpty = false) :
    Observed β σ ω True t (turning x v w c .park rest o fl) t
      (turning x (v.parkFor x.parker).2 w c .pop rest none fl) := by
  have hround : Unseen β σ (notes t) (turning x (v.unpark x.parker) w c .park rest o fl)
      (turning x (v.parkFor x.parker).2 w c .pop rest none fl) := by
    refine .round (n := []) ⟨rfl, _, _, rfl, .park ht, nofun⟩ ?_
    simp only [next?, Machine.step?, Signals.park?_unpark hp, Option.map_some]
  exact (Observed.noise trivial .refl (.unpark x.parker)).unseen hround

/-! ### The same is seen of runs that are akin -/

theorem length_issuedIds_le_of_isPrefix {k : Nat} (hp : t <+: t')
    (hlen : (issuedIds (notes t')).length ≤ k) : (issuedIds (notes t)).length ≤ k := by
  obtain ⟨u, rfl⟩ := hp
  rw [notes_append] at hlen
  exact length_issuedIds_le hlen

/-- An executor that has just been made is akin to itself. -/
theorem akin_start (hs : site.Fresh) : Akin ω σ h (.start site : Ensemble W B V) (.start site) where
  machine :=
    { site := .mk (x := site.executor) (k := site.executor.parks) (l := site.executor.stale)
        ⟨hs.queue, hs.queue, rfl⟩ (ω.refl _)
      calls := .nil
      outcome := fun _ ↦ rfl }
  own := rfl

section

variable (hσ : σ.Discreet β ω) (hs : site.Fresh)

include hσ hs

/-- As long as nothing is seen of the one of them, ensembles stay akin. -/
theorem Observed.akin_left (hr₀ : Observed β σ ω True [] (.start site) t s)
    (hr : Observed β σ ω True t s t' s') (ht : t' = t)
    (hlen : (issuedIds (notes t)).length ≤ UInt64.size) (ha : s.Akin ω σ (notes t) r) :
    s'.Akin ω σ (notes t) r := by
  induction hr with
  | refl => exact ha
  | seen hr _ _ =>
    have hle := hr.isPrefix.length_le
    rw [← ht, List.length_append, List.length_singleton] at hle
    omega
  | unseen hr hstep ih =>
    subst ht
    have hkept := (hr₀.trans hr).kept hσ hs hlen
    exact (ih rfl).unseen hσ (fun _ ↦ hkept.books.not_tabled_of_ended) hstep
  | noise _ hr hstep ih =>
    subst ht
    exact (ih rfl).noise ((hr₀.trans hr).kept hσ hs hlen).books hstep

/-- **If the same has been seen of two runs, they have come to ensembles that are akin.** -/
theorem Observed.akin (hβ : β.Respects (.plain ω))
    (hr : Observed β σ ω True [] (.start site) t s)
    (hr' : Observed β σ ω True [] (.start site) t r)
    (hlen : (issuedIds (notes t)).length ≤ UInt64.size) : s.Akin ω σ (notes t) r := by
  induction hr generalizing r with
  | refl => exact (Observed.akin_left hσ hs .refl hr' rfl hlen (akin_start hs)).symm
  | @seen t s a s' hr hstep ih =>
    have hlen' := length_issuedIds_le_of_isPrefix (List.prefix_append t [a]) hlen
    obtain ⟨r₁, r₂, hr₁, hstep', hr₂⟩ := hr'.split List.nil_prefix
    obtain ⟨-, hakin⟩ := (ih hr₁ hlen').agree hβ hσ hstep hstep' rfl
    have hbooks := ((hr.seen hstep).kept hσ hs hlen).books
    rw [notes_append, notes_singleton] at hbooks ⊢
    have hakin' := hakin.append (n := a.notes) fun _ ↦ hbooks.ended
    rw [← notes_singleton a, ← notes_append] at hakin' ⊢
    exact ((hr₁.seen hstep').akin_left hσ hs hr₂ rfl hlen hakin'.symm).symm
  | unseen hr hstep ih =>
    have hkept := hr.kept hσ hs hlen
    exact (ih hr' hlen).unseen hσ (fun _ ↦ hkept.books.not_tabled_of_ended) hstep
  | noise _ hr hstep ih => exact (ih hr' hlen).noise (hr.kept hσ hs hlen).books hstep

/-- **The same is seen of two runs as long as others do the same.** -/
theorem Observed.prefix_of_outside (hβ : β.Respects (.plain ω))
    (hr : Observed β σ ω True [] (.start site) t s)
    (hr' : Observed β σ ω True [] (.start site) t' s')
    (hd : t.map Sight.outside <+: t'.map Sight.outside)
    (hlen : (issuedIds (notes t')).length ≤ UInt64.size) : t <+: t' := by
  induction hr with
  | refl => exact List.nil_prefix
  | @seen t s a _ hr hstep ih =>
    rw [List.map_append, List.map_singleton] at hd
    obtain ⟨u, rfl⟩ := ih ((List.prefix_append _ _).trans hd)
    rw [List.map_append, List.prefix_append_right_inj] at hd
    cases u with
    | nil => simp at hd
    | cons b u =>
      have ho : a.outside = b.outside := (List.cons_prefix_cons.1 hd).1
      obtain ⟨r, r', h₁, hstep', h₂⟩ := hr'.split List.nil_prefix
      have hakin := hr.akin hσ hs hβ h₁
        (length_issuedIds_le_of_isPrefix (List.prefix_append _ _) hlen)
      obtain ⟨rfl, -⟩ := hakin.agree hβ hσ hstep hstep' ho
      exact ⟨u, by simp⟩
  | unseen _ _ ih => exact ih hd
  | noise _ _ _ ih => exact ih hd

end

/-! ### Going round until there is something to do -/

/-- A loop has something to do: some queued id is that of a task that has not come to its end, or no
task is left. -/
def Occupied (h : List (Note V)) (s : Ensemble W B V) : Prop :=
  s.machine.site.executor.tasks.isEmpty = true ∨ unspent h s.machine.site.ready ≠ []

/-- The executor gets by itself, with the help of wakes that have yet to notify, to where its loop
does not go round. -/
def GetsToWork (β : Behaviour W B V) (σ : Surroundings W B V) (ω : Setoid W)
    (t : List (Sight W B V)) (s : Ensemble W B V) : Prop :=
  ∃ s', Observed β σ ω False t s t s' ∧ ¬ s'.Rounds σ (notes t)

theorem GetsToWork.unseen (hg : GetsToWork β σ ω t s') (hs : Unseen β σ (notes t) s s') :
    GetsToWork β σ ω t s := by
  obtain ⟨s₁, hr, hs₁⟩ := hg
  exact ⟨s₁, (Observed.refl.unseen hs).trans hr, hs₁⟩

/-- A loop that is about to pop does not go round if the pop is not idle. -/
theorem GetsToWork.of_not_skips (hi : ¬ (turning x v w c .pop rest o fl).Skips (notes t)) :
    GetsToWork β σ ω t (turning x v w c .pop rest o fl) := by
  refine ⟨_, .refl, ?_⟩
  rintro ⟨-, c', rest', hc, -, hskips⟩
  obtain ⟨rfl, -⟩ := List.cons.inj hc
  exact hi (hskips rfl)

section

variable (hσ : σ.Discreet β ω) (hs : site.Fresh)

include hσ hs

/-- A loop that is about to pop drops the ids of tasks that have come to their ends. -/
theorem GetsToWork.of_pop
    (hr : Observed β σ ω True [] (.start site) t (turning x v w c .pop rest o fl))
    (hlen : (issuedIds (notes t)).length ≤ UInt64.size)
    (hw : x.tasks.isEmpty = true ∨ unspent (notes t) (v.queue x.queue).ids ≠ []) :
    GetsToWork β σ ω t (turning x v w c .pop rest o fl) := by
  generalize hk : (v.queue x.queue).ids = ids at hw
  induction ids generalizing x v o with
  | nil =>
    have ht : x.tasks.isEmpty = true := hw.resolve_right fun hne ↦ hne rfl
    refine .of_not_skips fun hskips ↦ ?_
    rw [Skips, Site.ready, hk, ht] at hskips
    cases hskips
  | cons i ids ih =>
    by_cases hi : (phase i (notes t)).ended = true
    · have hkept := hr.kept hσ hs hlen
      obtain ⟨v', hp⟩ := Signals.exists_pop? hk
      have hget := Machine.get?_of_not_tabled (hkept.books.not_tabled_of_ended hi)
      have hids : (v'.queue x.queue).ids = ids :=
        (List.cons.inj ((hkept.queue.ids_of_pop? hp).symm.trans hk)).2
      have hskips : (turning x v w c .pop rest o fl).Skips (notes t) := by
        rw [Skips, Site.ready, hk]
        exact hi
      have hstep : Unseen β σ (notes t) (turning x v w c .pop rest o fl)
          (turning { x with stale := x.stale + 1 } v' w c .pop rest none fl) := by
        refine .round (n := [.stale i]) ⟨rfl, _, _, rfl, .pop, fun _ ↦ hskips⟩ ?_
        simp only [next?, Machine.step?, Machine.stepPop, hp, hget, Option.map_some]
      rw [unspent_cons_of_ended hi] at hw
      exact (ih (hr.unseen hstep) hids hw).unseen hstep
    · refine .of_not_skips fun hskips ↦ ?_
      rw [Skips, Site.ready, hk] at hskips
      exact hi hskips

/-- A loop that is parking wakes up: there is a token, or a wake that has yet to notify. -/
theorem GetsToWork.of_park
    (hr : Observed β σ ω True [] (.start site) t (turning x v w c .park rest o fl))
    (hlen : (issuedIds (notes t)).length ≤ UInt64.size) (ht : x.tasks.isEmpty = false)
    (hw : unspent (notes t) (v.queue x.queue).ids ≠ []) :
    GetsToWork β σ ω t (turning x v w c .park rest o fl) := by
  -- With a token, it wakes up at once.
  have hawake {v : Signals} {fl : List Waker}
      (hr : Observed β σ ω True [] (.start site) t (turning x v w c .park rest o fl))
      (hw : unspent (notes t) (v.queue x.queue).ids ≠ []) (htoken : v.token x.parker = true) :
      GetsToWork β σ ω t (turning x v w c .park rest o fl) := by
    obtain ⟨p, hp⟩ := Option.isSome_iff_exists.1 ((v.parker x.parker).park?_isSome.trans htoken)
    have hstep : Unseen β σ (notes t) (turning x v w c .park rest o fl)
        (turning x (v.setParker x.parker p) w c .pop rest none fl) := by
      refine .round (n := []) ⟨rfl, _, _, rfl, .park ht, nofun⟩ ?_
      simp only [next?, Machine.step?, Signals.park?, hp, Option.map_some]
    exact (of_pop hσ hs (hr.unseen hstep) hlen (.inr hw)).unseen hstep
  have hwatch := (hr.kept hσ hs hlen).watchful
  have hready : (v.queue x.queue).ids ≠ [] := fun hnil ↦ hw (by rw [hnil]; rfl)
  rcases hwatch.wake _ rfl trivial hready with htoken | ⟨a, ha | ha, hrings⟩
  · exact hawake hr hw htoken
  · have hstep : Unseen β σ (notes t) (turning x v w c .park rest o fl)
        (turning x (v.unparkFor a) w c .park rest o (fl.erase a)) := .notified ha
    have htoken : (v.unparkFor a).token x.parker = true :=
      (Signals.token_unparkFor hwatch.parker a).2 (.inl ⟨by simp [hrings.1], hrings.2⟩)
    exact (hawake (hr.unseen hstep) (by rwa [Signals.queue_unparkFor]) htoken).unseen hstep
  · cases ha

/-- A loop on its way to sleep gets to where it parks. -/
theorem GetsToWork.of_asleep
    (hr : Observed β σ ω True [] (.start site) t (turning x v w c (.asleep σ.asleep) rest o fl))
    (hlen : (issuedIds (notes t)).length ≤ UInt64.size) (ht : x.tasks.isEmpty = false)
    (hw : unspent (notes t) (v.queue x.queue).ids ≠ []) :
    GetsToWork β σ ω t (turning x v w c (.asleep σ.asleep) rest o fl) := by
  obtain ⟨w', -, hrun⟩ := hσ.asleep ⟨x, v, w⟩
  have hstep : Unseen β σ (notes t) (turning x v w c (.asleep σ.asleep) rest o fl)
      (turning x v w' c .park rest none fl) := by
    refine .round (n := []) ⟨rfl, _, _, rfl, .asleep ht, nofun⟩ ?_
    simp only [next?, Machine.step?, Machine.stepAct, hrun, Option.map_some, List.append_nil]
  exact (of_park hσ hs (hr.unseen hstep) hlen ht hw).unseen hstep

/-- A loop that announces that it will park gets to where it parks. -/
theorem GetsToWork.of_announce {k : Nat} (hr : Observed β σ ω True [] (.start site) t
      (turning x v w c (.announce (σ.announce k)) rest o fl))
    (hlen : (issuedIds (notes t)).length ≤ UInt64.size) (ht : x.tasks.isEmpty = false)
    (hw : unspent (notes t) (v.queue x.queue).ids ≠ []) :
    GetsToWork β σ ω t (turning x v w c (.announce (σ.announce k)) rest o fl) := by
  obtain ⟨w', -, hrun⟩ := hσ.announce k ⟨x, v, w⟩
  have hstep : Unseen β σ (notes t) (turning x v w c (.announce (σ.announce k)) rest o fl)
      (turning { x with parks := x.parks + 1 } v w' c (.asleep σ.asleep) rest none fl) := by
    refine .round (n := [.parked]) ⟨rfl, _, _, rfl, .announce k ht, nofun⟩ ?_
    simp only [next?, Machine.step?, Machine.stepAct, hrun, Machine.countPark, Option.map_some,
      List.nil_append]
  exact (of_asleep hσ hs (hr.unseen hstep) hlen ht hw).unseen hstep

/-- A loop that has found no id, when there is one by now, goes on to pop it. -/
theorem GetsToWork.of_check
    (hr : Observed β σ ω True [] (.start site) t (turning x v w c .check rest o fl))
    (hlen : (issuedIds (notes t)).length ≤ UInt64.size) (ht : x.tasks.isEmpty = false)
    (hw : unspent (notes t) (v.queue x.queue).ids ≠ []) :
    GetsToWork β σ ω t (turning x v w c .check rest o fl) := by
  have hready : (v.queue x.queue).isEmpty = false := by
    rw [ReadyQueue.isEmpty, List.isEmpty_eq_false_iff]
    exact fun hnil ↦ hw (by rw [hnil]; rfl)
  have hstep : Unseen β σ (notes t) (turning x v w c .check rest o fl)
      (turning x v w c .pop rest none fl) := by
    refine .round (n := []) ⟨rfl, _, _, rfl, .check ht, (by simp)⟩ ?_
    simp only [next?, Machine.step?, Machine.stepCheck, ht, hready, Bool.false_eq_true, if_false,
      Option.map_some]
  exact (of_pop hσ hs (hr.unseen hstep) hlen (.inr hw)).unseen hstep

/-- **A loop that has something to do gets to do it**, unless it does so already. -/
theorem Observed.gets_to_work (hr : Observed β σ ω True [] (.start site) t s)
    (hlen : (issuedIds (notes t)).length ≤ UInt64.size) (hw : s.Occupied (notes t)) :
    GetsToWork β σ ω t s := by
  by_cases hi : s.Rounds σ (notes t)
  · obtain ⟨⟨⟨x, v, w⟩, calls, o⟩, fl, own⟩ := s
    obtain ⟨rfl, c, rest, rfl, hd, -⟩ := hi
    -- Beyond the pop, the table is not empty.
    have hready (ht : x.tasks.isEmpty = false) : unspent (notes t) (v.queue x.queue).ids ≠ [] :=
      hw.resolve_left fun he ↦ Bool.false_ne_true (ht.symm.trans he)
    have hr : Observed β σ ω True [] (.start site) t (turning x v w c c.doing rest o fl) := hr
    have hd : c.doing.Looping σ x.tasks := hd
    show GetsToWork β σ ω t (turning x v w c c.doing rest o fl)
    generalize c.doing = d at hr hd ⊢
    cases hd with
    | pop => exact .of_pop hσ hs hr hlen hw
    | check ht => exact .of_check hσ hs hr hlen ht (hready ht)
    | announce k ht => exact .of_announce hσ hs hr hlen ht (hready ht)
    | asleep ht => exact .of_asleep hσ hs hr hlen ht (hready ht)
    | park ht => exact .of_park hσ hs hr hlen ht (hready ht)
  · exact ⟨s, .refl, hi⟩

end

/-- A loop that goes round has something to do if one that is akin does not go round. -/
theorem Akin.occupied (ha : s.Akin ω σ h r) (hi : s.Rounds σ h) (hi' : ¬ r.Rounds σ h) :
    s.Occupied h := by
  obtain ⟨⟨site, calls, o⟩, fl, own⟩ := s
  obtain ⟨⟨site', calls', o'⟩, fl', own'⟩ := r
  obtain ⟨⟨hsite, hcalls, -⟩, hown⟩ := ha
  obtain ⟨rfl, c, rest, rfl, hd, -⟩ := hi
  obtain rfl : own' = none := hown
  cases hcalls with
  | @cons _ c' _ rest' hc hr =>
    have hd' := hc.doing.looping_right hd
    rw [← hsite.tasks] at hd'
    obtain ⟨-, hskips⟩ := skips_of_not_rounds hd' hi'
    rcases cases_of_not_skips hskips with ⟨-, ht⟩ | ⟨i, ids, hids, hi⟩
    · exact .inl (hsite.tasks ▸ ht)
    · have hqueue : site'.executor.queue = site.executor.queue := congrArg Prod.fst hsite.refs
      have hids' : (site'.signals.queue site.executor.queue).ids = i :: ids := hqueue ▸ hids
      have hunspent : unspent h (site'.signals.queue site.executor.queue).ids =
          unspent h site.ready := hsite.signals.ids
      refine .inr fun hnil ↦ ?_
      rw [hids', unspent, List.filter_cons_of_pos (by simp [hi])] at hunspent
      exact List.cons_ne_nil _ _ (hunspent.trans hnil)

/-! ### Noise is not seen -/

/-- **What one run comes to, another one comes to without noise**, if the same has been seen of both
so far. -/
theorem Observed.follow (hβ : β.Respects (.plain ω)) (hσ : σ.Discreet β ω) (hs : site.Fresh)
    (hr : Observed β σ ω True [] (.start site) t s)
    (hr' : Observed β σ ω True [] (.start site) t r) (hrun : Observed β σ ω True t r t' r')
    (hlen : (issuedIds (notes t')).length ≤ UInt64.size) :
    ∃ s', Observed β σ ω False t s t' s' ∧ s'.Akin ω σ (notes t') r' := by
  induction hrun with
  | refl => exact ⟨s, .refl, hr.akin hσ hs hβ hr' hlen⟩
  | @seen t₁ r₁ a r₂ hrun hstep ih =>
    have hlen' := length_issuedIds_le_of_isPrefix (List.prefix_append t₁ [a]) hlen
    obtain ⟨s₁, hrun₁, hakin⟩ := ih hlen'
    have hr₁ := hr.trans (hrun₁.mono False.elim)
    -- The loop first gets to where it does not go round, if the other one does not.
    obtain ⟨s₂, hrun₂, hi⟩ : ∃ s₂, Observed β σ ω False t₁ s₁ t₁ s₂ ∧
        (a.outside = none → ¬ s₂.Rounds σ (notes t₁)) := by
      by_cases hn : a.outside = none ∧ s₁.Rounds σ (notes t₁)
      · have hi : ¬ r₁.Rounds σ (notes t₁) := by
          cases hstep with
          | own _ hi _ _ => exact hi
          | _ => cases hn.1
        obtain ⟨s₂, hrun₂, hs₂⟩ := hr₁.gets_to_work hσ hs hlen' (hakin.occupied hn.2 hi)
        exact ⟨s₂, hrun₂, fun _ ↦ hs₂⟩
      · exact ⟨s₁, .refl, fun ho hi ↦ hn ⟨ho, hi⟩⟩
    have hakin₂ := hr₁.akin_left hσ hs (hrun₂.mono False.elim) rfl hlen' hakin
    obtain ⟨s₃, hseen, hakin₃⟩ := hakin₂.symm.seen hβ hσ hstep hi
    have hrun₃ := (hrun₁.trans hrun₂).seen hseen
    have hbooks := ((hr.trans (hrun₃.mono False.elim)).kept hσ hs hlen).books
    rw [notes_append, notes_singleton] at hbooks ⊢
    exact ⟨s₃, hrun₃, (hakin₃.append fun _ ↦ hbooks.ended).symm⟩
  | unseen hrun hstep ih =>
    obtain ⟨s₁, hrun₁, hakin⟩ := ih hlen
    have hkept := (hr'.trans hrun).kept hσ hs hlen
    exact ⟨s₁, hrun₁, (hakin.symm.unseen hσ (fun _ ↦ hkept.books.not_tabled_of_ended) hstep).symm⟩
  | noise _ hrun hstep ih =>
    obtain ⟨s₁, hrun₁, hakin⟩ := ih hlen
    have hkept := (hr'.trans hrun).kept hσ hs hlen
    exact ⟨s₁, hrun₁, (hakin.symm.noise hkept.books hstep).symm⟩

/-- **Noise is not seen.** Notifications for no reason, wakes of tasks that have come to their ends
and wakes through wakers of other executors may come at any time in any two runs, with as many of
them in the one as in the other or not. As long as others do the same at the same points, and no
program of a task asks about figures or parks, the same is seen of both runs: which tasks are polled
with which results, which ids are given out, what is returned, and the table at every step. When the
same has been seen, executors, calls and worlds differ in nothing but the counts of parkings and
stale ids, ids of ended tasks on the queue, how far a loop with nothing to do has got, and in what
tasks cannot tell of the world. And the run of which less has been seen goes on, without any noise,
to what the other one has come to. -/
theorem Observed.noise_unseen (hβ : β.Respects (.plain ω)) (hσ : σ.Discreet β ω) (hs : site.Fresh)
    (hr : Observed β σ ω True [] (.start site) t s)
    (hr' : Observed β σ ω True [] (.start site) t' s')
    (hd : t.map Sight.outside <+: t'.map Sight.outside)
    (hlen : (issuedIds (notes t')).length ≤ UInt64.size) :
    t <+: t' ∧ (t = t' → s.Akin ω σ (notes t) s') ∧
      ∃ s₁, Observed β σ ω False t s t' s₁ ∧ s₁.Akin ω σ (notes t') s' := by
  have hp := hr.prefix_of_outside hσ hs hβ hr' hd hlen
  refine ⟨hp, ?_, ?_⟩
  · rintro rfl
    exact hr.akin hσ hs hβ hr' hlen
  · obtain ⟨r, hr₁, hrun⟩ := hr'.through hp
    exact hr.follow hβ hσ hs hr₁ hrun hlen

/-- Bodies that are pending so many times. -/
def lingering : Behaviour Nat Nat Unit where
  poll
    | 0, _ => .done (.ok (.ready ()), 0)
    | b + 1, _ => .done (.ok .pending, b)
  drop _ w := w

/-- Announcements are counted in the world, and nothing else happens around the loop. -/
def counting : Surroundings Nat Nat Unit where
  finished w := w
  announce _ := (Act.change (· + 1)).bind fun _ ↦ .done (.ok ())
  asleep := .done ()

/-- Tasks do not heed how many parkings have been announced. -/
def unheeded : Setoid Nat := ⟨fun _ _ ↦ True, fun _ ↦ trivial, fun _ ↦ trivial, fun _ _ ↦ trivial⟩

/-- Body `2` is run to completion: the ensemble after so many steps of the machine. -/
def lingered (steps : Nat) : Ensemble Nat Nat Unit :=
  ⟨(Machine.enter lingering (.blank 0) [] 2).2.run lingering counting steps, [], none⟩

/-- The table with the task in it. -/
def lingeringTable : Table TaskId Nat := Table.empty.insert 1 1

/-- What is seen until the loop goes round. -/
def lingeringSights : List (Sight Nat Nat Unit) :=
  [⟨some (.blockOn 2), [.issued 1, .began 1 true], .empty⟩,
    ⟨none, [.ended 1 true (.ok .pending), .entered 1], .empty⟩,
    ⟨none, [.began 1 false], lingeringTable⟩,
    ⟨none, [.ended 1 false (.ok .pending)], .empty⟩]

theorem observed_lingering : Observed lingering counting unheeded False [] (.start (.blank 0))
    lingeringSights (lingered 3) := by
  have hfirst (h : List (Note Unit)) : Seen lingering counting unheeded h (lingered 0)
      ⟨none, [.ended 1 true (.ok .pending), .entered 1], .empty⟩ (lingered 1) := by
    refine .own (fun _ c hc ↦ Option.mem_some.1 hc ▸ trivial) ?_ rfl (by simp)
    rintro ⟨-, c, rest, ⟨⟩, hd, -⟩
    cases hd
  have hpop : Seen lingering counting unheeded
      [.issued 1, .began 1 true, .ended 1 true (.ok .pending), .entered 1] (lingered 1)
      ⟨none, [.began 1 false], lingeringTable⟩ (lingered 2) := by
    refine .own (fun _ c hc ↦ Option.mem_some.1 hc ▸ trivial) ?_ rfl (by simp)
    rintro ⟨-, c, rest, ⟨⟩, -, hskips⟩
    exact Bool.false_ne_true (hskips rfl)
  have hpoll (h : List (Note Unit)) : Seen lingering counting unheeded h (lingered 2)
      ⟨none, [.ended 1 false (.ok .pending)], .empty⟩ (lingered 3) := by
    refine .own (fun _ c hc ↦ Option.mem_some.1 hc ▸ trivial) ?_ rfl (by simp)
    rintro ⟨-, c, rest, ⟨⟩, hd, -⟩
    cases hd
  exact (((Observed.refl.seen (.blockOn 2 rfl rfl)).seen (hfirst _)).seen hpop).seen (hpoll _)

/-- The ensemble after so many steps more, from where the thread is notified for no reason. -/
def awoken (steps : Nat) (fl : List Waker) : Ensemble Nat Nat Unit :=
  ⟨((lingered 7).machine.onSignals (·.unpark ⟨0⟩)).run lingering counting steps, fl, none⟩

/-- A thread that has been notified for no reason and has gone round announces another parking, and
a waker of another executor of the thread has been used, before a task is woken and polled. Without
all that, the task would have been polled in the same way. -/
theorem noise_unseen_lingering :
    ∃ t s t' s', Observed lingering counting unheeded False [] (.start (.blank 0)) t s ∧
      Observed lingering counting unheeded True [] (.start (.blank 0)) t' s' ∧
      s.machine.site.world = 0 ∧ s'.machine.site.world = 1 ∧ notes t' = notes t ++
        [.woke ⟨some ⟨0⟩, 1, some ⟨0⟩⟩, .began 1 false] ∧
      (t <+: t' ∧ (t = t' → s.Akin unheeded counting (notes t) s') ∧
        ∃ s₁, Observed lingering counting unheeded False t s t' s₁ ∧
          s₁.Akin unheeded counting (notes t') s') := by
  have hβ : lingering.Respects (.plain unheeded) :=
    { poll := fun b b' _ hb ↦ by
        obtain rfl : b = b' := hb
        cases b <;> exact .done ⟨rfl, rfl⟩
      drop := fun _ _ _ _ _ _ ↦ trivial }
  have hσ : counting.Discreet lingering unheeded :=
    { quiet := ⟨fun _ ↦ fun _ ↦ trivial, trivial⟩
      announce := fun _ s ↦ ⟨s.world + 1, trivial, rfl⟩
      asleep := fun s ↦ ⟨s.world, trivial, rfl⟩
      finished := fun _ _ _ ↦ trivial }
  have hround : Observed lingering counting unheeded True lingeringSights (lingered 3)
      lingeringSights (lingered 7) := by
    have hpop : Unseen lingering counting (notes lingeringSights) (lingered 3) (lingered 4) :=
      .round ⟨rfl, _, _, rfl, .pop, fun _ ↦ rfl⟩ rfl
    have hcheck : Unseen lingering counting (notes lingeringSights) (lingered 4) (lingered 5) :=
      .round ⟨rfl, _, _, rfl, .check rfl, nofun⟩ rfl
    have hannounce : Unseen lingering counting (notes lingeringSights) (lingered 5) (lingered 6) :=
      .round ⟨rfl, _, _, rfl, .announce 1 rfl, nofun⟩ rfl
    have hasleep : Unseen lingering counting (notes lingeringSights) (lingered 6) (lingered 7) :=
      .round ⟨rfl, _, _, rfl, .asleep rfl, nofun⟩ rfl
    exact (((Observed.refl.unseen hpop).unseen hcheck).unseen hannounce).unseen hasleep
  have hnoise : Observed lingering counting unheeded True lingeringSights (lingered 3)
      lingeringSights (awoken 1 [⟨some ⟨0⟩, 1, some ⟨1⟩⟩]) := by
    have hunpark : Noise (notes lingeringSights) (lingered 7) (awoken 0 []) := .unpark ⟨0⟩
    have hpark : Unseen lingering counting (notes lingeringSights) (awoken 0 []) (awoken 1 []) :=
      .round ⟨rfl, _, _, rfl, .park rfl, nofun⟩ rfl
    have hwake : Noise (notes lingeringSights) (awoken 1 [])
        (awoken 1 [⟨some ⟨0⟩, 1, some ⟨1⟩⟩]) := .wake ⟨some ⟨0⟩, 1, some ⟨1⟩⟩ nofun nofun
    exact .noise trivial ((Observed.noise trivial hround hunpark).unseen hpark) hwake
  have hwake := ((observed_lingering.mono False.elim).trans hnoise).seen
    (.wake ⟨some ⟨0⟩, 1, some ⟨0⟩⟩ (Executor.fits_waker (Site.blank 0 : Site Nat Nat).executor 1))
  have hr' := hwake.seen (.own (n := [.began 1 false])
    (fun _ c hc ↦ Option.mem_some.1 hc ▸ trivial)
    (fun ⟨_, c, rest, hc, _, hskips⟩ ↦ by
      obtain ⟨rfl, -⟩ := List.cons.inj hc
      exact Bool.false_ne_true (hskips rfl)) rfl (by simp))
  exact ⟨_, _, _, _, observed_lingering, hr', rfl, rfl, rfl,
    (observed_lingering.mono False.elim).noise_unseen hβ hσ (Site.fresh_blank 0) hr' ⟨_, rfl⟩
      (by decide)⟩

end Ensemble

end TaskRuntime
