import TaskRuntime.Proofs.LikeCalls

/-!
# Runs that are alike

From ensembles that are alike, what can be done on the one side can be done on the other, and leads
to ensembles that are alike again (`Ensemble.Step.like`, `Ensemble.Going.like`). What other threads
do is matched by what they do on the other side, wake by wake (`Ensemble.Aside.near`).
-/

namespace TaskRuntime

variable {W B V R : Type} {κ : Likeness W B} {β : Behaviour W B V} {σ : Surroundings W B V}

/-! ### Ensembles -/

namespace Ensemble

/-- **What others do**: an atomic step that the thread of the machine has no part in. -/
inductive Aside : Ensemble W B V → List (Note V) → Ensemble W B V → Prop
  /-- Another thread pushes for a wake. -/
  | push {m own flights} (w : Waker) :
      Aside ⟨m, flights, own⟩ [.woke w] ⟨m.onSignals (·.pushFor w), w :: flights, own⟩
  /-- Another thread notifies for its wake. -/
  | notify {m own flights w} (h : w ∈ flights) :
      Aside ⟨m, flights, own⟩ [] ⟨m.onSignals (·.unparkFor w), flights.erase w, own⟩
  /-- Somebody notifies a thread for no reason. -/
  | stray {m own flights} (r : ParkerRef) :
      Aside ⟨m, flights, own⟩ [] ⟨m.onSignals (·.unpark r), flights, own⟩
  /-- Others change the world. -/
  | world {m own flights} (w : W) :
      Aside ⟨m, flights, own⟩ [] ⟨{ m with site := { m.site with world := w } }, flights, own⟩
  /-- Others make queues and parkers, and use those that are not the executor's. -/
  | elsewhere {m own flights signals}
      (h : m.site.signals.Spares signals m.site.executor.queue m.site.executor.parker) :
      Aside ⟨m, flights, own⟩ [] ⟨m.onSignals fun _ ↦ signals, flights, own⟩

variable {s s' t : Ensemble W B V} {n : List (Note V)}

/-- What others do is a step. -/
theorem Aside.step (h : s.Aside n s') : Step β σ s n s' := by
  cases h with
  | push w => exact .otherPush w
  | notify h => exact .otherNotify h
  | stray r => exact .stray r
  | world w => exact .world w
  | elsewhere h => exact .elsewhere h

/-- What others do leaves the calls alone. -/
theorem Aside.calls (h : s.Aside n s') : s'.machine.calls = s.machine.calls := by
  cases h <;> rfl

theorem Aside.own (h : s.Aside n s') : s'.own = s.own := by
  cases h <;> rfl

/-- **Two ensembles are alike but for their calls**: the sites and the wakes on their way are. -/
structure Near (κ : Likeness W B) (s t : Ensemble W B V) : Prop where
  /-- The sites are alike. -/
  site : s.machine.site.Like κ t.machine.site
  /-- The wakes of other threads stand for each other. -/
  flights : t.flights = s.flights.map κ.waker
  /-- The wakes of the machines' own threads stand for each other. -/
  own : t.own = s.own.map κ.waker

/-- **Two ensembles are alike.** -/
structure Like (κ : Likeness W B) (s t : Ensemble W B V) : Prop where
  /-- The machines are alike. -/
  machine : s.machine.Like κ t.machine
  /-- The wakes of other threads stand for each other. -/
  flights : t.flights = s.flights.map κ.waker
  /-- The wakes of the machines' own threads stand for each other. -/
  own : t.own = s.own.map κ.waker

theorem symm_wakers {l l' : List Waker} (h : l' = l.map κ.waker) : l = l'.map κ.symm.waker := by
  have hid : κ.symm.waker ∘ κ.waker = id := funext κ.symm_waker
  rw [h, List.map_map, hid, List.map_id]

theorem symm_own {o o' : Option Waker} (h : o' = o.map κ.waker) : o = o'.map κ.symm.waker := by
  cases o with
  | none => rw [h]; rfl
  | some w => rw [h]; exact congrArg some (κ.symm_waker w).symm

theorem Near.symm (h : Near κ s t) : Near κ.symm t s :=
  ⟨h.site.symm, symm_wakers h.flights, symm_own h.own⟩

theorem Like.symm (h : Like κ s t) : Like κ.symm t s :=
  ⟨h.machine.symm, symm_wakers h.flights, symm_own h.own⟩

/-- Ensembles that are near and whose calls are alike are alike. -/
theorem Near.like (h : Near κ s t) (hc : κ.Calls s.machine.calls t.machine.calls) : Like κ s t :=
  ⟨.running h.site hc, h.flights, h.own⟩

/-- **What others do on the one side can be done on the other.** -/
theorem Aside.near (ha : s.Aside n s') (h : Near κ s t) :
    ∃ n' t', t.Aside n' t' ∧ κ.Tells n n' ∧ Near κ s' t' := by
  obtain ⟨m', flights', own'⟩ := t
  obtain ⟨hsite, hflights, hown⟩ := h
  obtain rfl : flights' = s.flights.map κ.waker := hflights
  cases ha with
  | push w =>
    refine ⟨_, _, .push (κ.waker w), .cons .nil, ?_, rfl, hown⟩
    exact hsite.onSignals fun hs ↦ hs.pushFor w
  | @notify _ _ flights w h =>
    refine ⟨_, _, .notify (List.mem_map_of_mem h), .nil, ?_, ?_, hown⟩
    · exact hsite.onSignals fun hs ↦ hs.unparkFor w
    · exact (List.map_erase κ.waker_injective flights).symm
  | stray r =>
    exact ⟨_, _, .stray r, .nil, hsite.onSignals fun hs ↦ hs.unpark r, rfl, hown⟩
  | world w =>
    obtain ⟨w', hw⟩ := κ.exists_right w
    exact ⟨_, _, .world w', .nil, hsite.onWorld hw, rfl, hown⟩
  | elsewhere h =>
    -- Nothing need be done on the other side.
    rw [hsite.queue.1, hsite.parker.1] at h
    have hstay : m'.site.signals.Spares m'.site.signals m'.site.executor.queue
        m'.site.executor.parker := ⟨rfl, rfl, Nat.le_refl _, Nat.le_refl _⟩
    refine ⟨_, _, .elsewhere hstay, .nil, ?_, rfl, hown⟩
    exact hsite.onSignals fun hs ↦ hs.spares h

/-- **A step on the one side can be made on the other**, and leads to ensembles that are alike
again. -/
theorem Step.like (hs : Step β σ s n s') (h : Near κ s t)
    (hc : κ.Calls s.machine.calls t.machine.calls) (hf : κ.Follows s.machine.site)
    (hβ : β.Respects κ) (hσ : σ.Respects κ) :
    ∃ n' t', Step β σ t n' t' ∧ κ.Tells n n' ∧ Like κ s' t' := by
  have hne := hc.ne_nil.1
  -- What others do leaves the calls as they are.
  have haside (ha : s.Aside n s') : ∃ n' t', Step β σ t n' t' ∧ κ.Tells n n' ∧ Like κ s' t' := by
    obtain ⟨n', t', hstep, hn, hnear⟩ := ha.near h
    exact ⟨n', t', hstep.step, hn, hnear.like (by rw [ha.calls, hstep.calls]; exact hc)⟩
  obtain ⟨m', flights', own'⟩ := t
  obtain ⟨hsite, hflights, hown⟩ := h
  cases hs with
  | otherPush w => exact haside (.push w)
  | otherNotify h => exact haside (.notify h)
  | stray r => exact haside (.stray r)
  | world w => exact haside (.world w)
  | elsewhere h => exact haside (.elsewhere h)
  | spawn b hcalls h => exact absurd hcalls hne
  | blockOn b hcalls h => exact absurd hcalls hne
  | sleep hcalls => exact absurd hcalls hne
  | turn hset h =>
    obtain rfl : own' = none := hown
    obtain ⟨⟨n', m₁⟩, hstep, hn, hm⟩ := Machine.step?_like hsite hc hf hβ hσ hset h
    refine ⟨n', _, .turn (fun c' hc' ↦ ?_) hstep, hn, hm, hflights, rfl⟩
    -- The active call on the other side is at a settled position as well.
    obtain ⟨c, rest, hcalls⟩ := List.exists_cons_of_ne_nil hne
    dsimp only at hcalls hc hset
    rw [hcalls] at hc hset
    obtain ⟨d, rest', hcalls', hd⟩ := hc.doing
    rw [hcalls'] at hc'
    obtain rfl := Option.mem_some.1 hc'
    exact hd.settled (hset c rfl)
  | @request m c rest _ _ flights _ wrap p p' hcalls hw hd h =>
    obtain rfl : own' = none := hown
    dsimp only at hc
    rw [hcalls] at hc
    obtain ⟨c', rest', hcalls', hlike⟩ := hc.doing
    rw [hd] at hlike
    obtain ⟨wrap', Q, q, hw', hd', hp, hwrap⟩ := hlike.of_runs hw
    obtain ⟨n', q', site', hr, hn, hp', hs'⟩ := hsite.request? hβ hf hp h
    refine ⟨n', _, .request hcalls' hw' hd' hr, hn, .running hs' ?_, hflights, rfl⟩
    rw [hcalls'] at hc
    exact hc.head (hwrap _ _ hp') fun hl ↦ hw.inLoop p p' (hd ▸ hl)
  | @push m c rest w flights _ wrap k hcalls hw hd =>
    obtain rfl : own' = none := hown
    dsimp only at hc
    rw [hcalls] at hc
    obtain ⟨c', rest', hcalls', hlike⟩ := hc.doing
    rw [hd] at hlike
    obtain ⟨wrap', Q, q, hw', hd', hp, hwrap⟩ := hlike.of_runs hw
    cases hp with
    | wake hk =>
      refine ⟨_, _, .push hcalls' hw' hd', .cons .nil, .running ?_ ?_, hflights, rfl⟩
      · exact hsite.onSignals fun hs ↦ hs.pushFor w
      · rw [hcalls'] at hc
        exact hc.head (hwrap _ _ hk) fun hl ↦ hw.inLoop _ k (hd ▸ hl)
  | @notify m w flights =>
    obtain rfl : own' = some (κ.waker w) := hown
    refine ⟨_, _, .notify, .nil, .running ?_ hc, hflights, rfl⟩
    exact hsite.onSignals fun hs ↦ hs.unparkFor w

/-! ### Runs -/

/-- **Any number of steps, as long as a run to completion is going on**, and their history. The last
step may end the outermost run. -/
inductive Going (β : Behaviour W B V) (σ : Surroundings W B V) (s₀ : Ensemble W B V) :
    List (Note V) → Ensemble W B V → Prop
  /-- No step. -/
  | refl : Going β σ s₀ [] s₀
  /-- One more step. -/
  | step {h s n s'} (hr : Going β σ s₀ h s) (hc : s.machine.calls ≠ []) (hs : Step β σ s n s') :
      Going β σ s₀ (h ++ n) s'

/-- While the run to completion is going on, this is a run. -/
theorem Going.run {s₀ : Ensemble W B V} {h : List (Note V)} (hr : Going β σ s₀ h s) :
    Run β σ (fun _ ↦ True) s₀ h s := by
  induction hr with
  | refl => exact .refl
  | step _ _ hs ih => exact .step ih hs trivial

theorem Going.trans {s₀ : Ensemble W B V} {h h' : List (Note V)} (h₁ : Going β σ s₀ h s)
    (h₂ : Going β σ s h' s') : Going β σ s₀ (h ++ h') s' := by
  induction h₂ with
  | refl => simpa using h₁
  | step _ hc hs ih => simpa [List.append_assoc] using ih.step hc hs

/-- **Whatever goes on on the one side can go on on the other**: the same is told, and the ensembles
stay alike, as long as the next ids stand for each other. -/
theorem Going.like {s₀ t₀ : Ensemble W B V} {h : List (Note V)} (hr : Going β σ s₀ h s)
    (hl : Like κ s₀ t₀) (hβ : β.Respects κ) (hσ : σ.Respects κ)
    (hf : ∀ h₁ s₁ h₂, Going β σ s₀ h₁ s₁ → h = h₁ ++ h₂ → κ.Follows s₁.machine.site) :
    ∃ h' t, Going β σ t₀ h' t ∧ κ.Tells h h' ∧ Like κ s t := by
  induction hr with
  | refl => exact ⟨[], t₀, .refl, .nil, hl⟩
  | @step h s n s' hr hc hs ih =>
    obtain ⟨h', t, hr', hh, hst⟩ := ih fun h₁ s₁ h₂ hr₁ he ↦
      hf h₁ s₁ (h₂ ++ n) hr₁ (by rw [he, List.append_assoc])
    cases hst.machine with
    | ended _ hcalls => exact absurd hcalls hc
    | running hsite hcalls =>
      obtain ⟨n', t', hs', hn, hst'⟩ :=
        hs.like ⟨hsite, hst.flights, hst.own⟩ hcalls (hf h s n hr rfl) hβ hσ
      exact ⟨h' ++ n', t', hr'.step hcalls.ne_nil.2 hs', hh.append hn, hst'⟩

end Ensemble

end TaskRuntime
