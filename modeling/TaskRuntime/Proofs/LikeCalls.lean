import TaskRuntime.Proofs.Lives
import TaskRuntime.Proofs.LikeSites

/-!
# Machines that are alike

Machines are alike if their sites and their stacks of calls are. A step of the one is then a step of
the other, which tells the same, up to the ids, and leads to machines that are alike again
(`Machine.step?_like`). There is one lemma for each function of the loop.

## The bottom of the stack

Which task a scheduling loop runs to completion matters to nobody but the caller. So the outermost
calls need not agree in anything but their position in the loop (`Likeness.Calls.bottom`), and two
runs to completion of different tasks can be alike. What they return may differ then: all that is
said of their ends is that both return, or fail with the same failure.
-/

namespace TaskRuntime

variable {W B V R : Type} {κ : Likeness W B} {β : Behaviour W B V} {σ : Surroundings W B V}

/-! ### Calls -/

/-- **Two calls are at the same place**, with programs that are alike. -/
inductive Doing.Like (κ : Likeness W B) : Doing W B V → Doing W B V → Prop
  /-- Both poll their own tasks in place. -/
  | first {p p'} (hp : p.Like κ κ.Ends p') : Like κ (.first p) (.first p')
  /-- Both are about to pop. -/
  | pop : Like κ .pop .pop
  /-- Both poll tasks that were popped. -/
  | poll {id p p'} (hp : p.Like κ κ.Ends p') : Like κ (.poll id p) (.poll (κ.ids id) p')
  /-- Both have found no id. -/
  | check : Like κ .check .check
  /-- Both announce that they will park. -/
  | announce {p p'} (hp : p.Like κ Eq p') : Like κ (.announce p) (.announce p')
  /-- Both let others act. -/
  | asleep {p p'} (hp : p.Like κ Eq p') : Like κ (.asleep p) (.asleep p')
  /-- Both park. -/
  | park : Like κ .park .park

namespace Doing

/-- A call has got to the scheduling loop. -/
def InLoop : Doing W B V → Prop
  | first _ => False
  | _ => True

theorem Runs.inLoop {wrap : Act W B V R → Doing W B V} (hw : Runs wrap) (p q : Act W B V R)
    (h : (wrap p).InLoop) : (wrap q).InLoop := by
  cases hw <;> first | exact h.elim | trivial

theorem InLoop.resume {d : Doing W B V} (h : d.InLoop) (result : Except Failure (Option V)) :
    (d.resume result).InLoop := by
  cases d <;> first | exact h.elim | trivial

namespace Like

variable {d d' : Doing W B V}

theorem symm (h : d.Like κ d') : d'.Like κ.symm d := by
  cases h with
  | first hp => exact .first (κ.ends_symm ▸ hp.symm)
  | @poll id p p' hp =>
    have hends : p'.Like κ.symm κ.symm.Ends p := κ.ends_symm ▸ hp.symm
    have hid : κ.symm.ids (κ.ids id) = id := κ.ids.symm_apply_apply id
    have hpoll : (Doing.poll (κ.ids id) p').Like κ.symm (.poll (κ.symm.ids (κ.ids id)) p) :=
      .poll hends
    rwa [hid] at hpoll
  | announce hp => exact .announce (eq_flip ▸ hp.symm)
  | asleep hp => exact .asleep (eq_flip ▸ hp.symm)
  | pop => exact .pop
  | check => exact .check
  | park => exact .park

theorem inLoop (h : d.Like κ d') (hl : d.InLoop) : d'.InLoop := by
  cases h <;> first | exact hl.elim | trivial

/-- The programs that two calls run are alike, and calls that go on alike stay alike. -/
theorem of_runs {wrap : Act W B V R → Doing W B V} (hw : Runs wrap) {p : Act W B V R}
    (h : (wrap p).Like κ d') :
    ∃ (wrap' : Act W B V R → Doing W B V) (Q : R → R → Prop) (p' : Act W B V R), Runs wrap' ∧
      d' = wrap' p' ∧ p.Like κ Q p' ∧ ∀ r r', r.Like κ Q r' → (wrap r).Like κ (wrap' r') := by
  cases hw with
  | first =>
    cases h with
    | first hp => exact ⟨_, _, _, .first, rfl, hp, fun _ _ ↦ .first⟩
  | poll id =>
    cases h with
    | poll hp => exact ⟨_, _, _, .poll _, rfl, hp, fun _ _ ↦ .poll⟩
  | announce =>
    cases h with
    | announce hp => exact ⟨_, _, _, .announce, rfl, hp, fun _ _ ↦ .announce⟩
  | asleep =>
    cases h with
    | asleep hp => exact ⟨_, _, _, .asleep, rfl, hp, fun _ _ ↦ .asleep⟩

/-- Both calls get the same result. -/
theorem resume (h : d.Like κ d') (result : Except Failure (Option V)) :
    (d.resume result).Like κ (d'.resume result) := by
  cases h with
  | first hp => exact .first (hp.answered result)
  | poll hp => exact .poll (hp.answered result)
  | announce hp => exact .announce (hp.answered result)
  | asleep hp => exact .asleep (hp.answered result)
  | pop => exact .pop
  | check => exact .check
  | park => exact .park

theorem settled (h : d.Like κ d') (hs : d.Settled) : d'.Settled := by
  have hact {R : Type} {Q : R → R → Prop} {p p' : Act W B V R} (hp : p.Like κ Q p')
      (hs : p.Settled) : p'.Settled := by
    cases hp <;> first | exact hs.elim | trivial
  cases h with
  | first hp => exact hact hp hs
  | poll hp => exact hact hp hs
  | announce hp => exact hact hp hs
  | asleep hp => exact hact hp hs
  | _ => trivial

end Like

end Doing

/-- **Two calls are alike.** -/
structure Call.Like (κ : Likeness W B) (c c' : Call W B V) : Prop where
  /-- Their tasks stand for each other. -/
  id : c'.id = κ.ids c.id
  /-- They hold bodies that are alike, or nothing. -/
  held : Option.Rel κ.body c.held c'.held
  /-- They have the same value. -/
  slot : c'.slot = c.slot
  /-- They are at the same place. -/
  doing : c.doing.Like κ c'.doing

/-- **Two stacks of calls are alike**, where the outermost calls may run different tasks. -/
inductive Likeness.Calls (κ : Likeness W B) : List (Call W B V) → List (Call W B V) → Prop
  /-- Two outermost calls, at the same place in the loop. -/
  | bottom {c c'} (hd : c.doing.Like κ c'.doing) (hl : c.doing.InLoop) : Calls κ [c] [c']
  /-- Two calls that are alike, above others. -/
  | cons {c c' rest rest'} (hc : c.Like κ c') (hr : Calls κ rest rest') :
      Calls κ (c :: rest) (c' :: rest')

namespace Likeness.Calls

variable {c c' : Call W B V} {calls calls' rest rest' : List (Call W B V)} {d d' : Doing W B V}

theorem symm (h : κ.Calls calls calls') : κ.symm.Calls calls' calls := by
  induction h with
  | bottom hd hl => exact .bottom hd.symm (hd.inLoop hl)
  | @cons c c' _ _ hc _ ih =>
    refine .cons ⟨?_, ?_, hc.slot.symm, hc.doing.symm⟩ ih
    · rw [hc.id]
      exact (κ.ids.symm_apply_apply _).symm
    · have hheld := hc.held
      generalize c.held = o, c'.held = o' at hheld
      cases hheld with
      | some hb => exact .some hb
      | none => exact .none

theorem ne_nil (h : κ.Calls calls calls') : calls ≠ [] ∧ calls' ≠ [] := by
  cases h <;> exact ⟨List.cons_ne_nil _ _, List.cons_ne_nil _ _⟩

/-- The active calls are at the same place. -/
theorem doing (h : κ.Calls (c :: rest) calls') :
    ∃ c' rest', calls' = c' :: rest' ∧ c.doing.Like κ c'.doing := by
  cases h with
  | bottom hd _ => exact ⟨_, _, rfl, hd⟩
  | cons hc _ => exact ⟨_, _, rfl, hc.doing⟩

/-- The active calls go on alike. -/
theorem head (h : κ.Calls (c :: rest) (c' :: rest')) (hd : d.Like κ d')
    (hl : c.doing.InLoop → d.InLoop) :
    κ.Calls ({ c with doing := d } :: rest) ({ c' with doing := d' } :: rest') := by
  cases h with
  | bottom _ hl' => exact .bottom hd (hl hl')
  | cons hc hr => exact .cons ⟨hc.id, hc.held, hc.slot, hd⟩ hr

/-- The calls below two calls that poll their own tasks are alike, and so are these calls. -/
theorem of_first {p : Act W B V (Polled V × B)} (h : κ.Calls (c :: rest) (c' :: rest'))
    (hd : c.doing = .first p) : c.Like κ c' ∧ κ.Calls rest rest' := by
  cases h with
  | bottom _ hl =>
    rw [hd] at hl
    exact hl.elim
  | cons hc hr => exact ⟨hc, hr⟩

/-- Slots are filled. -/
theorem fill (h : κ.Calls calls calls') (id : TaskId) (v : V) :
    κ.Calls (Machine.fill id v calls) (Machine.fill (κ.ids id) v calls') := by
  induction h with
  | @bottom c c' hd hl =>
    refine .bottom ?_ ?_
    · by_cases hc : c.id = id <;> by_cases hc' : c'.id = κ.ids id <;> simpa [hc, hc'] using hd
    · by_cases hc : c.id = id <;> simpa [hc] using hl
  | @cons c c' _ _ hc _ ih =>
    refine .cons ?_ ih
    by_cases hid : c.id = id
    · have hid' : c'.id = κ.ids id := hc.id.trans (congrArg κ.ids hid)
      simp only [if_pos hid, if_pos hid']
      exact ⟨hc.id, hc.held, rfl, hc.doing⟩
    · have hid' : c'.id ≠ κ.ids id := fun e ↦ hid (κ.ids.injective (hc.id.symm.trans e))
      simp only [if_neg hid, if_neg hid']
      exact hc

end Likeness.Calls

/-! ### Machines -/

/-- Two runs to completion end alike: both return, or both fail with the same failure. -/
def EndsLike : Except Failure (Option V) → Except Failure (Option V) → Prop
  | .ok _, .ok _ => True
  | .error e, .error e' => e = e'
  | _, _ => False

theorem EndsLike.refl (r : Except Failure (Option V)) : EndsLike r r := by
  cases r <;> trivial

theorem EndsLike.symm {r r' : Except Failure (Option V)} (h : EndsLike r r') : EndsLike r' r := by
  cases r <;> cases r' <;> first | exact h.elim | exact Eq.symm h | trivial

/-- **Two machines are alike**: both are running, or both outermost calls have ended. -/
inductive Machine.Like (κ : Likeness W B) (m m' : Machine W B V) : Prop
  /-- Both are running. -/
  | running (hs : m.site.Like κ m'.site) (hc : κ.Calls m.calls m'.calls)
  /-- Both have come to their ends. What they have held is destroyed, so the worlds may differ. -/
  | ended {r r'} (hs : m.site.Like κ.blind m'.site) (hc : m.calls = []) (hc' : m'.calls = [])
      (ho : m.outcome = some r) (ho' : m'.outcome = some r') (hr : EndsLike r r')

/-- Two steps of machines are alike: they tell the same, and lead to machines that are alike. -/
def Likeness.Steps (κ : Likeness W B) (r r' : List (Note V) × Machine W B V) : Prop :=
  κ.Tells r.1 r'.1 ∧ r.2.Like κ r'.2

theorem Likeness.Steps.prepend {r r' : List (Note V) × Machine W B V} {n n' : List (Note V)}
    (h : κ.Steps r r') (hn : κ.Tells n n') : κ.Steps (n ++ r.1, r.2) (n' ++ r'.1, r'.2) :=
  ⟨hn.append h.1, h.2⟩

namespace Machine

variable {site site' : Site W B} {c c' : Call W B V} {rest rest' calls calls' : List (Call W B V)}
  {b b' : B}

theorem Like.symm {m m' : Machine W B V} (h : m.Like κ m') : m'.Like κ.symm m := by
  cases h with
  | running hs hc => exact .running hs.symm hc.symm
  | ended hs hc hc' ho ho' hr => exact .ended hs.symm hc' hc ho' ho hr.symm

/-- Runs to completion begin. -/
theorem enter_like (hs : site.Like κ site') (hf : κ.Follows site) (hβ : β.Respects κ)
    (hc : κ.Calls calls calls') (hb : κ.body b b') :
    κ.Steps (enter β site calls b) (enter β site' calls' b') := by
  have hpoll := hβ.poll b b' (site.executor.waker site.executor.nextId) hb
  rw [← hs.waker, ← hs.nextId] at hpoll
  refine ⟨?_, .running (hs.allocate hf) (.cons ⟨hs.nextId, .none, rfl, .first hpoll⟩ hc)⟩
  show κ.Tells [.issued site.executor.nextId, .began site.executor.nextId true]
    [.issued site'.executor.nextId, .began site'.executor.nextId true]
  rw [hs.nextId]
  exact .cons (.cons .nil)

/-- Calls end. -/
theorem leave_like (hs : site.Like κ site') (hβ : β.Respects κ)
    (hc : κ.Calls (c :: rest) (c' :: rest')) {r r' : Except Failure (Option V)}
    (hr : EndsLike r r') (heq : c'.slot = c.slot → r' = r) :
    κ.Steps (leave β site c rest r) (leave β site' c' rest' r') := by
  cases hc with
  | bottom hd hl =>
    -- The outermost calls may hold different things.
    rcases hm : leave β site c [] r with ⟨n, m⟩
    rcases hm' : leave β site' c' [] r' with ⟨n', m'⟩
    have ho : m.outcome = some r := congrArg (·.2.outcome) hm.symm
    have ho' : m'.outcome = some r' := congrArg (·.2.outcome) hm'.symm
    obtain ⟨ds, w, rfl, hds, hsite, hcalls⟩ := leave_spec hm
    obtain ⟨ds', w', rfl, hds', hsite', hcalls'⟩ := leave_spec hm'
    have hcloses {n : List (Note V)} {id : TaskId} {x : Except Failure (Option V)}
        (h : ∀ k ∈ n, k = .destroyed id) : ∀ k ∈ n ++ [.returned id x], k.closes = true :=
      List.forall_mem_append.2 ⟨Note.forall_of_destroyed h rfl, by simp [Note.closes]⟩
    refine ⟨.of_closes (hcloses hds) (hcloses hds'), .ended ?_ hcalls hcalls' ho ho' hr⟩
    rw [hsite, hsite']
    exact hs.blind.onWorld trivial
  | @cons _ _ _ _ hc hrest =>
    obtain rfl := heq hc.slot
    obtain ⟨id, held, slot, doing⟩ := c
    obtain ⟨id', held', slot', doing'⟩ := c'
    obtain rfl : id' = κ.ids id := hc.id
    have hheld : Option.Rel κ.body held held' := hc.held
    -- What is held is destroyed first.
    have hdestroy : κ.Tells (held.elim ([], site) (site.destroy (V := V) β id)).1
          (held'.elim ([], site') (site'.destroy (V := V) β (κ.ids id))).1 ∧
        (held.elim ([], site) (site.destroy (V := V) β id)).2.Like κ
          (held'.elim ([], site') (site'.destroy (V := V) β (κ.ids id))).2 := by
      cases hheld with
      | none => exact ⟨.nil, hs⟩
      | some hb => exact hs.destroy hβ hb id
    refine ⟨hdestroy.1.append (.cons .nil), ?_⟩
    obtain ⟨d, rest, rfl⟩ := List.exists_cons_of_ne_nil hrest.ne_nil.1
    obtain ⟨d', rest', rfl, hd⟩ := hrest.doing
    exact .running hdestroy.2 (hrest.head (hd.resume _) fun hl ↦ hl.resume _)

/-- Polls in place end. -/
theorem afterFirst_like (hs : site.Like κ site') (hβ : β.Respects κ) (hc : c.Like κ c')
    (hrest : κ.Calls rest rest') (hb : κ.body b b') (result : Polled V) :
    κ.Steps (afterFirst β site c rest b result) (afterFirst β site' c' rest' b' result) := by
  have hcalls : κ.Calls (c :: rest) (c' :: rest') := .cons hc hrest
  match result with
  | .error e =>
    obtain ⟨hn, hsite⟩ := hs.destroy (V := V) hβ hb c.id
    rw [← hc.id] at hn hsite
    exact (leave_like hsite hβ hcalls (.refl _) fun _ ↦ rfl).prepend hn
  | .ok .pending =>
    obtain ⟨hn, hsite⟩ := hs.enqueue (V := V) hβ hb c.id
    rw [← hc.id] at hn hsite
    exact ⟨hn, .running hsite (hcalls.head .pop fun _ ↦ trivial)⟩
  | .ok (.ready v) =>
    have hcalls' : κ.Calls ({ c with held := some b, slot := some v, doing := .pop } :: rest)
        ({ c' with held := some b', slot := some v, doing := .pop } :: rest') :=
      .cons ⟨hc.id, .some hb, rfl, .pop⟩ hrest
    simp only [afterFirst, hs.isEmpty]
    split
    · exact leave_like hs hβ hcalls' (.refl _) fun _ ↦ rfl
    · exact ⟨.nil, .running hs hcalls'⟩

/-- Polls by the loops end. -/
theorem afterPoll_like (hs : site.Like κ site') (hβ : β.Respects κ)
    (hc : κ.Calls (c :: rest) (c' :: rest')) (hb : κ.body b b') (id : TaskId) (result : Polled V) :
    κ.Steps (afterPoll β site c rest id b result)
      (afterPoll β site' c' rest' (κ.ids id) b' result) := by
  match result with
  | .error e =>
    obtain ⟨hn, hsite⟩ := hs.destroy (V := V) hβ hb id
    exact (leave_like hsite hβ hc (.refl _) fun _ ↦ rfl).prepend hn
  | .ok .pending =>
    obtain ⟨hn, hsite⟩ := hs.insert (V := V) hβ hb id
    exact ⟨hn, .running hsite (hc.head .pop fun _ ↦ trivial)⟩
  | .ok (.ready v) =>
    obtain ⟨hn, hsite⟩ := hs.destroy (V := V) hβ hb id
    exact ⟨hn, .running hsite ((hc.head .pop fun _ ↦ trivial).fill id v)⟩

/-- Parkings are counted. -/
theorem countPark_like (hs : site.Like κ site') (hσ : σ.Respects κ)
    (hc : κ.Calls (c :: rest) (c' :: rest')) :
    κ.Steps (countPark σ site c rest) (countPark σ site' c' rest') := by
  refine ⟨.cons .nil, .running ?_ (hc.head (.asleep hσ.asleep) fun _ ↦ trivial)⟩
  obtain @⟨x, _, _, _, _, _, _, hq, hp, ht, hn, hs, hw⟩ := hs
  exact .mk (x := { x with parks := x.parks + 1 }) hq hp ht hn hs hw

/-- Ids are popped. -/
theorem stepPop_like (hs : site.Like κ site') (hβ : β.Respects κ)
    (hc : κ.Calls (c :: rest) (c' :: rest')) :
    κ.Steps (stepPop β site c rest) (stepPop β site' c' rest') := by
  obtain @⟨x, tasks, nextId, s, s', w, w', hq, hp, ht, hn, hs, hw⟩ := hs
  unfold stepPop
  cases hpop : s.pop? x.queue with
  | none =>
    have hpop' := hs.pop?_eq_none (hq ▸ hpop)
    rw [← hq] at hpop'
    simp only [hpop']
    exact ⟨.nil, .running (.mk hq hp ht hn hs hw) (hc.head .check fun _ ↦ trivial)⟩
  | some r =>
    obtain ⟨id, s₁⟩ := r
    obtain ⟨s₁', hpop', hs₁⟩ := hs.pop?_eq_some (hq ▸ hpop)
    rw [← hq] at hpop'
    simp only [hpop']
    have hget := ht.get? id
    generalize x.tasks.get? id = o, tasks.get? (κ.ids id) = o' at hget
    cases hget with
    | none =>
      refine ⟨.cons .nil, .running ?_ hc⟩
      exact .mk (x := { x with stale := x.stale + 1 }) hq hp ht hn hs₁ hw
    | @some b b' hb =>
      have hsite : Site.Like κ ⟨x, s, w⟩ ⟨{ x with tasks, nextId }, s', w'⟩ :=
        .mk hq hp ht hn hs hw
      have hpoll := hβ.poll b b' (x.waker id) hb
      rw [← hsite.waker] at hpoll
      refine ⟨.cons .nil, .running ?_ (hc.head (.poll hpoll) fun _ ↦ trivial)⟩
      exact .mk (x := { x with tasks := x.tasks.erase id, polls := x.polls + 1 }) hq hp
        (ht.erase id) hn hs₁ hw

/-- The loops decide whether to stop, to park or to go on. -/
theorem stepCheck_like (hs : site.Like κ site') (hβ : β.Respects κ) (hσ : σ.Respects κ)
    (hc : κ.Calls (c :: rest) (c' :: rest')) :
    κ.Steps (stepCheck β σ site c rest) (stepCheck β σ site' c' rest') := by
  have hready : (site'.signals.queue site'.executor.queue).isEmpty =
      (site.signals.queue site.executor.queue).isEmpty := by
    rw [hs.queue.1, hs.queue.2]
    exact hs.signals.isEmpty
  have hlog : site'.executor.logParking = site.executor.logParking := by
    obtain ⟨⟩ := hs
    rfl
  have hsize : site'.executor.tasks.size = site.executor.tasks.size := by
    obtain ⟨-, -, ht, -⟩ := hs
    exact ht.size
  unfold stepCheck
  rw [hs.isEmpty, hready, hlog, hsize]
  split
  · exact leave_like (hs.onWorld (hσ.finished _ _ hs.world)) hβ hc trivial fun hslot ↦ by rw [hslot]
  split
  · split
    · exact ⟨.nil, .running hs (hc.head (.announce (hσ.announce _)) fun _ ↦ trivial)⟩
    · exact countPark_like hs hσ hc
  · exact ⟨.nil, .running hs (hc.head .pop fun _ ↦ trivial)⟩

/-- Programs have ended, or run a task to completion. -/
theorem stepAct_like (hs : site.Like κ site') (hf : κ.Follows site) (hβ : β.Respects κ)
    {Q : R → R → Prop} {p p' : Act W B V R} (hp : p.Like κ Q p') (hset : p.Settled)
    {wait wait' : Act W B V R → Doing W B V}
    {after after' : Site W B → R → List (Note V) × Machine W B V}
    (hwait : ∀ q q', q.Like κ Q q' → κ.Calls ({ c with doing := wait q } :: rest)
      ({ c' with doing := wait' q' } :: rest'))
    (hafter : ∀ r r', Q r r' → κ.Steps (after site r) (after' site' r')) :
    κ.Steps (stepAct β site c rest p wait after) (stepAct β site' c' rest' p' wait' after') := by
  cases hp with
  | done hr => exact hafter _ _ hr
  | blockOn hb hk => exact enter_like hs hf hβ (hwait _ _ (.blockOn hb hk)) hb
  | _ => exact hset.elim

/-- **Active calls go on alike** from settled positions. -/
theorem step?_like {m m' : Machine W B V} (hs : m.site.Like κ m'.site)
    (hc : κ.Calls m.calls m'.calls) (hf : κ.Follows m.site) (hβ : β.Respects κ) (hσ : σ.Respects κ)
    (hset : ∀ c ∈ m.calls.head?, c.doing.Settled) {r : List (Note V) × Machine W B V}
    (h : m.step? β σ = some r) : ∃ r', m'.step? β σ = some r' ∧ κ.Steps r r' := by
  obtain ⟨site, calls, o⟩ := m
  obtain ⟨site', calls', o'⟩ := m'
  dsimp only at hs hc
  obtain ⟨c, rest, rfl⟩ := List.exists_cons_of_ne_nil hc.ne_nil.1
  obtain ⟨c', rest', rfl, hlike⟩ := hc.doing
  have hset : c.doing.Settled := hset c rfl
  simp only [step?] at h ⊢
  generalize hd : c.doing = d, hd' : c'.doing = d' at h hset hlike
  cases hlike with
  | first hp =>
    obtain ⟨hcc, hrest⟩ := hc.of_first hd
    refine ⟨_, rfl, ?_⟩
    obtain rfl := Option.some.inj h
    refine stepAct_like hs hf hβ hp hset (fun q q' hq ↦ .cons ⟨hcc.id, hcc.held, hcc.slot,
      .first hq⟩ hrest) ?_
    rintro ⟨result, b⟩ ⟨result', b'⟩ ⟨rfl, hb⟩
    rw [hcc.id]
    exact (afterFirst_like hs hβ hcc hrest hb result).prepend (.cons .nil)
  | pop => exact ⟨_, rfl, Option.some.inj h ▸ stepPop_like hs hβ hc⟩
  | @poll id p p' hp =>
    refine ⟨_, rfl, ?_⟩
    obtain rfl := Option.some.inj h
    refine stepAct_like hs hf hβ hp hset (fun q q' hq ↦ hc.head (.poll hq) fun _ ↦ trivial) ?_
    rintro ⟨result, b⟩ ⟨result', b'⟩ ⟨rfl, hb⟩
    exact (afterPoll_like hs hβ hc hb id result).prepend (.cons .nil)
  | check => exact ⟨_, rfl, Option.some.inj h ▸ stepCheck_like hs hβ hσ hc⟩
  | announce hp =>
    refine ⟨_, rfl, ?_⟩
    obtain rfl := Option.some.inj h
    refine stepAct_like hs hf hβ hp hset (fun q q' hq ↦ hc.head (.announce hq) fun _ ↦ trivial) ?_
    rintro (e | u) _ rfl
    · exact leave_like hs hβ hc (.refl _) fun _ ↦ rfl
    · exact countPark_like hs hσ hc
  | asleep hp =>
    refine ⟨_, rfl, ?_⟩
    obtain rfl := Option.some.inj h
    refine stepAct_like hs hf hβ hp hset (fun q q' hq ↦ hc.head (.asleep hq) fun _ ↦ trivial) ?_
    rintro _ _ -
    exact ⟨.nil, .running hs (hc.head .park fun _ ↦ trivial)⟩
  | park =>
    obtain ⟨s₁, hpark, rfl⟩ := Option.map_eq_some_iff.1 h
    rw [hs.parker.1] at hpark
    obtain ⟨s₁', hpark', hsig'⟩ := hs.signals.park? hpark
    have hsite : Site.Like κ { site with signals := s₁ } { site' with signals := s₁' } :=
      hs.onSignals fun _ ↦ hsig'
    refine ⟨([], ⟨{ site' with signals := s₁' }, { c' with doing := .pop } :: rest', none⟩),
      ?_, .nil, .running hsite (hc.head .pop fun _ ↦ trivial)⟩
    rw [hs.parker.2, hpark']
    rfl

end Machine

end TaskRuntime
