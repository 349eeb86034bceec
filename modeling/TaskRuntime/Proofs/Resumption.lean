import TaskRuntime.Proofs.AnotherRun
import TaskRuntime.Proofs.Failing
import TaskRuntime.Proofs.LikeIds
import TaskRuntime.Proofs.Phases

/-!
# After a poll that fails

A poll that fails in the scheduling loop of the only call ends the run to completion, and leaves the
executor as it was. Running anything that is ready at once to completion afterwards takes up the
loop where it was interrupted: it polls the same tasks, in the same order and with the same results,
as the interrupted loop would have polled if the failing poll had resulted in a value instead
(`Ensemble.Run.resumable`).

## Two comparisons

Two things are different in the new run: its task has taken an id, so tasks that are spawned later
have the next ones, and what the failed call held has been destroyed already. There are two ways to
put this.

* A loop that has given out one more id, and has destroyed what it holds, does exactly the same as
  the new run, whatever bodies do. The likeness is `Likeness.exact`.
* The loop as it is does the same up to the ids, for all likenesses that bodies respect and that
  move up the ids that have not been given out (`movedUp`). That what the call held has been
  destroyed must then be something that the other tasks do not notice (`Ensemble.Comparable`).

In either case the two runs are matched step by step, in both directions and with whatever others do
meanwhile (`Ensemble.Resumes`).

The announcement of a parking may fail as well. It leaves as much behind, and the parking has not
been counted (`Ensemble.Run.announce_failed`).
-/

namespace TaskRuntime

variable {W B V R : Type} {β : Behaviour W B V} {σ : Surroundings W B V} {κ : Likeness W B}

namespace Ensemble

/-! ### One run takes up another -/

/-- **A run of `body` takes up a loop**: `s` is in the loop, and in `t` no run is going on. This is
said of histories that fit, so that the ids given out do not wrap around. -/
structure Resumes (β : Behaviour W B V) (σ : Surroundings W B V) (κ : Likeness W B)
    (fits : List (Note V) → Prop) (body : B) (s t : Ensemble W B V) : Prop where
  /-- The body can be run to completion. -/
  starts : ∃ t', Resumption β σ body t [] t'
  /-- Whatever the loop goes on to do, the new run does. -/
  forth : s.machine.site.executor.tasks.isEmpty = false → ∀ h s', Going β σ s h s' → fits h →
    ∃ h' t', Resumption β σ body t h' t' ∧ κ.Tells h h' ∧ Like κ s' t'
  /-- Whatever the new run does, the loop goes on to do. -/
  back : s.machine.site.executor.tasks.isEmpty = false → ∀ h' t', Resumption β σ body t h' t' →
    fits h' → ∃ h s', Going β σ s h s' ∧ κ.Tells h h' ∧ Like κ s' t'
  /-- If no task is left, neither polls. -/
  idle : s.machine.site.executor.tasks.isEmpty = true →
    (∀ h s', Going β σ s h s' → ∀ id inPlace, .began id inPlace ∉ h) ∧
      ∀ h t', Resumption β σ body t h t' →
        t'.machine.calls = [] ∧ ∀ id inPlace, .began id inPlace ∉ h

variable {s s' t t' : Ensemble W B V} {h n : List (Note V)} {body : B}

/-- A call that is in the loop is like any other that is there. -/
theorem calls_of_pop {c c' : Call W B V} (hd : c.doing = .pop) (hd' : c'.doing = .pop) :
    κ.Calls [c] [c'] := by
  refine .bottom ?_ ?_
  · rw [hd, hd']
    exact .pop
  · rw [hd]
    trivial

section

variable {c : Call W B V} (hn : Near κ s t.skip) (hc : s.machine.calls = [c])
  (hd : c.doing = .pop) (ho : t.own = none) (hbody : β.Ready body) (hβ : β.Respects κ)
  (hσ : σ.Respects κ)

include hn hc hd ho hbody hβ hσ

/-- Whatever the loop goes on to do, a run of a body that is ready at once does. -/
theorem Going.resumes (hr : Going β σ s h s')
    (ht : s.machine.site.executor.tasks.isEmpty = false)
    (hf : ∀ h₁ s₁ h₂, Going β σ s h₁ s₁ → h = h₁ ++ h₂ → κ.Follows s₁.machine.site) :
    ∃ h' t', Resumption β σ body t h' t' ∧ κ.Tells h h' ∧ Like κ s' t' := by
  have hso : s.own = none := by
    have hown : t.own = s.own.map κ.waker := hn.own
    rw [ho] at hown
    exact Option.map_eq_none_iff.1 hown.symm
  obtain ⟨n, n', m, m', he, hstep, hne⟩ := exists_polled (σ := σ) hbody t
  obtain ⟨hsite, c', hc', hd'⟩ := hne (hn.site.isEmpty.trans ht)
  have hnear : Near κ s ⟨m', t.flights, none⟩ := by
    refine ⟨?_, hn.flights, by rw [hso]; rfl⟩
    rw [hsite]
    exact hn.site
  have hlike : Like κ s ⟨m', t.flights, none⟩ :=
    hnear.like (by rw [hc, hc']; exact calls_of_pop hd hd')
  obtain ⟨h', t', hr', hh, hst⟩ := hr.like hlike hβ hσ hf
  exact ⟨h', t', .mk (x := []) (y := []) .refl he .refl hstep hr', hh, hst⟩

/-- Whatever a run of a body that is ready at once does, the loop goes on to do. -/
theorem Resumption.goes_on {h' : List (Note V)} (hr : Resumption β σ body t h' t')
    (ht : s.machine.site.executor.tasks.isEmpty = false)
    (hf : ∀ t₀ x h₁ t₁ h₂, t₀.machine.site.executor.nextId = t.machine.site.executor.nextId + 1 →
      Going β σ t₀ h₁ t₁ → h' = x ++ (h₁ ++ h₂) → κ.symm.Follows t₁.machine.site) :
    ∃ h s', Going β σ s h s' ∧ κ.Tells h h' ∧ Like κ s' t' := by
  obtain ⟨x, y, z, u, u', m, m', rfl, before, hsite, during, after, hne, -⟩ := hr.phases hbody
  -- Whatever others do is done in the loop as well.
  obtain ⟨x', s₁, hx, hxt, hn₁⟩ := before.skip.near hn.symm
  have hm : Near κ.symm ⟨m, u.flights, none⟩ s₁ := by
    have hown : s₁.own = u.own.map κ.symm.waker := hn₁.own
    rw [before.own.trans ho] at hown
    exact ⟨hsite ▸ hn₁.site, hn₁.flights, hown⟩
  obtain ⟨y', s₂, hy, hyt, hn₂⟩ := during.near hm
  have hs₂ : s₂.machine.calls = [c] := hy.calls.trans (hx.calls.trans hc)
  have htasks : u'.machine.site.executor.tasks.isEmpty = false := by
    rw [← hn₂.site.isEmpty, hy.executor, hx.executor]
    exact ht
  obtain ⟨hsite', c', hc', hd'⟩ := hne htasks
  have hnear : Near κ.symm ⟨m', u'.flights, none⟩ s₂ := by
    have hown : s₂.own = u'.own.map κ.symm.waker := hn₂.own
    rw [during.own] at hown
    exact ⟨hsite' ▸ hn₂.site, hn₂.flights, hown⟩
  have hlike : Like κ.symm ⟨m', u'.flights, none⟩ s₂ :=
    hnear.like (by rw [hs₂, hc']; exact calls_of_pop hd' hd)
  have hnext : m'.site.executor.nextId = t.machine.site.executor.nextId + 1 := by
    rw [hsite', during.executor]
    show m.site.executor.nextId = _
    rw [hsite]
    show u.machine.site.executor.nextId + 1 = _
    rw [before.executor]
  obtain ⟨z', s', hz, hzt, hst⟩ := after.like hlike hβ.symm hσ.symm fun h₁ t₁ h₂ hr₁ hh ↦
    hf _ (x ++ y) h₁ t₁ h₂ hnext hr₁ (by rw [hh])
  have hgoing := ((hx.going (by rw [hc]; simp)).trans
    (hy.going (by rw [hx.calls, hc]; simp))).trans hz
  exact ⟨_, s', hgoing, (hxt.symm.append hyt.symm).append hzt.symm, hst.symm⟩

/-- **A body that is ready at once takes up a loop** that is like what is left, but for the id that
the body takes. -/
theorem Resumes.of_near {fits : List (Note V) → Prop}
    (hforth : ∀ h₁ s₁ h₂, Going β σ s h₁ s₁ → fits (h₁ ++ h₂) → κ.Follows s₁.machine.site)
    (hback : ∀ t₀ x h₁ t₁ h₂,
      t₀.machine.site.executor.nextId = t.machine.site.executor.nextId + 1 →
        Going β σ t₀ h₁ t₁ → fits (x ++ (h₁ ++ h₂)) → κ.symm.Follows t₁.machine.site) :
    Resumes β σ κ fits body s t where
  starts := by
    obtain ⟨n, n', m, m', he, hstep, -⟩ := exists_polled (σ := σ) hbody t
    exact ⟨_, .mk (x := []) (y := []) .refl he .refl hstep .refl⟩
  forth ht h s' hr hfit :=
    hr.resumes hn hc hd ho hbody hβ hσ ht fun h₁ s₁ h₂ hr₁ hh ↦ hforth h₁ s₁ h₂ hr₁ (hh ▸ hfit)
  back ht h' t' hr hfit :=
    hr.goes_on hn hc hd ho hbody hβ hσ ht fun t₀ x h₁ t₁ h₂ ht₀ hr₁ hh ↦
      hback t₀ x h₁ t₁ h₂ ht₀ hr₁ (hh ▸ hfit)
  idle ht :=
    ⟨fun h s' hr ↦ (hr.idle ⟨c, hc, Or.inl hd, ht⟩).2,
      fun h t' hr ↦ hr.idle hbody (hn.site.isEmpty.trans ht)⟩

end

/-! ### What is left is like what the loop would go on with -/

/-- No parker disappears. -/
theorem Step.length_parkers_le (hs : Step β σ s n s') :
    s.machine.site.signals.parkers.length ≤ s'.machine.site.signals.parkers.length := by
  cases hs with
  | turn hset h => exact Nat.le_of_eq (Machine.turn_of_step? hset h).length_parkers.symm
  | request hc hw hd h => exact Nat.le_of_eq (Act.parkers_of_request? h).1.symm
  | elsewhere h => exact h.parkers
  | spawn b hc h =>
    obtain ⟨-, ds, tasks, w, -, -, rfl, -⟩ := Site.spawn_spec h
    exact Nat.le_refl _
  | blockOn b hc h =>
    obtain ⟨rfl, rfl⟩ := Prod.mk.inj h
    exact Nat.le_refl _
  | world w => exact Nat.le_refl _
  | sleep hc => simp [Machine.onSignals, Signals.parkFor, Signals.setParker]
  | _ => simp [Machine.onSignals]

/-- The parker of the executor exists. -/
theorem Run.parker_lt {P : Ensemble W B V → Prop} {site : Site W B} (hs : site.Fresh)
    (hr : Run β σ P (.start site) h s) :
    s.machine.site.executor.parker.index < s.machine.site.signals.parkers.length := by
  have hparker : s.machine.site.executor.parker = site.executor.parker := congrArg Prod.snd hr.refs
  rw [hparker]
  clear hparker
  induction hr with
  | refl => exact hs.parker
  | step _ hstep _ ih => exact Nat.lt_of_lt_of_le ih hstep.length_parkers_le

/-- The ids go on being given out in order. -/
theorem Going.numbered {s₀ : Ensemble W B V} {h₀ : List (Note V)} (hr : Going β σ s₀ h s)
    (hn : Numbered s₀.machine.site.executor.nextId h₀) :
    Numbered s.machine.site.executor.nextId (h₀ ++ h) := by
  induction hr with
  | refl => simpa using hn
  | step _ _ hs ih =>
    rw [← List.append_assoc]
    exact hs.move.counts.numbered ih

/-- **What the comparison up to the ids rests on**, for a failure after a history `h`. The world is
`w` if the loop goes on, and `w'` once it has failed. -/
structure Comparable (β : Behaviour W B V) (σ : Surroundings W B V) (κ : Likeness W B)
    (h : List (Note V)) (s : Ensemble W B V) (w w' : W) : Prop where
  /-- The likeness is about this executor. -/
  queue : κ.queue = s.machine.site.executor.queue
  /-- The likeness is about this executor. -/
  parker : κ.parker = s.machine.site.executor.parker
  /-- It moves up the ids that have not been given out. -/
  ids : κ.ids = movedUp s.machine.site.executor.nextId
  /-- Bodies respect it. -/
  behaviour : β.Respects κ
  /-- The surroundings respect it. -/
  surroundings : σ.Respects κ
  /-- The bodies in the table know of no id that has not been given out. -/
  bodies : ∀ id b, s.machine.site.executor.tasks.get? id = some b → κ.body b b
  /-- Nor does the world, and no task notices that what the call held has been destroyed. -/
  world : κ.world w w'
  /-- No id is queued that has not been given out. -/
  ready : ∀ id ∈ s.machine.site.ready, .issued id ∈ h
  /-- No such id is on its way to the queue. -/
  flights : ∀ u ∈ s.flights, u.queue = some s.machine.site.executor.queue → .issued u.id ∈ h
  /-- There are ids left. -/
  room : (issuedIds h).length + 3 < UInt64.size

/-- The loop goes on with an executor, and another run begins with the next id of it. -/
theorem near_skip {x : Executor B} {i : TaskId} {sig : Signals} {w w' : W}
    {calls calls' : List (Call W B V)} {o o' : Option (Except Failure (Option V))}
    {flights : List Waker} (hq : κ.queue = x.queue) (hp : κ.parker = x.parker)
    (htasks : ∀ id b, x.tasks.get? id = some b → κ.ids id = id ∧ κ.body b b)
    (hnext : κ.ids i = x.nextId + 1) (hqueue : sig.Queue x.queue)
    (hparker : x.parker.index < sig.parkers.length)
    (hready : ∀ id ∈ (sig.queue x.queue).ids, κ.ids id = id)
    (hflights : ∀ u ∈ flights, κ.waker u = u) (hw : κ.world w w') :
    Near κ ⟨⟨⟨{ x with nextId := i }, sig, w⟩, calls, o⟩, flights, none⟩
      (skip ⟨⟨⟨x, sig, w'⟩, calls', o'⟩, flights, none⟩) where
  site := by
    rw [← hq] at hqueue hready
    rw [← hp] at hparker
    have hsigns := Likeness.Signs.refl hqueue hparker hready
    exact .mk (x := { x with nextId := i }) hq.symm hp.symm (.refl htasks) hnext.symm hsigns hw
  flights := by
    conv_lhs => rw [← List.map_id flights]
    exact List.map_congr_left fun u hu ↦ (hflights u hu).symm
  own := rfl

/-- **A body that is ready at once takes up a loop, up to the ids.** -/
theorem Comparable.resumes {x : Executor B} {sig : Signals} {w w₁ w₂ : W}
    {calls : List (Call W B V)} {o o' : Option (Except Failure (Option V))} {flights : List Waker}
    {d : Call W B V} (hκ : Comparable β σ κ h ⟨⟨⟨x, sig, w⟩, calls, o⟩, flights, none⟩ w₁ w₂)
    (hnum : Numbered x.nextId h) (htasks : ∀ id, x.tasks.contains id = true → .issued id ∈ h)
    (hqueue : sig.Queue x.queue) (hparker : x.parker.index < sig.parkers.length)
    (hd : d.doing = .pop) (hbody : β.Ready body) :
    Resumes β σ κ (fun n ↦ (issuedIds (h ++ n)).length + 3 < UInt64.size) body
      ⟨⟨⟨x, sig, w₁⟩, [d], none⟩, flights, none⟩ ⟨⟨⟨x, sig, w₂⟩, [], o'⟩, flights, none⟩ := by
  have hids : κ.ids = movedUp x.nextId := hκ.ids
  have hq : κ.queue = x.queue := hκ.queue
  have hroom := hκ.room
  have hfix {i : TaskId} (hi : .issued i ∈ h) : κ.ids i = i := by
    rw [hids, movedUp_of_lt (hnum.lt (by omega) hi)]
  have hnext : κ.ids x.nextId = x.nextId + 1 := by
    have hfirst := hnum.toNat_eq (by omega)
    rw [hids, movedUp_of_le (UInt64.le_refl _) (succ_ne_zero (by omega))]
  have hflights : ∀ u ∈ flights, κ.waker u = u := by
    intro u hu
    by_cases hqu : u.queue = some κ.queue
    · have hfixed : κ.ids u.id = u.id := hfix (hκ.flights u hu (hq ▸ hqu))
      rw [Likeness.waker, if_pos hqu, hfixed]
    · exact if_neg hqu
  have hroom' {h₁ h₂ : List (Note V)}
      (hfit : (issuedIds (h ++ (h₁ ++ h₂))).length + 3 < UInt64.size) :
      (issuedIds (h ++ h₁)).length + 3 < UInt64.size := by
    rw [← List.append_assoc, issuedIds_append, List.length_append] at hfit
    omega
  refine .of_near (near_skip hq hκ.parker (fun id b hb ↦ ⟨?_, hκ.bodies id b hb⟩) hnext hqueue
    hparker (fun id hid ↦ hfix (hκ.ready id hid)) hflights hκ.world) rfl hd rfl hbody
    hκ.behaviour hκ.surroundings (fun h₁ s₁ h₂ hr hfit ↦ ?_) fun t₀ x' h₁ t₁ h₂ ht₀ hr hfit ↦ ?_
  · exact hfix (htasks id (Table.contains_of_get? hb))
  · -- The loop gives out the ids that come next.
    exact hnum.follows hids (hr.numbered hnum) (hroom' hfit)
  · -- The other run gives out the ids after the one that its task has taken.
    have hstart : Numbered t₀.machine.site.executor.nextId (h ++ [.issued x.nextId]) := by
      rw [ht₀]
      exact hnum.issued rfl
    have hfit' : (issuedIds (h ++ (h₁ ++ (x' ++ h₂)))).length + 3 < UInt64.size := by
      simp only [issuedIds_append, List.length_append] at hfit ⊢
      omega
    exact hnum.follows_symm hids (hr.numbered hstart) (hroom' hfit')

/-! ### The main result -/

variable {P : Ensemble W B V → Prop} {site : Site W B} {c : Call W B V} {e : Failure} {id : TaskId}
  {b : B} {m : Machine W B V}

/-- A turn that the machine makes from a settled position prolongs a run. -/
theorem Run.turn (hr : Run β σ P (.start site) h s) (hc : s.machine.calls = [c])
    (ho : s.own = none) (hd : c.doing.Settled) (hstep : s.machine.step? β σ = some (n, m)) :
    Run β σ (fun _ ↦ True) (.start site) (h ++ n) ⟨m, s.flights, none⟩ := by
  obtain ⟨⟨_, calls, _⟩, flights, own⟩ := s
  obtain rfl : own = none := ho
  obtain rfl : calls = [c] := hc
  refine (hr.mono fun _ _ ↦ trivial).step (.turn (fun d hmem ↦ ?_) hstep) trivial
  obtain rfl := Option.mem_some.1 hmem
  exact hd

/-- **What is left of a poll that has failed can be taken up**, as the loop that the poll would have
gone back to if it had resulted in a value. -/
theorem Run.resumes (hs : site.Unused) (hr : Run β σ P (.start site) h s)
    (hlen : (issuedIds h).length ≤ UInt64.size) (ho : s.own = none)
    (hfails : s.machine.Fails e m)
    (hworld : m.site.world = c.release β (β.drop b s.machine.site.world)) (v : V)
    (hbody : β.Ready body) :
    ∃ n₁ m₁, (s.machine.instead c id v b).step? β σ = some (n₁, m₁) ∧
      Resumes β σ (.exact s.machine.site.executor.queue s.machine.site.executor.parker)
        (fun _ ↦ True) body
        (skip ⟨{ m₁ with site := { m₁.site with world := c.release β m₁.site.world } },
          s.flights, none⟩) ⟨m, s.flights, none⟩ ∧
      ∀ κ, Comparable β σ κ h s m₁.site.world m.site.world →
        Resumes β σ κ (fun n ↦ (issuedIds (h ++ n)).length + 3 < UInt64.size) body
          ⟨m₁, s.flights, none⟩ ⟨m, s.flights, none⟩ := by
  have hfresh := hs.toFresh
  have hb := hr.books hfresh hlen
  have hqueue := (hr.law (Signals.Law.fresh hfresh)).queue
  have hparker := hr.parker_lt hfresh
  obtain ⟨⟨⟨x, sig, w⟩, calls, o⟩, flights, own⟩ := s
  obtain ⟨⟨x', sig', w'⟩, calls', o'⟩ := m
  obtain rfl : own = none := ho
  obtain rfl : x' = x := hfails.executor
  obtain rfl : sig' = sig := hfails.signals
  obtain rfl : calls' = [] := hfails.calls
  obtain rfl : w' = c.release β (β.drop b w) := hworld
  obtain ⟨d, hpop, hstep⟩ :=
    Machine.step?_instead (β := β) (σ := σ) ⟨⟨x', sig', w⟩, calls, o⟩ c id v b
  refine ⟨_, _, hstep, ?_, fun κ hκ ↦ ?_⟩
  · exact .of_near (near_skip rfl rfl (fun _ _ _ ↦ ⟨rfl, rfl⟩) rfl hqueue hparker
      (fun _ _ ↦ rfl) (fun u _ ↦ Likeness.waker_exact u) rfl) rfl hpop rfl hbody
      (β.respects_exact _ _) (σ.respects_exact _ _) (fun _ _ _ _ _ ↦ rfl)
      (fun _ _ _ _ _ _ _ _ ↦ rfl)
  · -- A task that waits in the table has an id.
    have hissued (i : TaskId) (hi : x'.tasks.contains i = true) : .issued i ∈ h := by
      have htells := phase_tells i h
      rw [(hb.waiting i).2 hi] at htells
      exact htells.1
    exact hκ.resumes (hr.numbered hfresh) hissued hqueue hparker hpop hbody

end Ensemble

/-! ### A poll that fails after it has spawned -/

/-- Body `0` is done at once. Body `1` wakes itself, spawns body `0` and fails. Body `2` spawns body
`0` and is done, and any other is never done. -/
def faltering : Behaviour Unit Nat Unit where
  poll
    | 0, _ => .done (.ok (.ready ()), 3)
    | 1, w => .wake w (.spawn 0 fun _ ↦ .done (.error (.misuse .notInitialized none), 1))
    | 2, _ => .spawn 0 fun _ ↦ .done (.ok (.ready ()), 3)
    | _, _ => .done (.ok .pending, 3)
  drop _ w := w

/-- Surroundings in which no parking can be announced. -/
def Surroundings.refusing : Surroundings Unit Nat Unit where
  finished w := w
  announce _ := .done (.error (.misuse .reactorFailed none))
  asleep := .done ()

namespace Ensemble

/-- Body `3` is run to completion: the ensemble after so many steps of the machine. -/
def refused (steps : Nat) : Ensemble Unit Nat Unit :=
  ⟨(Machine.enter faltering (.blank ()) [] 3).2.run faltering .refusing steps, [], none⟩

end Ensemble

end TaskRuntime
