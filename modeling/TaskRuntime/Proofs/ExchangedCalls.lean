import TaskRuntime.Proofs.Completion
import TaskRuntime.Proofs.Exchange

/-!
# Calls on sites that differ in one task

A run of the future to completion and a run of the chain go on in step. Above the two calls there
may be others, begun by tasks that they poll; they are the same on both sides, except that one of
them may be polling the task that differs (`Exchange.Calls`). The calls below are the same, and wait
until the run has ended.

Each function of the loop has one lemma here, and `Exchange.step?` puts them together: from settled
positions of the active calls, either both machines make a step or none does. The steps tell the
same, and lead to machines that are still in step or have both returned (`Exchange.Machines`).

## The worlds

The worlds of the two sides are those of the era, except for one moment (`Exchange.Span`): once the
future has become ready and before its poll has ended, they are what the continuation and the
destruction make of them. The step that ends this poll begins the late era. If others can tell the
worlds apart that it leaves, the machines are not in step after it, but only torn: they are again as
soon as the world of one of them is replaced by that of the other (`Exchange.Torn`).

That there is no such task any more after that poll rests on nothing being polled twice at the same
time (`Machine.Once`).
-/

namespace TaskRuntime

variable {W B V R S : Type}

/-! ### Places -/

/-- A call is about to replace the world. -/
def Doing.Replaces : Doing W B V → Prop
  | .first p => p.Replaces
  | .poll _ p => p.Replaces
  | .announce p => p.Replaces
  | .asleep p => p.Replaces
  | _ => False

namespace Doing

namespace Runs

variable {wrap : Act W B V R → Doing W B V}

theorem settled_iff (hw : Runs wrap) (p : Act W B V R) : (wrap p).Settled ↔ p.Settled := by
  cases hw <;> rfl

theorem replaces_iff (hw : Runs wrap) (p : Act W B V R) : (wrap p).Replaces ↔ p.Replaces := by
  cases hw <;> rfl

theorem resume_eq (hw : Runs wrap) (p : Act W B V R) (r : Except Failure (Option V)) :
    (wrap p).resume r = wrap (answered r p) := by
  cases hw <;> rfl

end Runs

end Doing

/-- A value that comes in touches no call of another task. -/
theorem Call.map_filled_of_ne {i : TaskId} {rest : List (Call W B V)} (h : ∀ d ∈ rest, d.id ≠ i)
    (v : V) : rest.map (Call.filled i v) = rest :=
  (List.map_congr_left fun d hd ↦ if_neg (h d hd)).trans (List.map_id rest)

/-- **A task is ripe** in a call of another or the same task: its poll has come to a value, and is
about to end. -/
inductive Doing.Ripe (id i : TaskId) : Doing W B V → Prop
  /-- The call polls its own task in place. -/
  | first {v b} (hi : i = id) : Ripe id i (.first (.done (.ok (.ready v), b)))
  /-- The call polls the task that was popped. -/
  | poll {v b} : Ripe id i (.poll id (.done (.ok (.ready v), b)))

namespace Machine

/-- A task is ripe in the active call. -/
def Ripe (m : Machine W B V) (id : TaskId) : Prop := ∃ c ∈ m.calls.head?, c.doing.Ripe id c.id

/-- **A task that the active call is polling is nowhere else**: not in the table, and not being
polled by another call. -/
def Once (m : Machine W B V) (id : TaskId) : Prop :=
  ∀ inPlace f, m.polled = (id, inPlace) :: f → ¬ m.Tabled id ∧ ∀ ip, (id, ip) ∉ f

end Machine

theorem Machine.Once.of_polls? {m : Machine W B V} {id : TaskId} (h : m.Once id) {c : Call W B V}
    {rest : List (Call W B V)} (hm : m.calls = c :: rest) {inPlace : Bool}
    (hc : c.polls? = some (id, inPlace)) :
    ¬ m.Tabled id ∧ ∀ d ∈ rest, ∀ ip, d.polls? ≠ some (id, ip) := by
  have hpolled : m.polled = (id, inPlace) :: rest.filterMap Call.polls? := by
    rw [Machine.polled, hm, List.filterMap_cons_some hc]
  obtain ⟨htable, hrest⟩ := h inPlace _ hpolled
  exact ⟨htable, fun d hd ip hp ↦ hrest ip (List.mem_filterMap.2 ⟨d, hd, hp⟩)⟩

theorem Books.once {m : Machine W B V} {h : List (Note V)} (hb : Books m.Tabled m.polled h)
    (id : TaskId) : m.Once id := by
  intro inPlace f hf
  refine ⟨hb.not_tabled_of_polled (hf ▸ List.mem_cons_self), ?_⟩
  rw [hf] at hb
  exact hb.notMem_of_cons

namespace Exchange

variable {ξ : Exchange W B V S} {π : Scope W B} {β : Behaviour W B V} {σ : Surroundings W B V}
  {e : Era} {n : Nat} {w u : W} {i : TaskId}

theorem IsReady.first {r : Polled V × B} (h : IsReady r) {id : TaskId} (hi : i = id) :
    (Doing.first (.done r) : Doing W B V).Ripe id i := by
  obtain ⟨_, b⟩ := r
  obtain ⟨v, rfl⟩ := h
  exact .first hi

theorem IsReady.poll {r : Polled V × B} (h : IsReady r) {id j : TaskId} (hj : j = id) :
    (Doing.poll j (.done r) : Doing W B V).Ripe id i := by
  obtain ⟨_, b⟩ := r
  obtain ⟨v, rfl⟩ := h
  exact hj ▸ .poll

/-- **Two calls of a task are at the same place**, and their programs go on side by side. -/
inductive Places (ξ : Exchange W B V S) (π : Scope W B) (e : Era) (w : W) (i : TaskId) :
    Doing W B V → Doing W B V → Prop
  /-- Both poll their own tasks in place. -/
  | first {p p'} (hp : π.Abreast (i = ξ.id) e IsReady (ξ.Ends π e i) w p p') :
      Places ξ π e w i (.first p) (.first p')
  /-- Both are about to pop. -/
  | pop : Places ξ π e w i .pop .pop
  /-- Both poll a task that was popped. -/
  | poll {j p p'} (hp : π.Abreast (j = ξ.id) e IsReady (ξ.Ends π e j) w p p') :
      Places ξ π e w i (.poll j p) (.poll j p')
  /-- Both have found no id. -/
  | check : Places ξ π e w i .check .check
  /-- Both announce that they will park. -/
  | announce {p p'} (hp : π.Abreast False e (fun _ ↦ False) Eq w p p') :
      Places ξ π e w i (.announce p) (.announce p')
  /-- Both let others act. -/
  | asleep {p p'} (hp : π.Abreast False e (fun _ ↦ False) Eq w p p') :
      Places ξ π e w i (.asleep p) (.asleep p')
  /-- Both park. -/
  | park : Places ξ π e w i .park .park

namespace Places

variable {d d' : Doing W B V}

/-- What the second call runs if the first one runs a program. -/
theorem of_runs {wrap : Act W B V R → Doing W B V} (hw : Doing.Runs wrap) {p : Act W B V R}
    (h : ξ.Places π e w i (wrap p) d') :
    ∃ (own : Prop) (T : R → Prop) (Q : R → R → Prop) (p' : Act W B V R), d' = wrap p' ∧
      π.Abreast own e T Q w p p' ∧
      ∀ v q q', π.Abreast own e T Q v q q' → ξ.Places π e v i (wrap q) (wrap q') := by
  cases hw with
  | first =>
    cases h with
    | first hp => exact ⟨_, _, _, _, rfl, hp, fun _ _ _ ↦ .first⟩
  | poll j =>
    cases h with
    | poll hp => exact ⟨_, _, _, _, rfl, hp, fun _ _ _ ↦ .poll⟩
  | announce =>
    cases h with
    | announce hp => exact ⟨_, _, _, _, rfl, hp, fun _ _ _ ↦ .announce⟩
  | asleep =>
    cases h with
    | asleep hp => exact ⟨_, _, _, _, rfl, hp, fun _ _ _ ↦ .asleep⟩

/-- What two calls at the same place do: they run programs that go on side by side, or they run
none. -/
inductive View (ξ : Exchange W B V S) (π : Scope W B) (e : Era) (w : W) (i : TaskId) :
    Doing W B V → Doing W B V → Prop
  /-- They run programs, and may go on with programs that go on side by side. -/
  | runs {R : Type} {wrap : Act W B V R → Doing W B V} {own T Q p p'} (hw : Doing.Runs wrap)
      (hp : π.Abreast own e T Q w p p')
      (hgo : ∀ u q q', π.Abreast own e T Q u q q' → ξ.Places π e u i (wrap q) (wrap q'))
      (hripe : own → ∀ r, T r → (wrap (.done r)).Ripe ξ.id i) :
      View ξ π e w i (wrap p) (wrap p')
  /-- They run no program. -/
  | still {d : Doing W B V} (hd : d.Settled) (hr : ∀ r, d.resume r = d)
      (hgo : ∀ u, ξ.Places π e u i d d) : View ξ π e w i d d

theorem view (h : ξ.Places π e w i d d') : View ξ π e w i d d' := by
  cases h with
  | first hp => exact .runs .first hp (fun _ _ _ ↦ .first) fun hi _ hr ↦ hr.first hi
  | poll hp => exact .runs (.poll _) hp (fun _ _ _ ↦ .poll) fun hj _ hr ↦ hr.poll hj
  | announce hp => exact .runs .announce hp (fun _ _ _ ↦ .announce) fun hf ↦ hf.elim
  | asleep hp => exact .runs .asleep hp (fun _ _ _ ↦ .asleep) fun hf ↦ hf.elim
  | pop => exact .still trivial (fun _ ↦ rfl) fun _ ↦ .pop
  | check => exact .still trivial (fun _ ↦ rfl) fun _ ↦ .check
  | park => exact .still trivial (fun _ ↦ rfl) fun _ ↦ .park

/-- Both calls get the same result. -/
theorem resume (h : ξ.Places π e w i d d') (r : Except Failure (Option V)) :
    ξ.Places π e w i (d.resume r) (d'.resume r) := by
  cases h.view with
  | runs hw hp hgo _ =>
    rw [hw.resume_eq, hw.resume_eq]
    exact hgo _ _ _ (hp.answered r)
  | still _ hr hgo =>
    rw [hr]
    exact hgo _

/-- Others may change the world, unless the second call is about to replace it. -/
theorem of_not_replaces (h : ξ.Places π e w i d d') (hd : ¬ d'.Replaces) :
    ξ.Places π e u i d d' := by
  cases h.view with
  | runs hw hp hgo _ => exact hgo _ _ _ (hp.of_not_replaces (mt (hw.replaces_iff _).2 hd))
  | still _ _ hgo => exact hgo _

theorem settled (h : ξ.Places π e w i d d') (hd : d'.Settled) : d.Settled := by
  cases h.view with
  | runs hw hp _ _ => exact (hw.settled_iff _).2 (hp.settled ((hw.settled_iff _).1 hd))
  | still hd _ _ => exact hd

theorem replaces (h : ξ.Places π e w i d d') (hd : d.Replaces) : d'.Replaces := by
  cases h.view with
  | runs hw hp _ _ => exact (hw.replaces_iff _).2 (hp.replaces ((hw.replaces_iff _).1 hd))
  | still => exact hd

/-- Where the first call is settled, so is the second one, unless its program still has to go on by
itself; then the task is ripe. -/
theorem settled_or_rest (h : ξ.Places π e w i d d') (hd : d.Settled) :
    d'.Settled ∨ e = .early ∧ d.Ripe ξ.id i ∧
      ∃ (R : Type) (wrap : Act W B V R → Doing W B V) (Q : R → Prop) (q : Act W B V R),
        Doing.Runs wrap ∧ d' = wrap q ∧ q.Discreet π.reach Q w ∧
          ∀ u r, Q r → ξ.Places π e u i d (wrap (.done r)) := by
  cases h.view with
  | @runs _ wrap _ _ Q _ q hw hp hgo hripe =>
    rcases hp.settled_or_rest ((hw.settled_iff _).1 hd) with hset | ⟨ho, he, r, rfl, hT, hq⟩
    · exact Or.inl ((hw.settled_iff _).2 hset)
    · exact Or.inr ⟨he, hripe ho r hT, _, wrap, Q r, q, hw, rfl, hq,
        fun u _ hr ↦ hgo u _ _ (.trails ho he (.done hr))⟩
  | still => exact Or.inl hd

/-- Where the first call is not about to replace the world, the second one is not, unless its
program goes on by itself. -/
theorem settled_or_calm (h : ξ.Places π e w i d d') (hd : ¬ d.Replaces) :
    d.Settled ∨ ¬ d'.Replaces := by
  cases h.view with
  | runs hw hp _ _ =>
    rw [hw.settled_iff, hw.replaces_iff]
    exact hp.settled_or_calm (mt (hw.replaces_iff _).2 hd)
  | still hd _ _ => exact Or.inl hd

end Places

/-! ### Calls -/

/-- **Two calls run the same task to completion**, in step. -/
structure Pair (ξ : Exchange W B V S) (π : Scope W B) (e : Era) (w : W) (c c' : Call W B V) :
    Prop where
  /-- The task is the same. -/
  id : c'.id = c.id
  /-- What they hold is left of the task, or they hold nothing. -/
  held : Option.Rel (ξ.Spent π c.id) c.held c'.held
  /-- Both have a value, or none has. -/
  slot : Option.Rel (ξ.Value c.id) c.slot c'.slot
  /-- They are at the same place. -/
  doing : ξ.Places π e w c.id c.doing c'.doing

/-- **Two stacks of calls**: those that run the task that differs, with the same calls above them
and the same number of calls below, in step. -/
inductive Calls (ξ : Exchange W B V S) (π : Scope W B) (e : Era) (n : Nat) :
    W → List (Call W B V) → List (Call W B V) → Prop
  /-- The calls that run the task that differs. -/
  | top {w c c' rest} (hi : c.id = ξ.id) (hc : ξ.Pair π e w c c') (hrest : ∀ d ∈ rest, d.id ≠ ξ.id)
      (hn : rest.length = n) : Calls ξ π e n w (c :: rest) (c' :: rest)
  /-- Calls above them. Those below are at requests, so the world does not matter to them. -/
  | cons {w c c' rest rest'} (hi : c.id ≠ ξ.id) (hc : ξ.Pair π e w c c')
      (hr : ∀ u, Calls ξ π e n u rest rest') : Calls ξ π e n w (c :: rest) (c' :: rest')

/-- Two calls of which neither polls the own task do not change with the era. -/
theorem Pair.late {c c' : Call W B V} (h : ξ.Pair π e w c c')
    (hp : ∀ inPlace, c.polls? ≠ some (ξ.id, inPlace)) : ξ.Pair π .late w c c' := by
  refine ⟨h.id, h.held, h.slot, ?_⟩
  have hplaces := h.doing
  generalize hd : c.doing = d, hd' : c'.doing = d' at hplaces
  cases hplaces with
  | first hq =>
    have hi : c.id ≠ ξ.id := fun hi ↦ hp true (by rw [Call.polls?_first hd, hi])
    exact .first (hq.late hi fun _ _ hr ↦ hr.late hi)
  | @poll j _ _ hq =>
    have hj : j ≠ ξ.id := fun hj ↦ hp false (by rw [Call.polls?_poll hd, hj])
    exact .poll (hq.late hj fun _ _ hr ↦ hr.late hj)
  | announce hq => exact .announce (hq.late not_false fun _ _ hr ↦ hr)
  | asleep hq => exact .asleep (hq.late not_false fun _ _ hr ↦ hr)
  | pop => exact .pop
  | check => exact .check
  | park => exact .park

namespace Calls

variable {c c' : Call W B V} {calls calls' rest rest' : List (Call W B V)} {d d' : Doing W B V}

theorem exists_pair (h : ξ.Calls π e n w calls calls') :
    ∃ c rest c' rest', calls = c :: rest ∧ calls' = c' :: rest' ∧ ξ.Pair π e w c c' := by
  cases h with
  | top _ hc => exact ⟨_, _, _, _, rfl, rfl, hc⟩
  | cons _ hc => exact ⟨_, _, _, _, rfl, rfl, hc⟩

/-- The active call on the second side is at the place of that on the first side. -/
theorem exists_right (h : ξ.Calls π e n w calls calls') (hc : c ∈ calls.head?) :
    ∃ c' ∈ calls'.head?, ξ.Pair π e w c c' := by
  obtain ⟨_, _, c', _, rfl, rfl, hpair⟩ := h.exists_pair
  obtain rfl := Option.mem_some.1 hc
  exact ⟨c', rfl, hpair⟩

theorem pair (h : ξ.Calls π e n w (c :: rest) (c' :: rest')) : ξ.Pair π e w c c' := by
  cases h with
  | top _ hc => exact hc
  | cons _ hc => exact hc

theorem lt_length (h : ξ.Calls π e n w calls calls') : n < calls.length ∧ n < calls'.length := by
  induction h with
  | top _ _ _ hn => simp [hn]
  | @cons w _ _ _ _ _ _ _ ih =>
    obtain ⟨hlt, hlt'⟩ := ih w
    exact ⟨Nat.lt_succ_of_lt hlt, Nat.lt_succ_of_lt hlt'⟩

/-- The active calls change in step. -/
theorem change (h : ξ.Calls π e n w (c :: rest) (c' :: rest')) {d d' : Call W B V}
    (hid : d.id = c.id) (hd : ξ.Pair π e u d d') : ξ.Calls π e n u (d :: rest) (d' :: rest') := by
  cases h with
  | top hi _ hrest hn => exact .top (hid.trans hi) hd hrest hn
  | cons hi _ hr => exact .cons (hid ▸ hi) hd hr

/-- The active calls go on to the same place. -/
theorem head (h : ξ.Calls π e n w (c :: rest) (c' :: rest')) (hd : ξ.Places π e u c.id d d') :
    ξ.Calls π e n u ({ c with doing := d } :: rest) ({ c' with doing := d' } :: rest') :=
  h.change rfl ⟨h.pair.id, h.pair.held, h.pair.slot, hd⟩

/-- Calls of which none polls the own task do not change with the era. -/
theorem late (h : ξ.Calls π e n w calls calls')
    (hp : ∀ c ∈ calls, ∀ inPlace, c.polls? ≠ some (ξ.id, inPlace)) :
    ξ.Calls π .late n w calls calls' := by
  induction h with
  | top hi hc hrest hn => exact .top hi (hc.late (hp _ List.mem_cons_self)) hrest hn
  | cons hi hc _ ih =>
    obtain ⟨hhead, htail⟩ := List.forall_mem_cons.1 hp
    exact .cons hi (hc.late hhead) fun u ↦ ih u htail

/-- What the active call on the second side runs if the one on the first side runs a program, and
that both may go on with programs that go on side by side. -/
theorem of_runs {wrap : Act W B V R → Doing W B V} (hw : Doing.Runs wrap) {p : Act W B V R}
    (h : ξ.Calls π e n w (c :: rest) calls') (hd : c.doing = wrap p) :
    ∃ (c' : Call W B V) (rest' : List (Call W B V)) (own : Prop) (T : R → Prop)
      (Q : R → R → Prop) (q : Act W B V R),
      calls' = c' :: rest' ∧ c'.doing = wrap q ∧ π.Abreast own e T Q w p q ∧
        ∀ u p₁ q₁, π.Abreast own e T Q u p₁ q₁ →
          ξ.Calls π e n u ({ c with doing := wrap p₁ } :: rest)
            ({ c' with doing := wrap q₁ } :: rest') := by
  obtain ⟨_, _, c', rest', he, rfl, hpair⟩ := h.exists_pair
  obtain ⟨rfl, rfl⟩ := List.cons.inj he
  obtain ⟨own, T, Q, q, hd', hq, hwrap⟩ := Places.of_runs hw (hd ▸ hpair.doing)
  exact ⟨c', rest', own, T, Q, q, rfl, hd', hq, fun u p₁ q₁ ht ↦ h.head (hwrap u p₁ q₁ ht)⟩

/-- Slots are filled. -/
theorem fill {v v' : V} (h : ξ.Calls π e n w calls calls') (hv : ξ.Value i v v') :
    ξ.Calls π e n w (Machine.fill i v calls) (Machine.fill i v' calls') := by
  have hpair {w : W} {c c' : Call W B V} (hc : ξ.Pair π e w c c') :
      ξ.Pair π e w (c.filled i v) (c'.filled i v') := by
    obtain ⟨id, held, slot, doing⟩ := c
    obtain ⟨id', held', slot', doing'⟩ := c'
    obtain ⟨rfl, hheld, hslot, hdoing⟩ := hc
    by_cases hid : id' = i
    · rw [Call.filled, if_pos hid, Call.filled, if_pos hid]
      exact ⟨rfl, hheld, .some (hid ▸ hv), hdoing⟩
    · rw [Call.filled, if_neg hid, Call.filled, if_neg hid]
      exact ⟨rfl, hheld, hslot, hdoing⟩
  have hid (c : Call W B V) : (c.filled i v).id = c.id := (c.filled_spec i v).1
  rw [Machine.fill_eq_map, Machine.fill_eq_map]
  induction h with
  | @top w c c' rest hi hc hrest hn =>
    -- The calls below belong to other tasks, so they are filled with the same value, if at all.
    have hsame : rest.map (Call.filled i v') = rest.map (Call.filled i v) := by
      by_cases hi : i = ξ.id
      · subst hi
        rw [Call.map_filled_of_ne hrest, Call.map_filled_of_ne hrest]
      · rw [(value_of_ne hi).1 hv]
    rw [List.map_cons, List.map_cons, hsame]
    refine .top ((hid c).trans hi) (hpair hc) (fun d hd ↦ ?_) ?_
    · obtain ⟨e, he, rfl⟩ := List.mem_map.1 hd
      exact fun h ↦ hrest e he ((hid e).symm.trans h)
    · rw [List.length_map, hn]
  | @cons w c c' rest rest' hi hc hr ih =>
    exact .cons (fun h ↦ hi ((hid c).symm.trans h)) (hpair hc) ih

end Calls

/-! ### Machines -/

/-- **Both runs have come to their ends**: both have failed with the same failure, or both have
returned, the second one a value that the continuation gives for that of the first one. The calls
below are the same, and go on with these results. -/
inductive Returned (ξ : Exchange W B V S) (n : Nat) (m m' : Machine W B V) : Prop
  /-- The results, and the calls below. -/
  | mk {rest r r'} (hn : rest.length = n) (hr : ξ.Outcome ξ.id r r')
      (hc : m.calls = Machine.resumed r rest) (hc' : m'.calls = Machine.resumed r' rest)
      (ho : rest = [] → m.outcome = some r ∧ m'.outcome = some r')

/-- **How the worlds of the two sides are related**, given the machine on the first side. -/
inductive Span (ξ : Exchange W B V S) (π : Scope W B) (e : Era) (m : Machine W B V) :
    Setoid W → Prop
  /-- As in the era. -/
  | running : Span ξ π e m (π.world e)
  /-- The future has become ready. The continuation may have begun, and the future may have been
  destroyed on the second side. -/
  | ripe (he : e = .early) (hm : m.Ripe ξ.id) : Span ξ π e m π.reach

/-- **Two machines are in step**, or both runs have come to their ends. -/
inductive Machines (ξ : Exchange W B V S) (π : Scope W B) (e : Era) (n : Nat)
    (m m' : Machine W B V) : Prop
  /-- Both runs go on. -/
  | going {ρ} (hρ : ξ.Span π e m ρ) (hs : ξ.Sites π e ρ m.site m'.site)
      (hc : ξ.Calls π e n m'.site.world m.calls m'.calls)
  /-- Both runs have come to their ends. -/
  | returned (hs : ξ.Sites π e π.reach m.site m'.site) (hr : ξ.Returned n m m')

/-- **Two machines are torn**: they are in step but for their worlds, in which they are about to
pop. -/
structure Torn (ξ : Exchange W B V S) (π : Scope W B) (n : Nat) (m m' : Machine W B V) : Prop where
  /-- The sites. -/
  sites : ξ.Sites π .late π.reach m.site m'.site
  /-- The calls, whatever the world is. -/
  calls : ∀ w, ξ.Calls π .late n w m.calls m'.calls
  /-- The active call is about to pop. -/
  pop : ∀ c ∈ m.calls.head?, c.doing = .pop

theorem Span.le_reach {m : Machine W B V} {ρ : Setoid W} (h : ξ.Span π e m ρ) : ρ ≤ π.reach := by
  cases h with
  | running => exact π.bot_world e
  | ripe => exact le_rfl

theorem Machines.sites {m m' : Machine W B V} (h : ξ.Machines π e n m m') :
    ξ.Sites π e π.reach m.site m'.site := by
  cases h with
  | going hρ hs _ => exact hs.mono hρ.le_reach
  | returned hs _ => exact hs

theorem Machines.running {m m' : Machine W B V} (hs : ξ.Sites π e (π.world e) m.site m'.site)
    (hc : ξ.Calls π e n m'.site.world m.calls m'.calls) : ξ.Machines π e n m m' :=
  .going .running hs hc

/-- The poll of the task has ended with a value, in place or by the loop. -/
inductive Resolves (id : TaskId) : List (Note V) → Prop
  /-- The task has been polled in place. -/
  | inPlace {r} (hr : ∃ v, r = .ok (.ready v)) : Resolves id [.ended id true r]
  /-- The task has been polled by the loop, and is destroyed. -/
  | popped {r} (hr : ∃ v, r = .ok (.ready v)) : Resolves id [.ended id false r, .destroyed id]

/-- Two steps are in step: they tell the same, and lead to machines that are in step. -/
def Onward (ξ : Exchange W B V S) (π : Scope W B) (e : Era) (n : Nat)
    (r r' : List (Note V) × Machine W B V) : Prop :=
  ξ.Tells r.1 r'.1 ∧ ξ.Machines π e n r.2 r'.2

/-- **Two steps are in step**, or they end the poll in which the future has become ready. -/
inductive Steps (ξ : Exchange W B V S) (π : Scope W B) (e : Era) (n : Nat)
    (r r' : List (Note V) × Machine W B V) : Prop
  /-- They are in step. -/
  | on (h : ξ.Onward π e n r r')
  /-- They end that poll. -/
  | torn (he : e = .early) (hk : ξ.Tells r.1 r'.1) (hr : Resolves ξ.id r.1)
      (h : ξ.Torn π n r.2 r'.2)

theorem Onward.prepend {r r' : List (Note V) × Machine W B V} {k k' : List (Note V)}
    (h : ξ.Onward π e n r r') (hk : ξ.Tells k k') :
    ξ.Onward π e n (k ++ r.1, r.2) (k' ++ r'.1, r'.2) :=
  ⟨hk.append h.1, h.2⟩

section Loop

variable {site site' : Site W B} {c c' : Call W B V} {rest rest' calls calls' : List (Call W B V)}
  {b : B}

/-- The same run to completion begins above calls that are in step. -/
theorem enter (hξ : ξ.Fits π β σ) (hs : ξ.Sites π e (π.world e) site site')
    (hi : site.executor.nextId ≠ ξ.id) (hc : ∀ u, ξ.Calls π e n u calls calls')
    (hb : π.others b) :
    ξ.Onward π e n (Machine.enter β site calls b) (Machine.enter β site' calls' b) := by
  obtain @⟨x, tasks, s, w, w', ht, hw⟩ := hs
  refine ⟨.cons (.same trivial) (.cons (.same trivial) .nil), .running ?_ ?_⟩
  · exact .mk (x := { x with nextId := x.nextId + 1 }) ht hw
  · exact .cons hi ⟨rfl, .none, .none, .first (Fellow.poll hξ (.other hi hb) _ _)⟩ hc

/-- The calls that run the task end, and so do both runs. -/
theorem leave_own (hξ : ξ.Fits π β σ) (hs : ξ.Sites π e π.reach site site')
    (hc : ξ.Calls π e n w (c :: rest) (c' :: rest')) (hi : c.id = ξ.id)
    {r r' : Except Failure (Option V)} (hr : ξ.Outcome c.id r r') :
    ξ.Onward π e n (Machine.leave β site c rest r) (Machine.leave β site' c' rest' r') := by
  obtain ⟨id, held, slot, doing⟩ := c
  obtain ⟨id', held', slot', doing'⟩ := c'
  obtain rfl : id' = id := hc.pair.id
  obtain rfl : id' = ξ.id := hi
  obtain ⟨hk, hsite⟩ := hs.release (V := V) (β := β) hc.pair.held
    (fun _ _ hb _ _ ↦ hb.drop hξ rfl) ξ.id
  refine ⟨hk.append (.cons (.returned hr) .nil), ?_⟩
  cases hc with
  | cons hi => exact absurd rfl hi
  | top _ _ _ hn =>
    cases rest with
    | nil => exact .returned hsite (.mk hn hr rfl rfl fun _ ↦ ⟨rfl, rfl⟩)
    | cons d rest =>
      exact .returned hsite (.mk hn hr rfl rfl fun h ↦ absurd h (List.cons_ne_nil _ _))

/-- Calls end. -/
theorem leave (hξ : ξ.Fits π β σ) (hs : ξ.Sites π e (π.world e) site site')
    (hc : ξ.Calls π e n w (c :: rest) (c' :: rest')) {r r' : Except Failure (Option V)}
    (hr : ξ.Outcome c.id r r') :
    ξ.Onward π e n (Machine.leave β site c rest r) (Machine.leave β site' c' rest' r') := by
  by_cases hi : c.id = ξ.id
  · exact leave_own hξ (hs.mono (π.bot_world e)) hc hi hr
  obtain ⟨id, held, slot, doing⟩ := c
  obtain ⟨id', held', slot', doing'⟩ := c'
  obtain rfl : id' = id := hc.pair.id
  obtain ⟨hk, hsite⟩ := hs.release (V := V) (β := β) hc.pair.held
    (fun _ _ hb _ _ ↦ (hb.fellow hi).drop hξ) id'
  refine ⟨hk.append (.cons (.returned hr) .nil), ?_⟩
  cases hc with
  | top hi' => exact absurd hi' hi
  | cons _ _ hbelow =>
    obtain rfl := hr.eq_of_ne hi
    obtain ⟨d, rest, d', rest', rfl, rfl, -⟩ := (hbelow w).exists_pair
    exact .running hsite ((hbelow w).head ((hbelow _).pair.doing.resume _))

/-- Polls in place end, but for the one in which the future has become ready. -/
theorem afterFirst (hξ : ξ.Fits π β σ) (hs : ξ.Sites π e (π.world e) site site')
    (hc : ξ.Calls π e n w (c :: rest) (c' :: rest')) {r r' : Polled V × B}
    (hr : ξ.Ends π e c.id r r') (hready : c.id = ξ.id → ¬ IsReady r) :
    ξ.Onward π e n (Machine.afterFirst β site c rest r.2 r.1)
      (Machine.afterFirst β site' c' rest' r'.2 r'.1) := by
  obtain ⟨id, held, slot, doing⟩ := c
  obtain ⟨id', held', slot', doing'⟩ := c'
  obtain rfl : id' = id := hc.pair.id
  cases hr with
  | failed x hb =>
    obtain ⟨hk, hsite⟩ := hs.destroy (V := V) (fun _ _ ↦ hb.drop hξ) id'
    exact (leave hξ hsite hc (.failed x)).prepend hk
  | pending hb =>
    obtain ⟨hk, hsite⟩ := hs.enqueue (V := V) hξ hb
    exact ⟨hk, .running hsite (hc.head .pop)⟩
  | @ready v v' b b' hv hb =>
    have hcalls (u : W) : ξ.Calls π e n u (⟨id', some b, some v, .pop⟩ :: rest)
        (⟨id', some b', some v', .pop⟩ :: rest') :=
      hc.change rfl ⟨rfl, .some hb, .some hv, .pop⟩
    simp only [Machine.afterFirst, hs.tasks.isEmpty]
    split
    · exact leave hξ hs (hcalls w) (.returned (.some hv))
    · exact ⟨.nil, .running hs (hcalls _)⟩

/-- Polls by the loops end, but for the one in which the future has become ready. -/
theorem afterPoll (hξ : ξ.Fits π β σ) (hs : ξ.Sites π e (π.world e) site site')
    (hc : ξ.Calls π e n w (c :: rest) (c' :: rest')) {r r' : Polled V × B}
    (hr : ξ.Ends π e i r r') (hready : i = ξ.id → ¬ IsReady r) :
    ξ.Onward π e n (Machine.afterPoll β site c rest i r.2 r.1)
      (Machine.afterPoll β site' c' rest' i r'.2 r'.1) := by
  cases hr with
  | failed x hb =>
    obtain ⟨hk, hsite⟩ := hs.destroy (V := V) (fun _ _ ↦ hb.drop hξ) i
    exact (leave hξ hsite hc (.failed x)).prepend hk
  | pending hb =>
    obtain ⟨hk, hsite⟩ := hs.insert (V := V) hξ hb
    exact ⟨hk, .running hsite (hc.head .pop)⟩
  | ready hv hb =>
    have hi : i ≠ ξ.id := fun hi ↦ hready hi ⟨_, rfl⟩
    obtain ⟨hk, hsite⟩ := hs.destroy (V := V) (fun _ _ ↦ (hb.fellow hi).drop hξ) i
    exact ⟨hk, .running hsite ((hc.head .pop).fill hv)⟩

/-- **The future has become ready in place.** -/
theorem finishFirst (hξ : ξ.Fits π β σ) (hs : ξ.Sites π .early π.reach site site')
    (hc : ξ.Calls π .early n w (c :: rest) (c' :: rest')) (hi : c.id = ξ.id)
    (htable : ¬ site.executor.tasks.contains ξ.id = true) {r r' : Polled V × B}
    (hr : ξ.Ends π .early c.id r r') (hready : IsReady r) :
    ξ.Steps π .early n
      (.ended c.id true r.1 :: (Machine.afterFirst β site c rest r.2 r.1).1,
        (Machine.afterFirst β site c rest r.2 r.1).2)
      (.ended c'.id true r'.1 :: (Machine.afterFirst β site' c' rest' r'.2 r'.1).1,
        (Machine.afterFirst β site' c' rest' r'.2 r'.1).2) := by
  obtain ⟨id, held, slot, doing⟩ := c
  obtain ⟨id', held', slot', doing'⟩ := c'
  obtain rfl : id' = id := hc.pair.id
  obtain rfl : id' = ξ.id := hi
  have hended : ξ.Tells [.ended ξ.id true r.1] [.ended ξ.id true r'.1] :=
    .cons (.ended hr.result) .nil
  cases hr with
  | failed =>
    obtain ⟨v, hv⟩ := hready
    cases hv
  | pending =>
    obtain ⟨v, hv⟩ := hready
    cases hv
  | @ready v v' b b' hv hb =>
    simp only [Machine.afterFirst, hs.tasks.isEmpty]
    split
    · have hcalls : ξ.Calls π .early n w (⟨ξ.id, some b, some v, .pop⟩ :: rest)
          (⟨ξ.id, some b', some v', .pop⟩ :: rest') :=
        hc.change rfl ⟨rfl, .some hb, .some hv, .pop⟩
      exact .on ((leave_own hξ hs hcalls rfl (.returned (.some hv))).prepend hended)
    · refine .torn rfl hended (.inPlace ⟨v, rfl⟩) ⟨hs.late htable, fun u ↦ ?_, ?_⟩
      · cases hc with
        | cons hi => exact absurd rfl hi
        | top hi _ hrest hn => exact .top hi ⟨rfl, .some hb, .some hv, .pop⟩ hrest hn
      · rintro d hd
        obtain rfl := Option.mem_some.1 hd
        rfl

/-- **The future has become ready in a poll by the loop.** -/
theorem finishPoll (hξ : ξ.Fits π β σ) (hs : ξ.Sites π .early π.reach site site')
    (hc : ξ.Calls π .early n w (c :: rest) (c' :: rest'))
    (htable : ¬ site.executor.tasks.contains ξ.id = true)
    (honce : ∀ d ∈ rest, ∀ inPlace, d.polls? ≠ some (ξ.id, inPlace)) {r r' : Polled V × B}
    (hr : ξ.Ends π .early ξ.id r r') (hready : IsReady r) :
    ξ.Steps π .early n
      (.ended ξ.id false r.1 :: (Machine.afterPoll β site c rest ξ.id r.2 r.1).1,
        (Machine.afterPoll β site c rest ξ.id r.2 r.1).2)
      (.ended ξ.id false r'.1 :: (Machine.afterPoll β site' c' rest' ξ.id r'.2 r'.1).1,
        (Machine.afterPoll β site' c' rest' ξ.id r'.2 r'.1).2) := by
  have hended : ξ.Tells [.ended ξ.id false r.1] [.ended ξ.id false r'.1] :=
    .cons (.ended hr.result) .nil
  cases hr with
  | failed =>
    obtain ⟨v, hv⟩ := hready
    cases hv
  | pending =>
    obtain ⟨v, hv⟩ := hready
    cases hv
  | @ready v v' b b' hv hb =>
    obtain ⟨hk, hsite⟩ := hs.destroy (V := V) (fun _ _ ↦ hb.drop hξ rfl) ξ.id
    refine .torn rfl (hended.append hk) (.popped ⟨v, rfl⟩) ⟨hsite.late htable, fun u ↦ ?_, ?_⟩
    · have hpop : ξ.Calls π .early n u ({ c with doing := .pop } :: rest)
          ({ c' with doing := .pop } :: rest') := hc.head .pop
      refine Calls.fill (hpop.late ?_) hv
      exact List.forall_mem_cons.2 ⟨nofun, honce⟩
    · rintro d hd
      obtain rfl := Option.mem_some.1 hd
      dsimp only
      split <;> rfl

/-- Parkings are counted. -/
theorem countPark (hξ : ξ.Fits π β σ) (hs : ξ.Sites π e (π.world e) site site')
    (hc : ξ.Calls π e n w (c :: rest) (c' :: rest')) :
    ξ.Onward π e n (Machine.countPark σ site c rest) (Machine.countPark σ site' c' rest') := by
  have hasleep := hξ.surroundings.asleep
  refine ⟨.cons (.same trivial) .nil,
    .running ?_ (hc.head (.asleep (.alike not_false (fun _ ↦ rfl) hasleep)))⟩
  obtain @⟨x, _, _, _, _, ht, hw⟩ := hs
  exact .mk (x := { x with parks := x.parks + 1 }) ht hw

/-- Ids are popped. -/
theorem stepPop (hξ : ξ.Fits π β σ) (hs : ξ.Sites π e (π.world e) site site')
    (hc : ξ.Calls π e n w (c :: rest) (c' :: rest')) (hd : c.doing = .pop) (hd' : c'.doing = .pop) :
    ξ.Onward π e n (Machine.stepPop β site c rest) (Machine.stepPop β site' c' rest') := by
  obtain @⟨x, tasks, s, w₀, w₀', ht, hw⟩ := hs
  unfold Machine.stepPop
  dsimp only
  cases s.pop? x.queue with
  | none => exact ⟨.nil, .running (.mk ht hw) (hc.head .check)⟩
  | some r =>
    obtain ⟨id, s₁⟩ := r
    dsimp only
    have hget := ht.get? id
    generalize x.tasks.get? id = o, tasks.get? id = o' at hget
    cases hget with
    | none =>
      refine ⟨.cons (.same trivial) .nil, .running ?_ ?_⟩
      · exact .mk (x := { x with stale := x.stale + 1 }) ht hw
      · exact hc.change rfl ⟨hc.pair.id, hc.pair.held, hc.pair.slot, by rw [hd, hd']; exact .pop⟩
    | some hb =>
      refine ⟨.cons (.same trivial) .nil, .running ?_ (hc.head (.poll (hb.poll hξ _ _)))⟩
      exact .mk (x := { x with tasks := x.tasks.erase id, polls := x.polls + 1 }) (ht.erase id) hw

/-- The loops decide whether to stop, to park or to go on. -/
theorem stepCheck (hξ : ξ.Fits π β σ) (hs : ξ.Sites π e (π.world e) site site')
    (hc : ξ.Calls π e n w (c :: rest) (c' :: rest')) :
    ξ.Onward π e n (Machine.stepCheck β σ site c rest)
      (Machine.stepCheck β σ site' c' rest') := by
  obtain @⟨x, tasks, s, w₀, w₀', ht, hw⟩ := hs
  have hs : ξ.Sites π e (π.world e) ⟨x, s, w₀⟩ ⟨{ x with tasks }, s, w₀'⟩ := .mk ht hw
  have hannounce := hξ.surroundings.announce x.tasks.size
  simp only [Machine.stepCheck, ht.isEmpty, ht.size]
  split
  · refine leave hξ (.mk ht (Scope.world_of (fun he ↦ ?_) ?_)) hc (.returned hc.pair.slot)
    · subst he
      exact congrArg σ.finished (show w₀ = w₀' from hw).symm
    · exact hξ.surroundings.finished _ _ (Scope.unseen_of hw)
  split
  · split
    · exact ⟨.nil, .running hs (hc.head (.announce (.alike not_false (fun _ ↦ rfl) hannounce)))⟩
    · exact countPark hξ hs hc
  · exact ⟨.nil, .running hs (hc.head .pop)⟩

/-- Programs have ended, or run a task to completion. -/
theorem stepAct (hξ : ξ.Fits π β σ) (hs : ξ.Sites π e (π.world e) site site')
    (hi : site.executor.nextId ≠ ξ.id) {own : Prop} {T : R → Prop} {Q : R → R → Prop}
    {p p' : Act W B V R} (hp : π.Abreast own e T Q w p p') (hset : p.Settled) (hset' : p'.Settled)
    {wait : Act W B V R → Doing W B V}
    {after after' : Site W B → R → List (Note V) × Machine W B V}
    (hwait : ∀ u q q', π.Abreast own e T Q u q q' →
      ξ.Calls π e n u ({ c with doing := wait q } :: rest) ({ c' with doing := wait q' } :: rest'))
    (hafter : ∀ r r', (own → e = .early) → Q r r' →
      ξ.Steps π e n (after site r) (after' site' r')) :
    ξ.Steps π e n (Machine.stepAct β site c rest p wait after)
      (Machine.stepAct β site' c' rest' p' wait after') := by
  cases hp with
  | alike ho he h =>
    cases h with
    | done hr => exact hafter _ _ (fun ho' ↦ absurd ho' ho) hr
    | blockOn hb hk =>
      obtain ⟨rfl, hb⟩ := hb
      exact .on (enter hξ hs hi (fun u ↦ hwait u _ _ (.alike ho he (.blockOn ⟨rfl, hb⟩ hk))) hb)
    | _ => exact hset.elim
  | trails ho he h =>
    cases h with
    | done hr => exact hafter _ _ (fun _ ↦ he) hr
    | rest _ h =>
      obtain ⟨r', rfl, hr⟩ := h.of_settled hset'
      exact hafter _ _ (fun _ ↦ he) hr
    | blockOn hb hk =>
      exact .on (enter hξ hs hi (fun u ↦ hwait u _ _ (.trails ho he (.blockOn hb hk))) hb)
    | _ => exact hset.elim

/-- **Active calls go on in step** from settled positions, with the worlds of the era: either both
machines make a step, or both sleep. -/
theorem step?_running (hξ : ξ.Fits π β σ) {m m' : Machine W B V}
    (hs : ξ.Sites π e (π.world e) m.site m'.site)
    (hc : ξ.Calls π e n m'.site.world m.calls m'.calls) (hi : m.site.executor.nextId ≠ ξ.id)
    (honce : m.Once ξ.id) (hset : ∀ c ∈ m.calls.head?, c.doing.Settled)
    (hset' : ∀ c ∈ m'.calls.head?, c.doing.Settled) :
    Option.Rel (ξ.Steps π e n) (m.step? β σ) (m'.step? β σ) := by
  obtain ⟨site, calls, o⟩ := m
  obtain ⟨site', calls', o'⟩ := m'
  dsimp only at hs hc hi
  obtain ⟨c, rest, c', rest', rfl, rfl, hpair⟩ := hc.exists_pair
  have hset : c.doing.Settled := hset c rfl
  have hset' : c'.doing.Settled := hset' c' rfl
  have hplaces := hpair.doing
  simp only [Machine.step?]
  generalize hd : c.doing = d, hd' : c'.doing = d' at hset hset' hplaces
  cases hplaces with
  | first hp =>
    refine .some (stepAct hξ hs hi hp hset hset' (fun u q q' hq ↦ hc.head (.first hq)) ?_)
    rintro r r' he hr
    by_cases hready : c.id = ξ.id ∧ IsReady r
    · obtain rfl := he hready.1
      obtain ⟨htable, -⟩ := honce.of_polls? rfl (hready.1 ▸ Call.polls?_first hd)
      exact finishFirst hξ (hs.mono bot_le) hc hready.1 htable hr hready.2
    · have hended : ξ.Tells [.ended c.id true r.1] [.ended c'.id true r'.1] := by
        rw [hpair.id]
        exact .cons (.ended hr.result) .nil
      exact .on ((afterFirst hξ hs hc hr fun hi h ↦ hready ⟨hi, h⟩).prepend hended)
  | pop => exact .some (.on (stepPop hξ hs hc hd hd'))
  | @poll j _ _ hp =>
    refine .some (stepAct hξ hs hi hp hset hset' (fun u q q' hq ↦ hc.head (.poll hq)) ?_)
    rintro r r' he hr
    by_cases hready : j = ξ.id ∧ IsReady r
    · obtain ⟨rfl, hready⟩ := hready
      obtain rfl := he rfl
      obtain ⟨htable, hrest⟩ := honce.of_polls? rfl (Call.polls?_poll hd)
      exact finishPoll hξ (hs.mono bot_le) hc htable hrest hr hready
    · exact .on ((afterPoll hξ hs hc hr fun hi h ↦ hready ⟨hi, h⟩).prepend
        (.cons (.ended hr.result) .nil))
  | check => exact .some (.on (stepCheck hξ hs hc))
  | announce hp =>
    refine .some (stepAct hξ hs hi hp hset hset' (fun u q q' hq ↦ hc.head (.announce hq)) ?_)
    rintro (x | _) _ - rfl
    · exact .on (leave hξ hs hc (.failed x))
    · exact .on (countPark hξ hs hc)
  | asleep hp =>
    refine .some (stepAct hξ hs hi hp hset hset' (fun u q q' hq ↦ hc.head (.asleep hq)) ?_)
    rintro _ _ - -
    exact .on ⟨.nil, .running hs (hc.head .park)⟩
  | park =>
    rw [hs.signals, hs.parker]
    cases hpark : site.signals.park? site.executor.parker with
    | none => exact .none
    | some u => exact .some (.on ⟨.nil, .running (hs.onSignals fun _ ↦ u) (hc.head .pop)⟩)

/-- **The poll ends in which the future has become ready**, whatever the worlds are. -/
theorem step?_ripe (hξ : ξ.Fits π β σ) {m m' : Machine W B V} (hm : m.Ripe ξ.id)
    (hs : ξ.Sites π .early π.reach m.site m'.site)
    (hc : ξ.Calls π .early n m'.site.world m.calls m'.calls) (honce : m.Once ξ.id)
    (hset' : ∀ c ∈ m'.calls.head?, c.doing.Settled) :
    Option.Rel (ξ.Steps π .early n) (m.step? β σ) (m'.step? β σ) := by
  obtain ⟨site, calls, o⟩ := m
  obtain ⟨site', calls', o'⟩ := m'
  dsimp only at hs hc
  obtain ⟨c, rest, c', rest', rfl, rfl, hpair⟩ := hc.exists_pair
  obtain ⟨d, hd, hripe⟩ := hm
  obtain rfl := Option.mem_some.1 hd
  have hset' : c'.doing.Settled := hset' c' rfl
  have hplaces := hpair.doing
  simp only [Machine.step?]
  generalize hd : c.doing = d, hd' : c'.doing = d' at hripe hset' hplaces
  cases hripe with
  | @first v b hi =>
    cases hplaces with
    | first hp =>
      obtain ⟨r', rfl, hr⟩ := hp.of_done hi hset'
      obtain ⟨htable, -⟩ := honce.of_polls? rfl (hi ▸ Call.polls?_first hd)
      exact .some (finishFirst hξ hs hc hi htable hr ⟨v, rfl⟩)
  | @poll v b =>
    cases hplaces with
    | poll hp =>
      obtain ⟨r', rfl, hr⟩ := hp.of_done rfl hset'
      obtain ⟨htable, hrest⟩ := honce.of_polls? rfl (Call.polls?_poll hd)
      exact .some (finishPoll hξ hs hc htable hrest hr ⟨v, rfl⟩)

/-- **Active calls go on in step** from settled positions: either both machines make a step, or
both sleep. -/
theorem step? (hξ : ξ.Fits π β σ) {m m' : Machine W B V} {ρ : Setoid W} (hρ : ξ.Span π e m ρ)
    (hs : ξ.Sites π e ρ m.site m'.site) (hc : ξ.Calls π e n m'.site.world m.calls m'.calls)
    (hi : m.site.executor.nextId ≠ ξ.id) (honce : m.Once ξ.id)
    (hset : ∀ c ∈ m.calls.head?, c.doing.Settled) (hset' : ∀ c ∈ m'.calls.head?, c.doing.Settled) :
    Option.Rel (ξ.Steps π e n) (m.step? β σ) (m'.step? β σ) := by
  cases hρ with
  | running => exact step?_running hξ hs hc hi honce hset hset'
  | ripe he hm =>
    subst he
    exact step?_ripe hξ hm hs hc honce hset'

end Loop

end Exchange

end TaskRuntime
