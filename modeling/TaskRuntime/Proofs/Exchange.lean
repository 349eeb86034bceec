import TaskRuntime.Proofs.Trailing

/-!
# A future and a chain in one place

Two sites differ in one task: where the one has a future, the other has the chain of that future
with a continuation. An `Exchange` says which task it is. All other tasks are the same, and so are
the ids, the order of the tables, the signals and all figures (`Exchange.Sites`).

## What is assumed

`Exchange.Sound` collects it: the behaviour of the executor runs the future and the chain as tasks,
and the continuation makes no request of the executor and does not fail. The continuation may look
at the world and change it, in steps between which others act, and so may the destruction of the
future in one step. Nothing is assumed of what others make of these changes, nor of the polls of the
future.

## What others can tell

A `Scope` names the worlds between which the continuation and the destruction lead, and the worlds
that nobody else can tell apart, with the bodies that the other tasks may have. `Exchange.Fits` says
that this is so. It always is if the changes may lead anywhere and others may tell everything
(`Exchange.Sound.fits`). It is also if the changes lead between worlds that nobody else can tell
apart (`Exchange.Unseen.fits`).

## What differs

While the future may still be polled, both sides are in the same world, and the programs of the
other tasks are the same (`Exchange.Era`). The task itself is a future on the one side, and a chain
that has not come to its continuation on the other (`Exchange.Fellow`). Its poll by the second side
trails that by the first side (`Exchange.Fellow.poll`): when the future has become ready, the
continuation is still to run, and the future still to be destroyed.

After that poll, there is no such task any more. What is left of it if it was polled in place is a
future that is still to be destroyed, and a chain that has destroyed it (`Exchange.Spent`). The
chain has a value that the continuation gives for that of the future (`Exchange.Value`), and the
worlds are those that others cannot tell apart.
-/

namespace TaskRuntime

variable {W B V R S : Type}

/-! ### Tables with the same keys -/

namespace Table

variable {K A A' : Type} [DecidableEq K] {Q : K → A → A' → Prop} {t : Table K A} {t' : Table K A'}
  {v : A} {v' : A'}

/-- **Two tables have the same keys**, in the same order, and their values are related key by key.
-/
def Pairs (Q : K → A → A' → Prop) (t : Table K A) (t' : Table K A') : Prop :=
  List.Forall₂ (fun e e' ↦ e'.1 = e.1 ∧ Q e.1 e.2 e'.2) t.entries t'.entries

namespace Pairs

/-- A table is paired with itself if each of its values is. -/
theorem refl {Q : K → A → A → Prop} (h : ∀ k v, t.get? k = some v → Q k v v) : Pairs Q t t := by
  obtain ⟨entries, hd⟩ := t
  exact List.forall₂_same.2 fun e he ↦ ⟨rfl, h e.1 e.2 (find_of_mem hd he)⟩

omit [DecidableEq K] in
theorem imp {Q' : K → A → A' → Prop} (h : Pairs Q t t')
    (hQ : ∀ k ∈ t.keys, ∀ v v', Q k v v' → Q' k v v') : Pairs Q' t t' := by
  rw [Pairs] at h ⊢
  have hkeys : ∀ e ∈ t.entries, e.1 ∈ t.keys := fun e he ↦ List.mem_map_of_mem he
  generalize t.entries = l, t'.entries = l' at h hkeys
  induction h with
  | nil => exact .nil
  | @cons e e' _ _ he _ ih =>
    obtain ⟨hk, hrest⟩ := List.forall_mem_cons.1 hkeys
    exact .cons ⟨he.1, hQ _ hk _ _ he.2⟩ (ih hrest)

theorem get? (h : Pairs Q t t') (k : K) : Option.Rel (Q k) (t.get? k) (t'.get? k) := by
  rw [Pairs] at h
  show Option.Rel (Q k) (find k t.entries) (find k t'.entries)
  generalize t.entries = l, t'.entries = l' at h
  induction h with
  | nil => exact .none
  | @cons e e' _ _ he _ ih =>
    by_cases hk : e.1 = k
    · rw [find, if_pos hk, find, if_pos (he.1.trans hk)]
      exact .some (hk ▸ he.2)
    · rw [find, if_neg hk, find, if_neg (he.1 ▸ hk)]
      exact ih

theorem contains (h : Pairs Q t t') (k : K) : t'.contains k = t.contains k := by
  have hget := h.get? k
  rw [Table.contains, Table.contains]
  generalize t.get? k = o, t'.get? k = o' at hget
  cases hget <;> rfl

omit [DecidableEq K] in
theorem keys (h : Pairs Q t t') : t'.keys = t.keys := by
  rw [Pairs] at h
  show t'.entries.map Prod.fst = t.entries.map Prod.fst
  generalize t.entries = l, t'.entries = l' at h
  induction h with
  | nil => rfl
  | cons he _ ih => rw [List.map_cons, List.map_cons, ih, he.1]

omit [DecidableEq K] in
theorem size (h : Pairs Q t t') : t'.size = t.size := h.length_eq.symm

omit [DecidableEq K] in
theorem isEmpty (h : Pairs Q t t') : t'.isEmpty = t.isEmpty := by
  rw [Pairs] at h
  show t'.entries.isEmpty = t.entries.isEmpty
  generalize t.entries = l, t'.entries = l' at h
  cases h <;> rfl

theorem erase (h : Pairs Q t t') (k : K) : Pairs Q (t.erase k) (t'.erase k) := by
  rw [Pairs] at h
  show List.Forall₂ _ (without k t.entries) (without k t'.entries)
  generalize t.entries = l, t'.entries = l' at h
  induction h with
  | nil => exact .nil
  | @cons e e' _ _ he hrest ih =>
    by_cases hk : e.1 = k
    · rw [without, if_pos hk, without, if_pos (he.1.trans hk)]
      exact hrest
    · rw [without, if_neg hk, without, if_neg (he.1 ▸ hk)]
      exact .cons he ih

theorem insert (h : Pairs Q t t') (k : K) (hv : Q k v v') :
    Pairs Q (t.insert k v) (t'.insert k v') := by
  rw [Pairs] at h
  show List.Forall₂ _ (put k v t.entries) (put k v' t'.entries)
  generalize t.entries = l, t'.entries = l' at h
  induction h with
  | nil => exact .cons ⟨rfl, hv⟩ .nil
  | @cons e e' _ _ he hrest ih =>
    by_cases hk : e.1 = k
    · rw [put, if_pos hk, put, if_pos (he.1.trans hk)]
      exact .cons ⟨rfl, hv⟩ hrest
    · rw [put, if_neg hk, put, if_neg (he.1 ▸ hk)]
      exact .cons he ih

end Pairs

end Table

/-! ### Exchanges -/

/-- **A behaviour runs a future** in the bodies that hold its states. -/
structure Behaviour.Hosts (β : Behaviour W B V) (f : Future W B V S V) (wrap : S → B) : Prop where
  /-- The body is polled as the future is. -/
  poll : ∀ s x, β.poll (wrap s) x = (f.poll s x).bind fun r ↦ .done (r.1, wrap r.2)
  /-- The body is destroyed as the future is. -/
  drop : ∀ s, β.drop (wrap s) = f.drop s

/-- **A task that differs**: on the one side it is a future, on the other side the chain of the
future with a continuation. -/
structure Exchange (W B V S : Type) where
  /-- The id of the task. -/
  id : TaskId
  /-- The future. -/
  future : Future W B V S V
  /-- The continuation. -/
  next : V → Act W B V (Except Failure V)
  /-- The future as a body. -/
  plain : S → B
  /-- The chain as a body. -/
  chained : Option S → B

namespace Exchange

/-- **The continuation does not touch the executor, and does not fail.** Destroying a future never
touches the executor: it is a change of the world. -/
structure Sound (ξ : Exchange W B V S) (β : Behaviour W B V) : Prop where
  /-- On the one side the task is the future. -/
  plain : β.Hosts ξ.future ξ.plain
  /-- On the other side the task is the chain. -/
  chained : β.Hosts (ξ.future.andThen ξ.next) ξ.chained
  /-- The continuation makes no request of the executor, and does not fail. -/
  next : ∀ v w, (ξ.next v).Discreet ⊤ (fun r ↦ ∃ u, r = .ok u) w

/-- **What others can tell**, and what happens out of their sight. -/
structure Scope (W B : Type) where
  /-- The bodies that the other tasks may have. -/
  others : B → Prop
  /-- The worlds that nobody else can tell apart. -/
  unseen : Setoid W
  /-- The worlds between which the continuation and the destruction lead. -/
  reach : Setoid W
  /-- They may lead between worlds that nobody else can tell apart. -/
  le : unseen ≤ reach

namespace Scope

/-- Others may be anybody and tell everything, and the changes may lead anywhere. -/
def free : Scope W B := ⟨fun _ ↦ True, ⊥, ⊤, bot_le⟩

/-- The changes lead between worlds that nobody else can tell apart. -/
def hidden (P : B → Prop) (δ : Setoid W) : Scope W B := ⟨P, δ, δ, le_rfl⟩

/-- To the others, bodies that they may have are like themselves. -/
def likeness (π : Scope W B) : Likeness W B := .among π.unseen π.others

end Scope

/-- **The scope is right** for an exchange. -/
structure Fits (ξ : Exchange W B V S) (π : Scope W B) (β : Behaviour W B V)
    (σ : Surroundings W B V) : Prop where
  /-- On the one side the task is the future. -/
  plain : β.Hosts ξ.future ξ.plain
  /-- On the other side the task is the chain. -/
  chained : β.Hosts (ξ.future.andThen ξ.next) ξ.chained
  /-- The future spawns and runs only bodies that the other tasks may have. -/
  poll : ∀ s x, (ξ.future.poll s x).Like (.among ⊥ π.others) Eq (ξ.future.poll s x)
  /-- The continuation makes no request of the executor, and does not fail. -/
  next : ∀ v w, (ξ.next v).Discreet π.reach (fun r ↦ ∃ u, r = .ok u) w
  /-- The destruction of a future that has become ready leads nowhere else. -/
  drop : ∀ s x v s', (ξ.future.poll s x).Gives (.ok (.ready v), s') →
    ∀ w, π.reach w (ξ.future.drop s' w)
  /-- No other task can tell. -/
  behaviour : β.Respects π.likeness
  /-- What happens around the loop does not depend on it either. -/
  surroundings : σ.Respects π.likeness

/-- **Nobody else can tell** whether the continuation has run and the future has been destroyed: the
other tasks have bodies in `P`, and these cannot tell worlds apart that `δ` relates. -/
structure Unseen (ξ : Exchange W B V S) (P : B → Prop) (δ : Setoid W) (β : Behaviour W B V)
    (σ : Surroundings W B V) : Prop where
  /-- The future spawns and runs only such bodies. -/
  poll : ∀ s x, (ξ.future.poll s x).Like (.among ⊥ P) Eq (ξ.future.poll s x)
  /-- What the continuation does cannot be told. -/
  next : ∀ v w, (ξ.next v).Discreet δ (fun _ ↦ True) w
  /-- That a future which has become ready is destroyed cannot be told. -/
  drop : ∀ s x v s', (ξ.future.poll s x).Gives (.ok (.ready v), s') → ∀ w, δ w (ξ.future.drop s' w)
  /-- The other tasks cannot tell the worlds apart. -/
  behaviour : β.Respects (.among δ P)
  /-- What happens around the loop does not depend on it either. -/
  surroundings : σ.Respects (.among δ P)

section

variable {ξ : Exchange W B V S} {β : Behaviour W B V} {σ : Surroundings W B V}

/-- Every program is like itself if nothing is asked of the bodies and the worlds are equal. -/
theorem like_among_bot {Q : R → R → Prop} (hQ : ∀ r, Q r r) (p : Act W B V R) :
    p.Like (.among ⊥ fun _ ↦ True) Q p := by
  induction p with
  | done r => exact .done (hQ r)
  | look k ih => exact .look fun w w' hw ↦ (show w = w' from hw) ▸ ih w
  | put w k ih => exact .put rfl ih
  | wake x k ih =>
    have hwake := Act.Like.wake (w := x) ih
    rwa [Likeness.among_waker] at hwake
  | unpark k ih => exact .unpark ih
  | parkFor k ih => exact .parkFor ih
  | spawn b k ih => exact .spawn ⟨rfl, trivial⟩ (fun e ↦ ih _) fun id ↦ ih _
  | blockOn b k ih => exact .blockOn ⟨rfl, trivial⟩ ih
  | figures k ih => exact .figures ih

theorem Sound.fits (hξ : ξ.Sound β) : ξ.Fits .free β σ where
  plain := hξ.plain
  chained := hξ.chained
  poll _ _ := like_among_bot (fun _ ↦ rfl) _
  next := hξ.next
  drop _ _ _ _ _ _ := trivial
  behaviour := by
    refine ⟨fun b b' x hb ↦ ?_, fun b b' w w' hb hw ↦ ?_⟩
    · obtain ⟨rfl, -⟩ := hb
      rw [Scope.likeness, Likeness.among_waker]
      exact like_among_bot (fun r ↦ ⟨rfl, rfl, trivial⟩) _
    · obtain ⟨rfl, -⟩ := hb
      exact congrArg (β.drop b) (show w = w' from hw)
  surroundings :=
    ⟨fun w w' hw ↦ congrArg σ.finished (show w = w' from hw),
      fun _ ↦ like_among_bot (fun _ ↦ rfl) _, like_among_bot (fun _ ↦ rfl) _⟩

theorem Unseen.fits {P : B → Prop} {δ : Setoid W} (h : ξ.Unseen P δ β σ) (hξ : ξ.Sound β) :
    ξ.Fits (.hidden P δ) β σ where
  plain := hξ.plain
  chained := hξ.chained
  poll := h.poll
  next v w := ((h.next v w).and (hξ.next v w)).mono fun _ ⟨_, hr⟩ ↦ hr
  drop := h.drop
  behaviour := h.behaviour
  surroundings := h.surroundings

end

/-! ### What differs -/

/-- **The two parts of a run.** -/
inductive Era
  /-- The future may still be polled. -/
  | early
  /-- The poll in which it has become ready has ended. -/
  | late

/-- The worlds in which the two sides are. -/
def Scope.world (π : Scope W B) : Era → Setoid W
  | .early => ⊥
  | .late => π.unseen

/-- **The values of a task**: that of the chain is one that the continuation gives. -/
def Value (ξ : Exchange W B V S) (i : TaskId) (v v' : V) : Prop :=
  if i = ξ.id then (ξ.next v).Gives (.ok v') else v = v'

/-- The task as it is in the table. -/
inductive Body (ξ : Exchange W B V S) : TaskId → B → B → Prop
  /-- A future, and the chain that has it as its first future. -/
  | own (s : S) : Body ξ ξ.id (ξ.plain s) (ξ.chained (some s))
  /-- Any other task. -/
  | other {i} (hi : i ≠ ξ.id) (b : B) : Body ξ i b b

/-- The results of a poll. -/
inductive Result (ξ : Exchange W B V S) (i : TaskId) : Polled V → Polled V → Prop
  /-- Both have failed, with the same failure. -/
  | failed (x : Failure) : Result ξ i (.error x) (.error x)
  /-- Both are pending. -/
  | pending : Result ξ i (.ok .pending) (.ok .pending)
  /-- Both are ready. -/
  | ready {v v'} (hv : ξ.Value i v v') : Result ξ i (.ok (.ready v)) (.ok (.ready v'))

/-- The ends of a run to completion. -/
inductive Outcome (ξ : Exchange W B V S) (i : TaskId) :
    Except Failure (Option V) → Except Failure (Option V) → Prop
  /-- Both have failed, with the same failure. -/
  | failed (x : Failure) : Outcome ξ i (.error x) (.error x)
  /-- Both have returned. -/
  | returned {o o'} (ho : Option.Rel (ξ.Value i) o o') : Outcome ξ i (.ok o) (.ok o')

section

variable (ξ : Exchange W B V S) (π : Scope W B)

/-- The task as it is in the table, and what is known of the others. -/
inductive Fellow : Era → TaskId → B → B → Prop
  /-- A future, and the chain that has it as its first future. -/
  | own (s : S) : Fellow .early ξ.id (ξ.plain s) (ξ.chained (some s))
  /-- Any other task. -/
  | other {e i b} (hi : i ≠ ξ.id) (hb : π.others b) : Fellow e i b b

/-- What is left of the task once it is ready. -/
inductive Spent : TaskId → B → B → Prop
  /-- The future is still to be destroyed, and the chain has destroyed it. -/
  | own {s : S} (hs : ∀ w, π.reach w (ξ.future.drop s w)) : Spent ξ.id (ξ.plain s) (ξ.chained none)
  /-- Any other task. -/
  | other {i b} (hi : i ≠ ξ.id) (hb : π.others b) : Spent i b b

/-- The ends of a poll: results, and what is left of the bodies. -/
inductive Ends (e : Era) (i : TaskId) : Polled V × B → Polled V × B → Prop
  /-- Both have failed, with the same failure. -/
  | failed (x : Failure) {b b'} (hb : ξ.Fellow π e i b b') : Ends e i (.error x, b) (.error x, b')
  /-- Both are pending. -/
  | pending {b b'} (hb : ξ.Fellow π e i b b') : Ends e i (.ok .pending, b) (.ok .pending, b')
  /-- Both are ready. -/
  | ready {v v' b b'} (hv : ξ.Value i v v') (hb : ξ.Spent π i b b') :
      Ends e i (.ok (.ready v), b) (.ok (.ready v'), b')

end

/-- **Two programs go on side by side.** That of the own task, on the second side, trails that on
the first side; those of the others are alike, and the same while the worlds are. -/
inductive Scope.Abreast (π : Scope W B) (own : Prop) (e : Era) (T : R → Prop) (Q : R → R → Prop)
    (w : W) (p p' : Act W B V R) : Prop
  /-- The programs of others. -/
  | alike (ho : ¬ own) (he : e = .early → p' = p) (h : p.Like π.likeness Q p')
  /-- The programs of the own task. -/
  | trails (ho : own) (he : e = .early) (h : p.Trails π.others π.reach T Q w p')

end Exchange

/-- A note says nothing about values. -/
def Note.Bare : Note V → Prop
  | .ended _ _ _ => False
  | .returned _ _ => False
  | _ => True

/-- **What happens on both sides**: the same, but for the values of the task that differs. -/
inductive Exchange.Told (ξ : Exchange W B V S) : Note V → Note V → Prop
  /-- The same happens. -/
  | same {k} (hk : k.Bare) : Told ξ k k
  /-- A poll of the same task ends. -/
  | ended {i inPlace r r'} (hr : ξ.Result i r r') :
      Told ξ (.ended i inPlace r) (.ended i inPlace r')
  /-- The run of the same task to completion ends. -/
  | returned {i r r'} (hr : ξ.Outcome i r r') : Told ξ (.returned i r) (.returned i r')

namespace Exchange

/-- The same happens, step by step. -/
def Tells (ξ : Exchange W B V S) (n n' : List (Note V)) : Prop := List.Forall₂ ξ.Told n n'

variable {ξ : Exchange W B V S} {π : Scope W B} {β : Behaviour W B V} {σ : Surroundings W B V}
  {e : Era} {i : TaskId} {b b' : B} {v v' : V} {w w' u : W}

theorem Tells.append {n₁ n₁' n₂ n₂' : List (Note V)} (h₁ : ξ.Tells n₁ n₁') (h₂ : ξ.Tells n₂ n₂') :
    ξ.Tells (n₁ ++ n₂) (n₁' ++ n₂') :=
  List.rel_append h₁ h₂

theorem value_of_ne (hi : i ≠ ξ.id) : ξ.Value i v v' ↔ v = v' := by rw [Value, if_neg hi]

theorem Outcome.eq_of_ne {r r' : Except Failure (Option V)} (h : ξ.Outcome i r r')
    (hi : i ≠ ξ.id) : r = r' := by
  cases h with
  | failed x => rfl
  | returned ho =>
    cases ho with
    | none => rfl
    | some hv => rw [(value_of_ne hi).1 hv]

theorem Scope.bot_world (π : Scope W B) (e : Era) : π.world e ≤ π.reach := by
  cases e with
  | early => exact bot_le
  | late => exact π.le

/-- Worlds are related as on the two sides if nobody else can tell them apart, and if they are equal
early on. -/
theorem Scope.world_of (he : e = .early → w' = w) (hw : π.unseen w w') : π.world e w w' := by
  cases e with
  | early => exact (he rfl).symm
  | late => exact hw

theorem Scope.unseen_of (hw : π.world e w w') : π.unseen w w' := by
  cases e with
  | early => exact (show w = w' from hw) ▸ π.unseen.refl w
  | late => exact hw

/-! ### Bodies -/

theorem Fellow.body (h : ξ.Fellow π e i b b') : ξ.Body i b b' := by
  cases h with
  | own s => exact .own s
  | other hi _ => exact .other hi _

/-- Another task does not change with the era. -/
theorem Fellow.late (h : ξ.Fellow π e i b b') (hi : i ≠ ξ.id) : ξ.Fellow π .late i b b' := by
  cases h with
  | own => exact absurd rfl hi
  | other hi hb => exact .other hi hb

theorem Ends.result {r r' : Polled V × B} (h : ξ.Ends π e i r r') : ξ.Result i r.1 r'.1 := by
  cases h with
  | failed x _ => exact .failed x
  | pending _ => exact .pending
  | ready hv _ => exact .ready hv

theorem Ends.late {r r' : Polled V × B} (h : ξ.Ends π e i r r') (hi : i ≠ ξ.id) :
    ξ.Ends π .late i r r' := by
  cases h with
  | failed x hb => exact .failed x (hb.late hi)
  | pending hb => exact .pending (hb.late hi)
  | ready hv hb => exact .ready hv hb

/-- Bodies other than that of the task end alike if they end equal. -/
theorem Ends.other (hi : i ≠ ξ.id) {r : Polled V × B} (hb : π.others r.2) : ξ.Ends π e i r r := by
  match r with
  | (.error x, b) => exact .failed x (.other hi hb)
  | (.ok .pending, b) => exact .pending (.other hi hb)
  | (.ok (.ready v), b) => exact .ready ((value_of_ne hi).2 rfl) (.other hi hb)

/-- A poll has ended with a value. -/
def IsReady (r : Polled V × B) : Prop := ∃ v, r.1 = .ok (.ready v)

/-- **The poll of the chain trails the poll of the future**, and all other tasks are polled alike.
-/
theorem Fellow.poll (hξ : ξ.Fits π β σ) (hb : ξ.Fellow π e i b b') (x : Waker) (w : W) :
    π.Abreast (i = ξ.id) e IsReady (ξ.Ends π e i) w (β.poll b x) (β.poll b' x) := by
  cases hb with
  | other hi hb =>
    have hp := hξ.behaviour.poll b b x ⟨rfl, hb⟩
    rw [Scope.likeness, Likeness.among_waker] at hp
    refine .alike hi (fun _ ↦ rfl) (hp.mono fun r r' hr ↦ ?_)
    obtain ⟨rfl, hb⟩ := Likeness.ends_among.1 hr
    exact .other hi hb
  | own s =>
    refine .trails rfl rfl ?_
    rw [hξ.plain.poll, hξ.chained.poll]
    simp only [Future.andThen, Future.chainPoll, Act.bind_assoc]
    refine (hξ.poll s x).gives.bind_trails ?_ w
    rintro w ⟨(x | (_ | v)), s⟩ _ ⟨rfl, hg⟩
    · exact .done (.failed x (.own s))
    · exact .done (.pending (.own s))
    · -- The future is ready: the continuation runs, and then the future is destroyed.
      have hdrop := hξ.drop _ _ _ _ hg
      simp only [Future.chainRest, Act.bind_assoc]
      refine .rest ⟨v, rfl⟩ ((hξ.next v w).gives.bind ?_)
      rintro u _ ⟨⟨v', rfl⟩, hv⟩
      refine .change hdrop fun u ↦ .done ?_
      have hvalue : ξ.Value ξ.id v v' := by rwa [Value, if_pos rfl]
      exact .ready hvalue (.own hdrop)

/-- The bodies are destroyed alike. -/
theorem Fellow.drop (hξ : ξ.Fits π β σ) (hb : ξ.Fellow π e i b b') (hw : π.world e w w') :
    π.world e (β.drop b w) (β.drop b' w') := by
  cases hb with
  | other _ hb =>
    refine Scope.world_of (fun he ↦ ?_)
      (hξ.behaviour.drop b b w w' ⟨rfl, hb⟩ (Scope.unseen_of hw))
    subst he
    exact congrArg (β.drop b) (show w = w' from hw).symm
  | own s =>
    obtain rfl : w = w' := hw
    rw [hξ.plain.drop, hξ.chained.drop]
    rfl

/-- What is left of the task is destroyed on the first side. -/
theorem Spent.drop (hξ : ξ.Fits π β σ) (hb : ξ.Spent π i b b') (hi : i = ξ.id)
    (hw : π.reach w w') : π.reach (β.drop b w) (β.drop b' w') := by
  cases hb with
  | other hi' => exact absurd hi hi'
  | own hs =>
    rw [hξ.plain.drop, hξ.chained.drop]
    exact π.reach.trans (π.reach.symm (hs w)) hw

/-- What is left of another task is as in the table. -/
theorem Spent.fellow (h : ξ.Spent π i b b') (hi : i ≠ ξ.id) : ξ.Fellow π e i b b' := by
  cases h with
  | own => exact absurd rfl hi
  | other hi hb => exact .other hi hb

/-! ### Programs side by side -/

namespace Scope.Abreast

variable {own : Prop} {T : R → Prop} {Q : R → R → Prop} {p p' : Act W B V R}

/-- Others may change the world, unless the program is about to replace it. -/
theorem of_not_replaces (h : π.Abreast own e T Q w p p') (hp : ¬ p'.Replaces) :
    π.Abreast own e T Q u p p' := by
  cases h with
  | alike ho he h => exact .alike ho he h
  | trails ho he h => exact .trails ho he (h.of_not_replaces hp)

/-- Both get the result of a run to completion, if they wait for one. -/
theorem answered (h : π.Abreast own e T Q w p p') (r : Except Failure (Option V)) :
    π.Abreast own e T Q w (Doing.answered r p) (Doing.answered r p') := by
  cases h with
  | alike ho he h => exact .alike ho (fun hearly ↦ by rw [he hearly]) (h.answered r)
  | trails ho he h => exact .trails ho he (h.answered r)

theorem settled (h : π.Abreast own e T Q w p p') (hp : p'.Settled) : p.Settled := by
  cases h with
  | alike _ _ h => cases h <;> exact hp
  | trails _ _ h => exact h.settled hp

theorem replaces (h : π.Abreast own e T Q w p p') (hp : p.Replaces) : p'.Replaces := by
  cases h with
  | alike _ _ h => cases h <;> exact hp
  | trails _ _ h => exact h.replaces hp

/-- Where the first program is settled, so is the second one, unless it still has to go on by
itself. -/
theorem settled_or_rest (h : π.Abreast own e T Q w p p') (hp : p.Settled) :
    p'.Settled ∨ own ∧ e = .early ∧ ∃ r, p = .done r ∧ T r ∧ p'.Discreet π.reach (Q r) w := by
  cases h with
  | alike _ _ h =>
    refine Or.inl ?_
    cases h <;> exact hp
  | trails ho he h =>
    rcases h.settled_or_rest hp with hp' | hrest
    · exact Or.inl hp'
    · exact Or.inr ⟨ho, he, hrest⟩

/-- Where the first program is not about to replace its world, the second one is not, unless it goes
on by itself. -/
theorem settled_or_calm (h : π.Abreast own e T Q w p p') (hp : ¬ p.Replaces) :
    p.Settled ∨ ¬ p'.Replaces := by
  cases h with
  | alike _ _ h =>
    refine Or.inr ?_
    cases h <;> exact hp
  | trails _ _ h => exact h.settled_or_calm hp

/-- The program of the own task has ended on both sides. -/
theorem of_done {r : R} (h : π.Abreast own e T Q w (.done r) p') (ho : own) (hp : p'.Settled) :
    ∃ r', p' = .done r' ∧ Q r r' := by
  cases h with
  | alike ho' => exact absurd ho ho'
  | trails _ _ h =>
    cases h with
    | done hr => exact ⟨_, rfl, hr⟩
    | rest _ h => exact h.of_settled hp

/-- The programs of others do not change with the era. -/
theorem late {Q' : R → R → Prop} (h : π.Abreast own e T Q w p p') (ho : ¬ own)
    (hQ : ∀ r r', Q r r' → Q' r r') : π.Abreast own .late T Q' w p p' := by
  cases h with
  | alike _ _ h => exact .alike ho nofun (h.mono hQ)
  | trails ho' => exact absurd ho' ho

end Scope.Abreast

/-! ### Sites -/

/-- **Two sites differ in one task**: the tables have the same ids in the same order, the worlds are
related by `ρ`, and all else is the same. -/
inductive Sites (ξ : Exchange W B V S) (π : Scope W B) (e : Era) (ρ : Setoid W) :
    Site W B → Site W B → Prop
  /-- Table and world differ. -/
  | mk {x tasks s w w'} (ht : Table.Pairs (ξ.Fellow π e) x.tasks tasks) (hw : ρ w w') :
      Sites ξ π e ρ ⟨x, s, w⟩ ⟨{ x with tasks }, s, w'⟩

namespace Sites

variable {s s' : Site W B} {ρ ρ' : Setoid W}

theorem world (h : ξ.Sites π e ρ s s') : ρ s.world s'.world := by
  obtain ⟨-, hw⟩ := h
  exact hw

theorem tasks (h : ξ.Sites π e ρ s s') :
    Table.Pairs (ξ.Fellow π e) s.executor.tasks s'.executor.tasks := by
  obtain ⟨ht, -⟩ := h
  exact ht

theorem signals (h : ξ.Sites π e ρ s s') : s'.signals = s.signals := by
  obtain ⟨-, -⟩ := h
  rfl

theorem queue (h : ξ.Sites π e ρ s s') : s'.executor.queue = s.executor.queue := by
  obtain ⟨-, -⟩ := h
  rfl

theorem parker (h : ξ.Sites π e ρ s s') : s'.executor.parker = s.executor.parker := by
  obtain ⟨-, -⟩ := h
  rfl

/-- The executors tell the same about themselves. -/
theorem figures (h : ξ.Sites π e ρ s s') : s'.figures = s.figures := by
  obtain ⟨ht, -⟩ := h
  simp only [Site.figures, ht.size]

/-- The worlds change. -/
theorem onWorld (h : ξ.Sites π e ρ s s') (hw : ρ' w w') :
    ξ.Sites π e ρ' { s with world := w } { s' with world := w' } := by
  obtain ⟨ht, -⟩ := h
  exact .mk ht hw

theorem mono (h : ξ.Sites π e ρ s s') (hρ : ρ ≤ ρ') : ξ.Sites π e ρ' s s' := by
  obtain ⟨ht, hw⟩ := h
  exact .mk ht (hρ hw)

/-- Sites without the own task do not change with the era. -/
theorem late (h : ξ.Sites π e ρ s s') (hid : ¬ s.executor.tasks.contains ξ.id = true) :
    ξ.Sites π .late ρ s s' := by
  obtain ⟨ht, hw⟩ := h
  refine .mk (ht.imp fun k hk b b' hb ↦ hb.late ?_) hw
  rintro rfl
  exact hid (Table.mem_keys_iff.1 hk)

/-- The signals change alike. -/
theorem onSignals (h : ξ.Sites π e ρ s s') (f : Signals → Signals) :
    ξ.Sites π e ρ { s with signals := f s.signals } { s' with signals := f s'.signals } := by
  obtain ⟨ht, hw⟩ := h
  exact .mk ht hw

/-- Bodies are destroyed. -/
theorem destroy (h : ξ.Sites π e ρ s s')
    (hb : ∀ w w', ρ w w' → ρ' (β.drop b w) (β.drop b' w')) (i : TaskId) :
    ξ.Tells (s.destroy (V := V) β i b).1 (s'.destroy (V := V) β i b').1 ∧
      ξ.Sites π e ρ' (s.destroy (V := V) β i b).2 (s'.destroy (V := V) β i b').2 :=
  ⟨.cons (.same trivial) .nil, h.onWorld (hb _ _ h.world)⟩

/-- What calls hold is destroyed. -/
theorem release (h : ξ.Sites π e ρ s s') {Q : B → B → Prop} {held held' : Option B}
    (hheld : Option.Rel Q held held')
    (hQ : ∀ b b', Q b b' → ∀ w w', ρ w w' → ρ (β.drop b w) (β.drop b' w')) (i : TaskId) :
    ξ.Tells (held.elim ([], s) (s.destroy (V := V) β i)).1
        (held'.elim ([], s') (s'.destroy (V := V) β i)).1 ∧
      ξ.Sites π e ρ (held.elim ([], s) (s.destroy (V := V) β i)).2
        (held'.elim ([], s') (s'.destroy (V := V) β i)).2 := by
  cases hheld with
  | none => exact ⟨.nil, h⟩
  | some hb => exact h.destroy (hQ _ _ hb) i

/-- Bodies are put into the tables. -/
theorem insert (hξ : ξ.Fits π β σ) (h : ξ.Sites π e (π.world e) s s') (hb : ξ.Fellow π e i b b') :
    ξ.Tells (s.insert (V := V) β i b).1 (s'.insert (V := V) β i b').1 ∧
      ξ.Sites π e (π.world e) (s.insert (V := V) β i b).2 (s'.insert (V := V) β i b').2 := by
  unfold Site.insert
  rw [h.tasks.contains i]
  split
  · exact h.destroy (fun w w' ↦ hb.drop hξ) i
  · obtain ⟨ht, hw⟩ := h
    exact ⟨.nil, .mk (ht.insert i hb) hw⟩

/-- Tasks are put into the tables, and their ids are queued. -/
theorem enqueue (hξ : ξ.Fits π β σ) (h : ξ.Sites π e (π.world e) s s')
    (hb : ξ.Fellow π e i b b') :
    ξ.Tells (s.enqueue (V := V) β i b).1 (s'.enqueue (V := V) β i b').1 ∧
      ξ.Sites π e (π.world e) (s.enqueue (V := V) β i b).2 (s'.enqueue (V := V) β i b').2 := by
  obtain ⟨hn, hs⟩ := h.insert hξ hb
  refine ⟨.cons (.same trivial) hn, ?_⟩
  simp only [Site.enqueue]
  generalize (s.insert (V := V) β i b).2 = t, (s'.insert (V := V) β i b').2 = t' at hs
  obtain @⟨x, tasks, _, _, _, ht, hw⟩ := hs
  exact .mk (x := { x with spawned := x.spawned + 1 }) ht hw

/-- The same task is spawned under an id that is not that of the task. -/
theorem spawn (hξ : ξ.Fits π β σ) (h : ξ.Sites π e (π.world e) s s')
    (hi : s.executor.nextId ≠ ξ.id) (hb : π.others b) :
    (s'.spawn (V := V) β b).1 = (s.spawn (V := V) β b).1 ∧
      ξ.Tells (s.spawn (V := V) β b).2.1 (s'.spawn (V := V) β b).2.1 ∧
      ξ.Sites π e (π.world e) (s.spawn (V := V) β b).2.2 (s'.spawn (V := V) β b).2.2 := by
  obtain @⟨x, tasks, signals, w, w', ht, hw⟩ := h
  have hs : ξ.Sites π e (π.world e) ⟨{ x with nextId := x.nextId + 1 }, signals, w⟩
      ⟨{ x with nextId := x.nextId + 1, tasks }, signals, w'⟩ :=
    .mk (x := { x with nextId := x.nextId + 1 }) ht hw
  obtain ⟨hn, hs⟩ := hs.enqueue hξ (.other hi hb)
  exact ⟨rfl, .cons (.same trivial) hn, hs⟩

end Sites

/-! ### Requests -/

/-- How two programs that go on side by side have a request answered. -/
inductive Together (ξ : Exchange W B V S) (π : Scope W B) (β : Behaviour W B V) {R : Type}
    (own : Prop) (e : Era) (T : R → Prop) (Q : R → R → Prop) (s s' : Site W B) :
    Act W B V R → Act W B V R → Prop
  /-- The first one has ended. -/
  | ended {r q} : Together ξ π β own e T Q s s' (.done r) q
  /-- Both run the same task to completion. -/
  | blockOn {b k k'} (hb : π.others b) (hk : ∀ r u, π.Abreast own e T Q u (k r) (k' r)) :
      Together ξ π β own e T Q s s' (.blockOn b k) (.blockOn b k')
  /-- Both wake through the same waker. -/
  | wake {k k'} (x : Waker) (hk : ∀ u, π.Abreast own e T Q u k k') :
      Together ξ π β own e T Q s s' (.wake x k) (.wake x k')
  /-- Both have a request answered. -/
  | request {p q p₁ q₁ n n' s₁ s₁'} (hp : p.request? β s = some (n, p₁, s₁))
      (hq : q.request? β s' = some (n', q₁, s₁')) (hn : ξ.Tells n n')
      (ht : π.Abreast own e T Q s₁'.world p₁ q₁) (hs : ξ.Sites π e (π.world e) s₁ s₁') :
      Together ξ π β own e T Q s s' p q

end Exchange

end TaskRuntime
