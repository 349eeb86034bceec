import Mathlib.Data.Setoid.Basic
import Mathlib.Order.CompletePartialOrder
import TaskRuntime.Proofs.Observed

/-!
# Programs that trail

A program may go on after another one has ended, without making any request of the executor: all
that it still does is to look at its world and to change it. It trails the other program if up to
there the two are in the same world and make the same requests (`Act.Trails`).

This is what separates trailing from matching: at every moment at which others may act, either both
programs are about to make the same request, or the first one has ended and the second one makes
none any more.

## Worlds

What the second program does to its world by itself leads to worlds that are related to the world
that it has found by a relation `δ` (`Act.Discreet`). If `δ` relates all worlds, this says nothing;
if it relates those that others cannot tell apart, nobody notices.

Others may change the world as long as neither program is about to replace its own: a program that
looks at its world in order to replace it does so at once. So what is known of a program in the
world in which it is now stays true in other worlds, unless it is about to replace its world
(`Act.Discreet.of_not_replaces`).

## Bodies

The programs spawn, and run to completion, only bodies of which something is known (`P`).
-/

namespace TaskRuntime

variable {W B V R R' S S' : Type}

/-! ### Bodies of which something is known -/

namespace Likeness

/-- The likeness of sites with the same ids and the same bodies, in worlds that tasks with one of
some bodies cannot tell apart. -/
def among (ω : Setoid W) (P : B → Prop) : Likeness W B :=
  { (plain ω : Likeness W B) with body := fun b b' ↦ b = b' ∧ P b }

@[simp] theorem among_waker (ω : Setoid W) (P : B → Prop) (x : Waker) : (among ω P).waker x = x :=
  plain_waker (B := B) ω x

/-- If nothing is known of the bodies, these are likenesses of worlds. -/
theorem among_true (ω : Setoid W) : among ω (fun _ : B ↦ True) = plain ω := by
  simp only [among, plain, and_true]

theorem ends_among {ω : Setoid W} {P : B → Prop} {r r' : Polled V × B} :
    (among ω P).Ends r r' ↔ r = r' ∧ P r.2 :=
  ⟨fun ⟨hr, hb, hP⟩ ↦ ⟨Prod.ext hr hb, hP⟩, fun ⟨hr, hP⟩ ↦ hr ▸ ⟨rfl, rfl, hP⟩⟩

end Likeness

namespace Act

variable {δ : Setoid W} {P : B → Prop}

/-! ### Programs that keep to themselves -/

/-- A program is about to replace its world. -/
def Replaces : Act W B V R → Prop
  | .put _ _ => True
  | _ => False

/-- **A program keeps to itself**: it makes no request of the executor, the worlds that it puts in
place are related to those that it has found, and it ends with an answer in `Q`. -/
inductive Discreet (δ : Setoid W) (Q : R → Prop) : W → Act W B V R → Prop
  /-- It has ended. -/
  | done {w r} (hr : Q r) : Discreet δ Q w (.done r)
  /-- It looks at its world. -/
  | look {w k} (h : ∀ u, Discreet δ Q u (k u)) : Discreet δ Q w (.look k)
  /-- It replaces its world. -/
  | put {w u k} (hu : δ w u) (h : Discreet δ Q u k) : Discreet δ Q w (.put u k)

/-- **What a program may give**: the answers that it ends with in some worlds, if its requests are
answered in some way. -/
def Gives : Act W B V R → R → Prop
  | .done a, r => a = r
  | .look k, r => ∃ w, (k w).Gives r
  | .put _ k, r => k.Gives r
  | .wake _ k, r => k.Gives r
  | .unpark k, r => k.Gives r
  | .parkFor k, r => ∃ b, (k b).Gives r
  | .spawn _ k, r => ∃ x, (k x).Gives r
  | .blockOn _ k, r => ∃ x, (k x).Gives r
  | .figures k, r => ∃ x, (k x).Gives r

/-- The answers of programs that are alike are answers that they may give. -/
theorem Like.gives {κ : Likeness W B} {Q : R → R → Prop} {p p' : Act W B V R} (h : p.Like κ Q p') :
    p.Like κ (fun r r' ↦ Q r r' ∧ p.Gives r) p' := by
  induction h with
  | done hr => exact .done ⟨hr, rfl⟩
  | look _ ih =>
    exact .look fun w w' hw ↦ (ih w w' hw).mono fun _ _ ⟨hr, hg⟩ ↦ ⟨hr, w, hg⟩
  | put hw _ ih => exact .put hw ih
  | wake _ ih => exact .wake ih
  | unpark _ ih => exact .unpark ih
  | parkFor _ ih => exact .parkFor fun b ↦ (ih b).mono fun _ _ ⟨hr, hg⟩ ↦ ⟨hr, b, hg⟩
  | spawn hb _ _ ihe ihk =>
    exact .spawn hb (fun e ↦ (ihe e).mono fun _ _ ⟨hr, hg⟩ ↦ ⟨hr, _, hg⟩)
      fun id ↦ (ihk id).mono fun _ _ ⟨hr, hg⟩ ↦ ⟨hr, _, hg⟩
  | blockOn hb _ ih => exact .blockOn hb fun r ↦ (ih r).mono fun _ _ ⟨hr, hg⟩ ↦ ⟨hr, r, hg⟩
  | figures _ ih => exact .figures fun x ↦ (ih x).mono fun _ _ ⟨hr, hg⟩ ↦ ⟨hr, x, hg⟩

namespace Discreet

variable {Q Q₁ : R → Prop} {Q' : S → Prop} {w u : W} {p : Act W B V R}

theorem mono (h : p.Discreet δ Q w) (hQ : ∀ r, Q r → Q₁ r) : p.Discreet δ Q₁ w := by
  induction h with
  | done hr => exact .done (hQ _ hr)
  | look _ ih => exact .look ih
  | put hu _ ih => exact .put hu ih

/-- The worlds are related by less. -/
theorem of_le {δ' : Setoid W} (h : p.Discreet δ Q w) (hδ : δ ≤ δ') : p.Discreet δ' Q w := by
  induction h with
  | done hr => exact .done hr
  | look _ ih => exact .look ih
  | put hu _ ih => exact .put (hδ hu) ih

/-- What is known of the worlds and what is known of the answer go together. -/
theorem and {δ' : Setoid W} (h : p.Discreet δ Q w) (h' : p.Discreet δ' Q₁ w) :
    p.Discreet δ (fun r ↦ Q r ∧ Q₁ r) w := by
  induction h with
  | done hr => cases h' with | done hr' => exact .done ⟨hr, hr'⟩
  | look _ ih => cases h' with | look h' => exact .look fun u ↦ ih u (h' u)
  | put hu _ ih => cases h' with | put _ h' => exact .put hu (ih h')

/-- The answer is one that the program may give. -/
theorem gives (h : p.Discreet δ Q w) : p.Discreet δ (fun r ↦ Q r ∧ p.Gives r) w := by
  induction h with
  | done hr => exact .done ⟨hr, rfl⟩
  | look _ ih => exact .look fun u ↦ (ih u).mono fun _ ⟨hr, hg⟩ ↦ ⟨hr, u, hg⟩
  | put hu _ ih => exact .put hu ih

theorem bind {f : R → Act W B V S} (h : p.Discreet δ Q w)
    (hf : ∀ u r, Q r → (f r).Discreet δ Q' u) : (p.bind f).Discreet δ Q' w := by
  induction h with
  | done hr => exact hf _ _ hr
  | look _ ih => exact .look ih
  | put hu _ ih => exact .put hu ih

/-- A change of the world between related worlds. -/
theorem change {c : W → W} {f : Unit → Act W B V R} (hc : ∀ u, δ u (c u))
    (hf : ∀ u, (f ()).Discreet δ Q u) : ((Act.change c).bind f).Discreet δ Q w :=
  .look fun u ↦ .put (hc u) (hf _)

/-- Others may change the world, unless the program is about to replace it. -/
theorem of_not_replaces (h : p.Discreet δ Q w) (hp : ¬ p.Replaces) : p.Discreet δ Q u := by
  cases h with
  | done hr => exact .done hr
  | look h => exact .look h
  | put => exact absurd trivial hp

/-- A program that has no request to be answered has ended. -/
theorem of_settled (h : p.Discreet δ Q w) (hp : p.Settled) : ∃ r, p = .done r ∧ Q r := by
  cases h with
  | done hr => exact ⟨_, rfl, hr⟩
  | look => exact hp.elim
  | put => exact hp.elim

end Discreet

/-! ### Trailing -/

/-- **The second program trails the first one**: it makes the same requests in the same world, and
may go on by itself after the first one has ended with an answer in `T`. The answers are related by
`Q`. -/
inductive Trails (P : B → Prop) (δ : Setoid W) (T : R → Prop) (Q : R → R' → Prop) :
    W → Act W B V R → Act W B V R' → Prop
  /-- Both have ended. -/
  | done {w r r'} (hr : Q r r') : Trails P δ T Q w (.done r) (.done r')
  /-- The first one has ended, and the second one goes on by itself. -/
  | rest {w r q} (hT : T r) (h : q.Discreet δ (Q r) w) : Trails P δ T Q w (.done r) q
  /-- Both look at the world. -/
  | look {w k k'} (hk : ∀ u, Trails P δ T Q u (k u) (k' u)) : Trails P δ T Q w (.look k) (.look k')
  /-- Both replace the world. -/
  | put {w u k k'} (hk : Trails P δ T Q u k k') : Trails P δ T Q w (.put u k) (.put u k')
  /-- Both wake through the same waker. -/
  | wake {w k k'} (x : Waker) (hk : ∀ u, Trails P δ T Q u k k') :
      Trails P δ T Q w (.wake x k) (.wake x k')
  /-- Both notify the thread. -/
  | unpark {w k k'} (hk : ∀ u, Trails P δ T Q u k k') : Trails P δ T Q w (.unpark k) (.unpark k')
  /-- Both let the thread sleep. -/
  | parkFor {w k k'} (hk : ∀ b u, Trails P δ T Q u (k b) (k' b)) :
      Trails P δ T Q w (.parkFor k) (.parkFor k')
  /-- Both spawn the same task. -/
  | spawn {w b k k'} (hb : P b) (hk : ∀ r u, Trails P δ T Q u (k r) (k' r)) :
      Trails P δ T Q w (.spawn b k) (.spawn b k')
  /-- Both run the same task to completion. -/
  | blockOn {w b k k'} (hb : P b) (hk : ∀ r u, Trails P δ T Q u (k r) (k' r)) :
      Trails P δ T Q w (.blockOn b k) (.blockOn b k')
  /-- Both ask the executor about itself. -/
  | figures {w k k'} (hk : ∀ x u, Trails P δ T Q u (k x) (k' x)) :
      Trails P δ T Q w (.figures k) (.figures k')

/-- Programs that are alike in the same world go on to programs of which the second one trails the
first one. -/
theorem Like.bind_trails {T : S → Prop} {Q : R → R → Prop} {Q' : S → S' → Prop}
    {p p' : Act W B V R} {f : R → Act W B V S} {f' : R → Act W B V S'}
    (h : p.Like (.among ⊥ P) Q p') (hf : ∀ w r r', Q r r' → (f r).Trails P δ T Q' w (f' r'))
    (w : W) : (p.bind f).Trails P δ T Q' w (p'.bind f') := by
  induction h generalizing w with
  | done hr => exact hf w _ _ hr
  | look _ ih => exact .look fun u ↦ ih u u rfl u
  | put hu _ ih =>
    obtain rfl := hu
    exact .put (ih _)
  | @wake x _ _ _ ih =>
    rw [Likeness.among_waker]
    exact .wake x ih
  | unpark _ ih => exact .unpark ih
  | parkFor _ ih => exact .parkFor ih
  | spawn hb _ _ ihe ih =>
    obtain ⟨rfl, hb⟩ := hb
    refine .spawn hb fun r ↦ ?_
    cases r with
    | error e => exact ihe e
    | ok id => exact ih id
  | blockOn hb _ ih =>
    obtain ⟨rfl, hb⟩ := hb
    exact .blockOn hb ih
  | figures _ ih => exact .figures ih

namespace Trails

variable {T : R → Prop} {Q : R → R' → Prop} {w u : W} {p : Act W B V R} {p' : Act W B V R'}

/-- Others may change the world, unless the program is about to replace it. -/
theorem of_not_replaces (h : p.Trails P δ T Q w p') (hp : ¬ p'.Replaces) :
    p.Trails P δ T Q u p' := by
  cases h with
  | done hr => exact .done hr
  | rest hT h => exact .rest hT (h.of_not_replaces hp)
  | put => exact absurd trivial hp
  | look hk => exact .look hk
  | wake x hk => exact .wake x hk
  | unpark hk => exact .unpark hk
  | parkFor hk => exact .parkFor hk
  | spawn hb hk => exact .spawn hb hk
  | blockOn hb hk => exact .blockOn hb hk
  | figures hk => exact .figures hk

/-- Both get the result of a run to completion, if they wait for one. -/
theorem answered (h : p.Trails P δ T Q w p') (r : Except Failure (Option V)) :
    (Doing.answered r p).Trails P δ T Q w (Doing.answered r p') := by
  cases h with
  | blockOn _ hk => exact hk r w
  | done hr => exact .done hr
  | rest hT h =>
    cases h with
    | done hr => exact .done hr
    | look h => exact .rest hT (.look h)
    | put hu h => exact .rest hT (.put hu h)
  | look hk => exact .look hk
  | put hk => exact .put hk
  | wake x hk => exact .wake x hk
  | unpark hk => exact .unpark hk
  | parkFor hk => exact .parkFor hk
  | spawn hb hk => exact .spawn hb hk
  | figures hk => exact .figures hk

theorem settled (h : p.Trails P δ T Q w p') (hp : p'.Settled) : p.Settled := by
  cases h <;> trivial

theorem replaces (h : p.Trails P δ T Q w p') (hp : p.Replaces) : p'.Replaces := by
  cases h <;> trivial

/-- The program that trails one that has ended, or waits for a run to completion, is settled as
well, unless it still has to go on by itself. -/
theorem settled_or_rest (h : p.Trails P δ T Q w p') (hp : p.Settled) :
    p'.Settled ∨ ∃ r, p = .done r ∧ T r ∧ p'.Discreet δ (Q r) w := by
  cases h with
  | done => exact Or.inl trivial
  | rest hT h => exact Or.inr ⟨_, rfl, hT, h⟩
  | blockOn => exact Or.inl trivial
  | _ => exact hp.elim

/-- Where one program is not about to replace its world, the program that trails it is not, unless
it goes on by itself. -/
theorem settled_or_calm (h : p.Trails P δ T Q w p') (hp : ¬ p.Replaces) :
    p.Settled ∨ ¬ p'.Replaces := by
  cases h with
  | done => exact Or.inl trivial
  | rest => exact Or.inl trivial
  | put => exact absurd trivial hp
  | _ => exact Or.inr id

end Trails

end Act

end TaskRuntime
