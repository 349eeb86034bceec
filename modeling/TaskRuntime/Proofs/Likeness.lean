import Mathlib.Data.List.Forall2
import Mathlib.Logic.Equiv.Defs
import TaskRuntime.Proofs.Interleaving

/-!
# Likeness

What tasks do does not depend on the numbers that they happen to have as ids. So two sites may be
alike although the same tasks have different ids on them: an id on the one side stands for an id on
the other, and a waker for the waker of the task that it stands for. A `Likeness` tells which ids
stand for which, and which worlds and bodies are the same to tasks.

## What has to respect a likeness

A behaviour respects a likeness if bodies that are alike are polled by programs that are alike
(`Behaviour.Respects`). Programs are alike if they make the same requests and go on alike as long
as they are given answers that are alike (`Act.Like`). Nothing is said about how bodies use ids, so
this asks only that they do not compute with them.

## What is told

Two runs are compared by what is told of them, `told`: everything but the ends of bodies and of runs
to completion. A note on the one side stands for one on the other (`Likeness.note`), and the
histories correspond note by note (`Likeness.Tells`).
-/

namespace TaskRuntime

variable {W B V R : Type}

/-- **Which ids, worlds and bodies stand for which**, for one executor. -/
structure Likeness (W B : Type) where
  /-- The ready queue of the executor. -/
  queue : QueueRef
  /-- The parker of the executor. -/
  parker : ParkerRef
  /-- The id that an id stands for. -/
  ids : Equiv.Perm TaskId
  /-- Two worlds are the same to tasks. -/
  world : W → W → Prop
  /-- Two bodies are the same. -/
  body : B → B → Prop
  /-- Every world stands for some world. -/
  exists_right : ∀ w, ∃ w', world w w'
  /-- Some world stands for every world. -/
  exists_left : ∀ w', ∃ w, world w w'

namespace Likeness

/-- The likeness in the other direction. -/
def symm (κ : Likeness W B) : Likeness W B where
  queue := κ.queue
  parker := κ.parker
  ids := κ.ids.symm
  world w w' := κ.world w' w
  body b b' := κ.body b' b
  exists_right := κ.exists_left
  exists_left := κ.exists_right

/-- The likeness of sites that may differ in their worlds. -/
def blind (κ : Likeness W B) : Likeness W B :=
  { κ with world := fun _ _ ↦ True, exists_right := fun w ↦ ⟨w, trivial⟩,
           exists_left := fun w ↦ ⟨w, trivial⟩ }

variable (κ : Likeness W B)

/-! ### Wakers and notes -/

/-- The waker that a waker stands for. Those of other executors stand for themselves. -/
def waker (w : Waker) : Waker := if w.queue = some κ.queue then { w with id := κ.ids w.id } else w

/-- The note that a note stands for. -/
def note : Note V → Note V
  | .issued id => .issued (κ.ids id)
  | .entered id => .entered (κ.ids id)
  | .woke w => .woke (κ.waker w)
  | .began id inPlace => .began (κ.ids id) inPlace
  | .ended id inPlace result => .ended (κ.ids id) inPlace result
  | .stale id => .stale (κ.ids id)
  | .parked => .parked
  | .destroyed id => .destroyed (κ.ids id)
  | .returned id result => .returned (κ.ids id) result

@[simp] theorem queue_waker (w : Waker) : (κ.waker w).queue = w.queue := by
  unfold waker
  split <;> rfl

@[simp] theorem parker_waker (w : Waker) : (κ.waker w).parker = w.parker := by
  unfold waker
  split <;> rfl

theorem id_waker {w : Waker} (h : w.queue = some κ.queue) : (κ.waker w).id = κ.ids w.id := by
  rw [waker, if_pos h]

@[simp] theorem symm_waker (w : Waker) : κ.symm.waker (κ.waker w) = w := by
  by_cases h : w.queue = some κ.queue
  · have hq : (κ.waker w).queue = some κ.symm.queue := (κ.queue_waker w).trans h
    rw [waker, if_pos hq, waker, if_pos h]
    simp [symm]
  · have hq : (κ.waker w).queue ≠ some κ.symm.queue := fun hq ↦ h ((κ.queue_waker w).symm.trans hq)
    rw [waker, if_neg hq, waker, if_neg h]

theorem waker_injective : Function.Injective κ.waker :=
  Function.LeftInverse.injective κ.symm_waker

@[simp] theorem symm_note (k : Note V) : κ.symm.note (κ.note k) = k := by
  cases k with
  | woke w => exact congrArg Note.woke (κ.symm_waker w)
  | parked => rfl
  | _ => simp [note, symm]

end Likeness

/-! ### What is told of a run -/

/-- A body is destroyed, or a run to completion has ended. -/
def Note.closes : Note V → Bool
  | .destroyed _ => true
  | .returned _ _ => true
  | _ => false

/-- **What is told of a run**, apart from the ends of bodies and of runs to completion: ids, wakes,
polls with their results, stale ids and parkings. -/
def told (h : List (Note V)) : List (Note V) := h.filter fun k ↦ !k.closes

theorem told_append (h n : List (Note V)) : told (h ++ n) = told h ++ told n :=
  List.filter_append ..

theorem told_of_closes {n : List (Note V)} (hn : ∀ k ∈ n, k.closes = true) : told n = [] :=
  List.filter_eq_nil_iff.2 fun k hk ↦ by simp [hn k hk]

/-- **The same is told**, up to the ids. -/
def Likeness.Tells (κ : Likeness W B) (n n' : List (Note V)) : Prop :=
  told n' = (told n).map κ.note

namespace Likeness.Tells

variable {κ : Likeness W B} {h h' n n' : List (Note V)}

@[simp] theorem nil : κ.Tells ([] : List (Note V)) [] := rfl

theorem append (hh : κ.Tells h h') (hn : κ.Tells n n') : κ.Tells (h ++ n) (h' ++ n') := by
  rw [Tells, told_append, told_append, hh, hn, List.map_append]

theorem cons {k : Note V} (hn : κ.Tells n n') : κ.Tells (k :: n) (κ.note k :: n') := by
  have hk : κ.Tells [k] [κ.note k] := by cases k <;> rfl
  exact hk.append hn

/-- Ends of bodies and of runs need not agree. -/
theorem of_closes (hn : ∀ k ∈ n, k.closes = true) (hn' : ∀ k ∈ n', k.closes = true) :
    κ.Tells n n' := by
  rw [Tells, told_of_closes hn, told_of_closes hn']
  rfl

theorem symm (hn : κ.Tells n n') : κ.symm.Tells n' n := by
  rw [Tells, hn, List.map_map]
  have hid : (κ.symm.note ∘ κ.note : Note V → Note V) = id := funext κ.symm_note
  rw [hid, List.map_id]

end Likeness.Tells

/-! ### Programs -/

/-- **Two programs are alike**: they make the same requests, go on alike if they are given the like
answers, and end with answers that are related by `Q`. -/
inductive Act.Like (κ : Likeness W B) (Q : R → R → Prop) : Act W B V R → Act W B V R → Prop
  /-- Both have ended. -/
  | done {r r'} (hr : Q r r') : Like κ Q (.done r) (.done r')
  /-- Both look at the world. -/
  | look {k k'} (hk : ∀ w w', κ.world w w' → Like κ Q (k w) (k' w')) : Like κ Q (.look k) (.look k')
  /-- Both replace the world. -/
  | put {w w' k k'} (hw : κ.world w w') (hk : Like κ Q k k') : Like κ Q (.put w k) (.put w' k')
  /-- Both wake. -/
  | wake {w k k'} (hk : Like κ Q k k') : Like κ Q (.wake w k) (.wake (κ.waker w) k')
  /-- Both notify the thread. -/
  | unpark {k k'} (hk : Like κ Q k k') : Like κ Q (.unpark k) (.unpark k')
  /-- Both let the thread sleep. -/
  | parkFor {k k'} (hk : ∀ b, Like κ Q (k b) (k' b)) : Like κ Q (.parkFor k) (.parkFor k')
  /-- Both spawn. -/
  | spawn {b b' k k'} (hb : κ.body b b') (he : ∀ e, Like κ Q (k (.error e)) (k' (.error e)))
      (hk : ∀ id, Like κ Q (k (.ok id)) (k' (.ok (κ.ids id)))) :
      Like κ Q (.spawn b k) (.spawn b' k')
  /-- Both run a task to completion. -/
  | blockOn {b b' k k'} (hb : κ.body b b') (hk : ∀ r, Like κ Q (k r) (k' r)) :
      Like κ Q (.blockOn b k) (.blockOn b' k')
  /-- Both ask the executor about itself. -/
  | figures {k k'} (hk : ∀ x, Like κ Q (k x) (k' x)) : Like κ Q (.figures k) (.figures k')

theorem Act.Like.symm {κ : Likeness W B} {Q : R → R → Prop} {p p' : Act W B V R}
    (h : p.Like κ Q p') : p'.Like κ.symm (fun r r' ↦ Q r' r) p := by
  induction h with
  | done hr => exact .done hr
  | look _ ih => exact .look fun w w' hw ↦ ih w' w hw
  | put hw _ ih => exact .put hw ih
  | @wake w _ _ _ ih =>
    have hwake := Act.Like.wake (w := κ.waker w) ih
    rwa [κ.symm_waker] at hwake
  | unpark _ ih => exact .unpark ih
  | parkFor _ ih => exact .parkFor ih
  | @spawn _ _ _ k' hb _ _ ihe ihk =>
    refine .spawn hb ihe fun id ↦ ?_
    have hid := ihk (κ.ids.symm id)
    rwa [Equiv.apply_symm_apply] at hid
  | blockOn hb _ ih => exact .blockOn hb ih
  | figures _ ih => exact .figures ih

namespace Act.Like

variable {κ : Likeness W B} {Q : R → R → Prop} {p p' : Act W B V R}

/-- Programs that are alike go on to programs that are alike. -/
theorem bind {S : Type} {Q' : S → S → Prop} {f f' : R → Act W B V S} (h : p.Like κ Q p')
    (hf : ∀ r r', Q r r' → (f r).Like κ Q' (f' r')) : (p.bind f).Like κ Q' (p'.bind f') := by
  induction h with
  | done hr => exact hf _ _ hr
  | look _ ih => exact .look ih
  | put hw _ ih => exact .put hw ih
  | wake _ ih => exact .wake ih
  | unpark _ ih => exact .unpark ih
  | parkFor _ ih => exact .parkFor ih
  | spawn hb _ _ ihe ihk => exact .spawn hb ihe ihk
  | blockOn hb _ ih => exact .blockOn hb ih
  | figures _ ih => exact .figures ih

theorem mono {Q' : R → R → Prop} (h : p.Like κ Q p') (hQ : ∀ r r', Q r r' → Q' r r') :
    p.Like κ Q' p' := by
  rw [← p.bind_done, ← p'.bind_done]
  exact h.bind fun r r' hr ↦ .done (hQ r r' hr)

/-- Both get the result of a run to completion, if they wait for one. -/
theorem answered (h : p.Like κ Q p') (r : Except Failure (Option V)) :
    (Doing.answered r p).Like κ Q (Doing.answered r p') := by
  cases h with
  | blockOn _ hk => exact hk r
  | done hr => exact .done hr
  | look hk => exact .look hk
  | put hw hk => exact .put hw hk
  | wake hk => exact .wake hk
  | unpark hk => exact .unpark hk
  | parkFor hk => exact .parkFor hk
  | spawn hb he hk => exact .spawn hb he hk
  | figures hk => exact .figures hk

end Act.Like

namespace Likeness

variable (κ : Likeness W B)

/-- Two polls have ended alike: with the same result, and with bodies that are alike. -/
def Ends (r r' : Polled V × B) : Prop := r.1 = r'.1 ∧ κ.body r.2 r'.2

theorem ends_symm : (fun r r' : Polled V × B ↦ κ.Ends r' r) = κ.symm.Ends :=
  funext fun _ ↦ funext fun _ ↦ propext (and_congr_left fun _ ↦ eq_comm)

end Likeness

theorem eq_flip {A : Type} : (fun a a' : A ↦ a' = a) = Eq :=
  funext fun _ ↦ funext fun _ ↦ propext eq_comm

/-- **A behaviour respects a likeness**: what tasks do does not depend on what their ids are. -/
structure Behaviour.Respects (β : Behaviour W B V) (κ : Likeness W B) : Prop where
  /-- Bodies that are alike are polled alike. -/
  poll : ∀ b b' w, κ.body b b' → (β.poll b w).Like κ κ.Ends (β.poll b' (κ.waker w))
  /-- Bodies that are alike are destroyed alike. -/
  drop : ∀ b b' w w', κ.body b b' → κ.world w w' → κ.world (β.drop b w) (β.drop b' w')

/-- **The surroundings respect a likeness**: what happens around the loop is the same in worlds that
are alike. -/
structure Surroundings.Respects (σ : Surroundings W B V) (κ : Likeness W B) : Prop where
  /-- The same happens when a table is found empty. -/
  finished : ∀ w w', κ.world w w' → κ.world (σ.finished w) (σ.finished w')
  /-- Parkings are announced alike. -/
  announce : ∀ n, (σ.announce n).Like κ Eq (σ.announce n)
  /-- The same happens while the thread is about to park. -/
  asleep : σ.asleep.Like κ Eq σ.asleep

theorem Behaviour.Respects.symm {β : Behaviour W B V} {κ : Likeness W B} (h : β.Respects κ) :
    β.Respects κ.symm where
  poll b b' w hb := by
    have hp := (h.poll b' b (κ.symm.waker w) hb).symm
    rw [show κ.waker (κ.symm.waker w) = w from κ.symm.symm_waker w] at hp
    rwa [κ.ends_symm] at hp
  drop b b' w w' hb hw := h.drop b' b w' w hb hw

theorem Surroundings.Respects.symm {σ : Surroundings W B V} {κ : Likeness W B} (h : σ.Respects κ) :
    σ.Respects κ.symm where
  finished w w' hw := h.finished w' w hw
  announce n := by
    have hp := (h.announce n).symm
    rwa [eq_flip] at hp
  asleep := by
    have hp := h.asleep.symm
    rwa [eq_flip] at hp

end TaskRuntime
