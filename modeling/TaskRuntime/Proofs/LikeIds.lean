import TaskRuntime.Proofs.Ids
import TaskRuntime.Proofs.LikeSites

/-!
# Two likenesses

Two ways to compare what an executor does with what it would do with one id less to give out.

* `movedUp` moves up the ids that have not been given out. As ids are given out one after the other,
  those of one side go on standing for those of the other (`follows_of_movedUp`). Whether bodies
  respect a likeness that does this to ids is up to the bodies.
* `Likeness.exact` leaves everything as it is, so all behaviours respect it. It serves where both
  sides have the same ids left.
-/

namespace TaskRuntime

variable {W B V R : Type} {κ : Likeness W B}

/-! ### Ids that move up -/

/-- Leaves the ids below a given one as they are, and moves all others up by one. The last of all
ids takes the place that becomes free. -/
def movedUp (first : TaskId) : Equiv.Perm TaskId where
  toFun i := if i < first then i else if i + 1 = 0 then first else i + 1
  invFun i := if i < first then i else if i = first then 0 - 1 else i - 1
  left_inv i := by grind
  right_inv i := by grind

section Ids

variable {first next i : TaskId} {h : List (Note V)}

theorem movedUp_of_lt (hi : i < first) : movedUp first i = i := if_pos hi

theorem movedUp_of_le (hi : first ≤ i) (hne : i + 1 ≠ 0) : movedUp first i = i + 1 := by
  show (if i < first then i else if i + 1 = 0 then first else i + 1) = i + 1
  rw [if_neg (UInt64.not_lt.2 hi), if_neg hne]

theorem movedUp_symm_of_lt (hi : first < i) : (movedUp first).symm i = i - 1 := by
  show (if i < first then i else if i = first then 0 - 1 else i - 1) = i - 1
  rw [if_neg (UInt64.not_lt.2 (UInt64.le_of_lt hi)), if_neg (UInt64.ne_of_lt hi).symm]

/-- The next id tells how many have been given out. -/
theorem Numbered.toNat_eq (hn : Numbered next h) (hlen : (issuedIds h).length + 1 < UInt64.size) :
    next.toNat = (issuedIds h).length + 1 := by
  rw [hn.2, UInt64.toNat_add, UInt64.toNat_ofNat_of_lt' (Nat.lt_of_succ_lt hlen), Nat.add_comm]
  exact Nat.mod_eq_of_lt hlen

/-- The ids that have been given out are below the next one. -/
theorem Numbered.lt (hn : Numbered next h) (hlen : (issuedIds h).length + 1 < UInt64.size)
    (hi : .issued i ∈ h) : i < next := by
  have hmem := mem_issuedIds.2 hi
  rw [hn.1, firstIds, List.mem_map] at hmem
  obtain ⟨k, hk, rfl⟩ := hmem
  rw [List.mem_range] at hk
  have hk' : k + 1 < UInt64.size := by omega
  rw [UInt64.lt_iff_toNat_lt, hn.toNat_eq hlen, UInt64.toNat_add,
    UInt64.toNat_ofNat_of_lt' (Nat.lt_of_succ_lt hk'), Nat.add_comm]
  refine Nat.lt_of_le_of_lt (Nat.le_of_eq (Nat.mod_eq_of_lt hk')) ?_
  exact Nat.succ_lt_succ hk

theorem toNat_succ (hi : i.toNat + 1 < UInt64.size) : (i + 1).toNat = i.toNat + 1 := by
  rw [UInt64.toNat_add]
  exact Nat.mod_eq_of_lt hi

theorem succ_ne_zero (hi : i.toNat + 1 < UInt64.size) : i + 1 ≠ 0 := by
  intro he
  have hzero := congrArg UInt64.toNat he
  rw [toNat_succ hi] at hzero
  exact absurd hzero (Nat.succ_ne_zero _)

theorem lt_succ (hi : i.toNat + 1 < UInt64.size) : i < i + 1 := by
  rw [UInt64.lt_iff_toNat_lt, toNat_succ hi]
  exact Nat.lt_succ_self _

/-- Ids that are moved up follow each other as they did. -/
theorem follows_of_movedUp {s : Site W B} (hκ : κ.ids = movedUp first)
    (hle : first ≤ s.executor.nextId) (hlt : s.executor.nextId.toNat + 2 < UInt64.size) :
    κ.Follows s := by
  have hnext : s.executor.nextId.toNat + 1 < UInt64.size := Nat.lt_of_succ_lt hlt
  have hle' : first ≤ s.executor.nextId + 1 := UInt64.le_trans hle (UInt64.le_of_lt (lt_succ hnext))
  have hlt' : (s.executor.nextId + 1).toNat + 1 < UInt64.size := by
    rw [toNat_succ hnext]
    exact hlt
  rw [Likeness.Follows, hκ, movedUp_of_le hle (succ_ne_zero hnext),
    movedUp_of_le hle' (succ_ne_zero hlt')]

/-- Ids that are moved back follow each other as they did. -/
theorem follows_symm_of_movedUp {s : Site W B} (hκ : κ.ids = movedUp first)
    (hlt : first < s.executor.nextId) (hnext : s.executor.nextId.toNat + 1 < UInt64.size) :
    κ.symm.Follows s := by
  have hlt' : first < s.executor.nextId + 1 := UInt64.lt_trans hlt (lt_succ hnext)
  show κ.ids.symm (s.executor.nextId + 1) = κ.ids.symm s.executor.nextId + 1
  rw [hκ, movedUp_symm_of_lt hlt, movedUp_symm_of_lt hlt', UInt64.add_sub_cancel,
    UInt64.sub_add_cancel]

/-- Two sides that have given out the same ids before the first that moves up, and as many since,
go on standing for each other. -/
theorem Numbered.follows {s : Site W B} {h₁ : List (Note V)} (hfirst : Numbered first h)
    (hκ : κ.ids = movedUp first) (hn : Numbered s.executor.nextId (h ++ h₁))
    (hlen : (issuedIds (h ++ h₁)).length + 3 < UInt64.size) : κ.Follows s := by
  have hlen' := hlen
  rw [issuedIds_append, List.length_append] at hlen'
  have hnext := hn.toNat_eq (by omega)
  refine follows_of_movedUp hκ ?_ (by omega)
  rw [UInt64.le_iff_toNat_le, hfirst.toNat_eq (by omega), hnext, issuedIds_append,
    List.length_append]
  omega

/-- So do they in the other direction: the side that is ahead has given out the first id that moves
up. -/
theorem Numbered.follows_symm {s : Site W B} {h₁ : List (Note V)} (hfirst : Numbered first h)
    (hκ : κ.ids = movedUp first) (hn : Numbered s.executor.nextId (h ++ [.issued first] ++ h₁))
    (hlen : (issuedIds (h ++ h₁)).length + 3 < UInt64.size) : κ.symm.Follows s := by
  rw [issuedIds_append, List.length_append] at hlen
  have hcount : (issuedIds (h ++ [.issued first] ++ h₁)).length =
      (issuedIds h).length + 1 + (issuedIds h₁).length := by
    rw [issuedIds_append, issuedIds_append, List.length_append, List.length_append]
    rfl
  have hnext := hn.toNat_eq (by omega)
  refine follows_symm_of_movedUp hκ ?_ (by omega)
  rw [UInt64.lt_iff_toNat_lt, hfirst.toNat_eq (by omega), hnext]
  omega

end Ids

/-! ### The exact likeness -/

namespace Likeness

/-- Everything stands for itself. -/
def exact (q : QueueRef) (p : ParkerRef) : Likeness W B where
  queue := q
  parker := p
  ids := Equiv.refl _
  world := Eq
  body := Eq
  exists_right w := ⟨w, rfl⟩
  exists_left w := ⟨w, rfl⟩

variable {q : QueueRef} {p : ParkerRef}

theorem waker_exact (w : Waker) : (exact q p : Likeness W B).waker w = w := by
  unfold waker
  split <;> rfl

end Likeness

theorem Act.like_exact {q : QueueRef} {p : ParkerRef} {Q : R → R → Prop} (hQ : ∀ r, Q r r)
    (a : Act W B V R) : a.Like (.exact q p) Q a := by
  induction a with
  | done r => exact .done (hQ r)
  | look k ih => exact .look fun w w' hw ↦ hw ▸ ih w
  | put w k ih => exact .put rfl ih
  | wake w k ih =>
    have hwake := Act.Like.wake (w := w) ih
    rwa [Likeness.waker_exact] at hwake
  | unpark k ih => exact .unpark ih
  | parkFor k ih => exact .parkFor ih
  | spawn b k ih => exact .spawn rfl (fun e ↦ ih _) fun id ↦ ih _
  | blockOn b k ih => exact .blockOn rfl ih
  | figures k ih => exact .figures ih

/-- Every behaviour respects the exact likeness. -/
theorem Behaviour.respects_exact (β : Behaviour W B V) (q : QueueRef) (p : ParkerRef) :
    β.Respects (.exact q p) where
  poll b b' w hb := by
    obtain rfl : b = b' := hb
    rw [Likeness.waker_exact]
    exact Act.like_exact (fun r ↦ ⟨rfl, rfl⟩) _
  drop b b' w w' hb hw := by
    obtain rfl : b = b' := hb
    obtain rfl : w = w' := hw
    rfl

/-- All surroundings respect the exact likeness. -/
theorem Surroundings.respects_exact (σ : Surroundings W B V) (q : QueueRef) (p : ParkerRef) :
    σ.Respects (.exact q p) where
  finished _ _ hw := congrArg σ.finished hw
  announce _ := Act.like_exact (fun _ ↦ rfl) _
  asleep := Act.like_exact (fun _ ↦ rfl) _

end TaskRuntime
