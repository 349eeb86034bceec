import Mathlib.Data.List.TakeWhile
import TaskRuntime.Proofs.Texts

/-!
# What is read as a numeral

The reader of numerals takes as much of a text as it can. It takes the whole text, as a certain
number, exactly when the grammar says that the text denotes this number
(`Numeral.read?_eq_some_nil_iff`); so a text denotes one number at most
(`Numeral.IsNumeral.unique`), and there is no NUL in it (`Numeral.IsNumeral.zero_notMem`).
-/

namespace TaskRuntime

namespace Numeral

variable {s blanks digits : Bytes} {n m : Int}

/-! ### From the grammar to the reader -/

theorem read?_append_of_blanks (hb : ∀ b ∈ blanks, isBlank b = true) :
    read? (blanks ++ s) = read? s := by
  rw [read?, read?, List.dropWhile_append_of_pos hb]

/-- What follows a sign is read as digits. -/
theorem read?_of_sign {sign : UInt8} {negative : Bool} (hblank : isBlank sign = false)
    (hsplit : splitSign (sign :: digits) = (negative, digits)) (hne : digits ≠ [])
    (hd : ∀ b ∈ digits, isDigit b = true) :
    read? (sign :: digits) =
      some ((if negative then -(value digits : Int) else value digits), []) := by
  have htake : digits.takeWhile isDigit = digits := List.takeWhile_eq_self_iff.2 hd
  have hdrop : digits.dropWhile isDigit = [] := List.dropWhile_eq_nil_iff.2 hd
  have hempty : digits.isEmpty = false := by
    rw [List.isEmpty_eq_false_iff]
    exact hne
  rw [read?, List.dropWhile_cons_of_neg (by simp [hblank]), hsplit]
  dsimp only
  rw [htake, hdrop, hempty, if_neg Bool.false_ne_true]

/-- **What denotes a number** is read in full, as this number. -/
theorem IsNumeral.read?_eq (h : IsNumeral s n) : read? s = some (n, []) := by
  cases h with
  | plain hb hne hd => rw [read?_append_of_blanks hb, read?_of_digits hne hd]
  | plus hb hne hd => rw [read?_append_of_blanks hb, read?_of_sign (by decide) rfl hne hd]; rfl
  | minus hb hne hd => rw [read?_append_of_blanks hb, read?_of_sign (by decide) rfl hne hd]; rfl

/-! ### From the reader to the grammar -/

/-- A sign is what splits off in front, if it is there. -/
theorem splitSign_cases (s : Bytes) : splitSign s = (false, s) ∨
    (∃ rest, s = 43 :: rest ∧ splitSign s = (false, rest)) ∨
      ∃ rest, s = 45 :: rest ∧ splitSign s = (true, rest) := by
  unfold splitSign
  split
  · exact .inr (.inl ⟨_, rfl, rfl⟩)
  · exact .inr (.inr ⟨_, rfl, rfl⟩)
  · exact .inl rfl

/-- **What is read in full** denotes the number as which it is read. -/
theorem isNumeral_of_read? (h : read? s = some (n, [])) : IsNumeral s n := by
  have hs : s.takeWhile isBlank ++ s.dropWhile isBlank = s := List.takeWhile_append_dropWhile
  have hblanks : ∀ b ∈ s.takeWhile isBlank, isBlank b = true := fun b hb ↦
    List.mem_takeWhile_imp hb
  rw [read?] at h
  generalize hsplit : splitSign (s.dropWhile isBlank) = split at h
  obtain ⟨negative, unsigned⟩ := split
  dsimp only at h
  split at h
  · cases h
  · next hne =>
    obtain ⟨rfl, hrest⟩ := Prod.mk.inj (Option.some.inj h)
    have hd : ∀ b ∈ unsigned, isDigit b = true := List.dropWhile_eq_nil_iff.1 hrest
    rw [List.takeWhile_eq_self_iff.2 hd] at hne ⊢
    rw [List.isEmpty_iff] at hne
    rw [← hs]
    rcases splitSign_cases (s.dropWhile isBlank) with hnone | ⟨rest, heq, hplus⟩ |
      ⟨rest, heq, hminus⟩
    · obtain ⟨rfl, rfl⟩ := Prod.mk.inj (hsplit.symm.trans hnone)
      exact .plain hblanks hne hd
    · obtain ⟨rfl, rfl⟩ := Prod.mk.inj (hsplit.symm.trans hplus)
      rw [heq]
      exact .plus hblanks hne hd
    · obtain ⟨rfl, rfl⟩ := Prod.mk.inj (hsplit.symm.trans hminus)
      rw [heq]
      exact .minus hblanks hne hd

/-- **The reader accepts the grammar**, and nothing else. -/
theorem read?_eq_some_nil_iff : read? s = some (n, []) ↔ IsNumeral s n :=
  ⟨isNumeral_of_read?, IsNumeral.read?_eq⟩

/-! ### What follows -/

namespace IsNumeral

/-- A text denotes one number at most. -/
theorem unique (hn : IsNumeral s n) (hm : IsNumeral s m) : n = m :=
  congrArg Prod.fst (Option.some.inj (hn.read?_eq.symm.trans hm.read?_eq))

theorem ne_nil (h : IsNumeral s n) : s ≠ [] := by
  rintro rfl
  cases h.read?_eq

/-- A NUL is no part of a numeral. -/
theorem zero_notMem (h : IsNumeral s n) : 0 ∉ s := by
  have hblank {blanks : Bytes} (hb : ∀ b ∈ blanks, isBlank b = true) : (0 : UInt8) ∉ blanks :=
    fun hz ↦ absurd (hb 0 hz) (by decide)
  have hdigit {digits : Bytes} (hd : ∀ b ∈ digits, isDigit b = true) : (0 : UInt8) ∉ digits :=
    fun hz ↦ absurd (hd 0 hz) (by decide)
  cases h with
  | plain hb _ hd => simpa using ⟨hblank hb, hdigit hd⟩
  | plus hb _ hd => simpa using ⟨hblank hb, hdigit hd⟩
  | minus hb _ hd => simpa using ⟨hblank hb, hdigit hd⟩

end IsNumeral

end Numeral

end TaskRuntime
