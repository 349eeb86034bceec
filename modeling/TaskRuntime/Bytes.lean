/-!
# Byte strings

Texts, paths, request heads and file contents are byte strings: nothing in this library depends on
their being valid UTF-8. A byte string is a plain list, so every rule about it is a rule about
lists.

## Contents

* `Bytes.utf8` turns a literal into its bytes.
* `Bytes.upToNul` is the part of a byte string that a NUL-terminated reader sees.
* `Bytes.splitFirst` and `Bytes.hasInfix` are the two searches that the request parsers need.
-/

namespace TaskRuntime

/-- A byte string. -/
abbrev Bytes := List UInt8

namespace Bytes

/-- The UTF-8 bytes of a text. -/
def utf8 (s : String) : Bytes := s.toUTF8.data.toList

/-! ### Single bytes -/

/-- The byte of a space. -/
def space : UInt8 := 32

/-- The byte of a line feed. -/
def lineFeed : UInt8 := 10

/-- The byte of a slash. -/
def slash : UInt8 := 47

/-- A lower-case letter for an upper-case ASCII letter, and every other byte as it is. -/
def lowerByte (b : UInt8) : UInt8 := if 65 ≤ b ∧ b ≤ 90 then b + 32 else b

/-- ASCII letters in lower case; bytes outside `A` to `Z` do not change. -/
def lower (s : Bytes) : Bytes := s.map lowerByte

/-! ### Cutting and searching -/

/-- What a reader that stops at the first NUL sees. -/
def upToNul (s : Bytes) : Bytes := s.takeWhile (· ≠ 0)

/-- The parts before and after the first occurrence of a byte, if there is one. -/
def splitFirst (b : UInt8) : Bytes → Option (Bytes × Bytes)
  | [] => none
  | c :: rest =>
    if c = b then some ([], rest)
    else (splitFirst b rest).map fun (before, after) ↦ (c :: before, after)

/-- Whether `pattern` occurs somewhere in the byte string. -/
def hasInfix (pattern : Bytes) : Bytes → Bool
  | [] => pattern.isEmpty
  | c :: rest => pattern.isPrefixOf (c :: rest) || hasInfix pattern rest

/-! ### Laws of the two searches -/

/-- A split loses nothing but the separator, and the separator is the first one. -/
theorem splitFirst_eq_some_iff {b : UInt8} {s before after : Bytes} :
    splitFirst b s = some (before, after) ↔ s = before ++ b :: after ∧ b ∉ before := by
  induction s generalizing before with
  | nil => simp [splitFirst]
  | cons c rest ih =>
    by_cases h : c = b
    · subst h
      cases before with
      | nil => simp [splitFirst]
      | cons d before => simp +contextual [splitFirst]
    · cases before with
      | nil => simp [splitFirst, h]
      | cons d before =>
        simp only [splitFirst, h, if_false, Option.map_eq_some_iff, Prod.mk.injEq, Prod.exists]
        constructor
        · rintro ⟨x, y, hxy, hx, rfl⟩
          obtain ⟨rfl, rfl⟩ : c = d ∧ x = before := by simpa using hx
          obtain ⟨hs, hn⟩ := ih.1 hxy
          exact ⟨by simp [hs], by simp [hn, Ne.symm h]⟩
        · rintro ⟨hs, hn⟩
          obtain ⟨rfl, rfl⟩ : c = d ∧ rest = before ++ b :: after := by simpa using hs
          exact ⟨before, after, ih.2 ⟨rfl, fun hm ↦ hn (List.mem_cons_of_mem _ hm)⟩, rfl, rfl⟩

/-- There is nothing to split at exactly when the byte does not occur. -/
theorem splitFirst_eq_none_iff {b : UInt8} {s : Bytes} : splitFirst b s = none ↔ b ∉ s := by
  induction s with
  | nil => simp [splitFirst]
  | cons c rest ih =>
    by_cases h : c = b
    · simp [splitFirst, h]
    · simp [splitFirst, h, ih, Ne.symm h]

/-- A pattern occurs exactly when the byte string has it between two parts. -/
theorem hasInfix_iff {pattern s : Bytes} : hasInfix pattern s = true ↔ pattern <:+: s := by
  induction s with
  | nil => simp [hasInfix]
  | cons c rest ih => simp [hasInfix, ih, List.infix_cons_iff]

@[simp] theorem lower_nil : lower [] = [] := rfl

@[simp] theorem length_lower (s : Bytes) : (lower s).length = s.length := by simp [lower]

/-- A byte string without NUL is seen whole. -/
theorem upToNul_eq_self {s : Bytes} (h : 0 ∉ s) : upToNul s = s := by
  induction s with
  | nil => rfl
  | cons c rest ih =>
    obtain ⟨hc, hr⟩ : ¬ 0 = c ∧ 0 ∉ rest := by simpa using h
    have tail := ih hr
    simp only [upToNul, ne_eq, decide_not] at tail ⊢
    simp [tail, Ne.symm hc]

end Bytes

end TaskRuntime
