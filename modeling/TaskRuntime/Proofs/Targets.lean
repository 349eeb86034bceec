import TaskRuntime.Proofs.Numerals

/-!
# What a request head asks for

The target of a head stands between its first two spaces, and is cut into a segment for the delay
and a message (`DelayServer.IsTarget`, `DelayServer.Parts`). The server accepts a head exactly when
there is such a target whose segment is granted a delay
(`DelayServer.Target.accepted?_eq_some_iff`).

A segment ought to be a numeral in full, and its delay the number that it denotes
(`DelayServer.Understood`). What is granted goes further: a segment is read up to its first NUL
only, and its number is saturated at 64 bits and then cut to 32. So what is accepted is understood
exactly when there is no NUL in the segment and no number in it that is too large for 32 bits
(`DelayServer.Target.understood_iff_of_accepted`), and not all that is accepted is understood
(`DelayServer.Target.accepted_not_understood`).
-/

namespace TaskRuntime

namespace DelayServer

open Numeral (IsNumeral)

/-! ### How a head is cut -/

/-- The target of a head stands between its first two spaces. -/
def IsTarget (head target : Bytes) : Prop :=
  ∃ before after, head = before ++ Bytes.space :: (target ++ Bytes.space :: after) ∧
    Bytes.space ∉ before ∧ Bytes.space ∉ target

/-- A target is a slash and a segment without slashes, which another slash and a message may
follow. -/
inductive Parts : Bytes → Bytes → Bytes → Prop
  /-- There is no other slash. -/
  | bare {segment : Bytes} (h : Bytes.slash ∉ segment) :
    Parts (Bytes.slash :: segment) segment []
  /-- All that follows the other slash is the message. -/
  | full {segment message : Bytes} (h : Bytes.slash ∉ segment) :
    Parts (Bytes.slash :: (segment ++ Bytes.slash :: message)) segment message

variable {head target segment message rest : Bytes} {delay : Int}

theorem targetText_eq_some_iff : targetText head = some target ↔ IsTarget head target := by
  rw [targetText, Option.bind_eq_bind, Option.bind_eq_some_iff]
  constructor
  · rintro ⟨⟨before, rest⟩, hfirst, h⟩
    obtain ⟨⟨_, after⟩, hsecond, h⟩ := Option.bind_eq_some_iff.1 h
    obtain rfl := Option.some.inj h
    obtain ⟨rfl, hbefore⟩ := Bytes.splitFirst_eq_some_iff.1 hfirst
    obtain ⟨rfl, htarget⟩ := Bytes.splitFirst_eq_some_iff.1 hsecond
    exact ⟨before, after, rfl, hbefore, htarget⟩
  · rintro ⟨before, after, rfl, hbefore, htarget⟩
    refine ⟨(before, _), Bytes.splitFirst_eq_some_iff.2 ⟨rfl, hbefore⟩, ?_⟩
    dsimp only
    rw [Bytes.splitFirst_eq_some_iff.2 ⟨rfl, htarget⟩]
    rfl

/-- A slash and what is split into a segment and a message make a target of these parts. -/
theorem parts_cons_iff :
    Parts (Bytes.slash :: rest) segment message ↔ splitSegment rest = (segment, message) := by
  rw [splitSegment]
  constructor
  · intro h
    cases h with
    | bare h => rw [Bytes.splitFirst_eq_none_iff.2 h, Option.getD_none]
    | full h => rw [Bytes.splitFirst_eq_some_iff.2 ⟨rfl, h⟩, Option.getD_some]
  · intro h
    cases hsplit : Bytes.splitFirst Bytes.slash rest with
    | none =>
      rw [hsplit, Option.getD_none] at h
      obtain ⟨rfl, rfl⟩ := Prod.mk.inj h
      exact .bare (Bytes.splitFirst_eq_none_iff.1 hsplit)
    | some parts =>
      rw [hsplit, Option.getD_some] at h
      subst h
      obtain ⟨rfl, hslash⟩ := Bytes.splitFirst_eq_some_iff.1 hsplit
      exact .full hslash

/-- A target of parts begins with a slash. -/
theorem Parts.exists_cons (h : Parts target segment message) :
    ∃ rest, target = Bytes.slash :: rest := by
  cases h with
  | bare => exact ⟨_, rfl⟩
  | full => exact ⟨_, rfl⟩

/-! ### Which delay is granted -/

/-- **The delay that a segment is granted.** -/
inductive Granted (segment : Bytes) : Int → Prop
  /-- A segment that begins with a NUL is granted none. -/
  | nothing (h : segment.head? = some 0) : Granted segment 0
  /-- Other segments are granted what they denote up to their first NUL, as far as 32 bits can hold
  it. -/
  | number {n : Int} (h : IsNumeral (Bytes.upToNul segment) n) (hn : 0 ≤ n) :
    Granted segment (Numeral.wrap32 (Numeral.saturate64 n))

theorem upToNul_eq_nil_iff :
    Bytes.upToNul segment = [] ↔ segment = [] ∨ segment.head? = some 0 := by
  cases segment with
  | nil => simp [Bytes.upToNul]
  | cons b rest => simp [Bytes.upToNul, List.takeWhile_cons]

/-- Saturating leaves the sign of a number as it is. -/
theorem saturate64_nonneg_iff {n : Int} : 0 ≤ Numeral.saturate64 n ↔ 0 ≤ n := by
  rw [Numeral.saturate64]
  omega

/-- A segment asks for a delay exactly when it is granted this delay. -/
theorem delayOf_eq_some_iff : delayOf segment = some delay ↔ Granted segment delay := by
  rw [delayOf]
  constructor
  · intro h
    split at h
    · cases h
    · next hne =>
      dsimp only at h
      split at h
      · next hread =>
        split at h
        · next hempty =>
          obtain rfl := Option.some.inj h
          rw [List.isEmpty_iff] at hne hempty
          exact .nothing ((upToNul_eq_nil_iff.1 hempty).resolve_left hne)
        · cases h
      · next n rest hread =>
        split at h
        · next hfull =>
          obtain rfl := Option.some.inj h
          obtain ⟨hrest, hn⟩ := hfull
          rw [List.isEmpty_iff] at hrest
          rw [hrest] at hread
          exact .number (Numeral.isNumeral_of_read? hread) (saturate64_nonneg_iff.1 hn)
        · cases h
  · intro h
    cases h with
    | nothing hzero =>
      have hseen : Bytes.upToNul segment = [] := upToNul_eq_nil_iff.2 (.inr hzero)
      have hne : segment.isEmpty = false := by
        cases segment with
        | nil => cases hzero
        | cons b rest => rfl
      rw [hseen, hne]
      rfl
    | @number n hnumeral hn =>
      have hne : segment.isEmpty = false := by
        cases segment with
        | nil => exact absurd rfl hnumeral.ne_nil
        | cons b rest => rfl
      rw [hne, if_neg Bool.false_ne_true]
      dsimp only
      rw [hnumeral.read?_eq]
      dsimp only
      rw [if_pos ⟨rfl, saturate64_nonneg_iff.2 hn⟩]

/-! ### What is accepted -/

namespace Target

/-- **The server accepts a head** exactly when the head has a target whose segment is granted a
delay. -/
theorem accepted?_eq_some_iff : (ofHead head).accepted? = some (delay, message) ↔
    ∃ target segment, IsTarget head target ∧ Parts target segment message ∧
      Granted segment delay := by
  constructor
  · intro h
    rw [ofHead] at h
    split at h
    · next b rest htarget =>
      split at h
      · next hslash =>
        obtain rfl := hslash
        obtain ⟨d, hd, hpair⟩ := Option.map_eq_some_iff.1 h
        obtain ⟨rfl, rfl⟩ := Prod.mk.inj hpair
        exact ⟨_, _, targetText_eq_some_iff.1 htarget, parts_cons_iff.2 rfl,
          delayOf_eq_some_iff.1 hd⟩
      · cases h
    · cases h
  · rintro ⟨target, segment, htarget, hparts, hgranted⟩
    obtain ⟨rest, rfl⟩ := hparts.exists_cons
    rw [ofHead, targetText_eq_some_iff.2 htarget]
    dsimp only
    rw [if_pos rfl, parts_cons_iff.1 hparts, accepted?, delayOf_eq_some_iff.2 hgranted]
    rfl

end Target

/-! ### What is understood -/

/-- **A delay is what its segment says**: the segment is a numeral in full, which denotes the delay,
and the delay is not negative. -/
structure Understood (segment : Bytes) (delay : Int) : Prop where
  /-- The segment denotes the delay. -/
  denotes : IsNumeral segment delay
  /-- The delay is not negative. -/
  nonneg : 0 ≤ delay

/-- The largest number that 32 bits can hold. -/
def maxDelay : Int := 0x7FFFFFFF

theorem wrap32_le (n : Int) : Numeral.wrap32 n ≤ maxDelay := by
  have h := Int.bmod_lt (x := n) (m := 0x100000000) (by decide)
  rw [Numeral.wrap32, maxDelay]
  omega

/-- A number that 32 bits can hold is kept. -/
theorem wrap32_saturate64 {n : Int} (hn : 0 ≤ n) (hle : n ≤ maxDelay) :
    Numeral.wrap32 (Numeral.saturate64 n) = n := by
  rw [maxDelay] at hle
  have hsaturate : Numeral.saturate64 n = n := by
    rw [Numeral.saturate64]
    omega
  rw [hsaturate, Numeral.wrap32]
  exact Int.bmod_eq_of_le (by omega) (by omega)

/-- **A delay that is granted is what its segment says** exactly when there is no NUL in the segment
and no number that is too large. -/
theorem Granted.understood_iff (h : Granted segment delay) : Understood segment delay ↔
    0 ∉ segment ∧ ∀ n, IsNumeral segment n → n ≤ maxDelay := by
  constructor
  · rintro ⟨hnumeral, -⟩
    refine ⟨hnumeral.zero_notMem, fun n hn ↦ ?_⟩
    rw [hn.unique hnumeral]
    cases h with
    | nothing => decide
    | number => exact wrap32_le _
  · rintro ⟨hzero, hsmall⟩
    cases h with
    | nothing hfirst => exact absurd (List.mem_of_mem_head? hfirst) hzero
    | @number n hn hnonneg =>
      rw [Bytes.upToNul_eq_self hzero] at hn
      rw [wrap32_saturate64 hnonneg (hsmall n hn)]
      exact ⟨hn, hnonneg⟩

namespace Target

/-- **A head that is accepted** has a target, whose first segment is granted the delay and whose
rest is the message. It is understood exactly when there is no NUL in the segment and no number that
is too large for 32 bits. -/
theorem understood_iff_of_accepted (h : (ofHead head).accepted? = some (delay, message)) :
    ∃ target segment, IsTarget head target ∧ Parts target segment message ∧
      Granted segment delay ∧
      (Understood segment delay ↔ 0 ∉ segment ∧ ∀ n, IsNumeral segment n → n ≤ maxDelay) := by
  obtain ⟨target, segment, htarget, hparts, hgranted⟩ := accepted?_eq_some_iff.1 h
  exact ⟨target, segment, htarget, hparts, hgranted, hgranted.understood_iff⟩

/-- The longest delay, with white space, a sign and zeros in front of it, is understood. -/
theorem understood_longest :
    (ofHead (Bytes.utf8 "GET /\t+002147483647/a/b HTTP/1.1")).accepted? =
        some (2147483647, Bytes.utf8 "a/b") ∧
      ∃ target segment, IsTarget (Bytes.utf8 "GET /\t+002147483647/a/b HTTP/1.1") target ∧
        Parts target segment (Bytes.utf8 "a/b") ∧ Understood segment 2147483647 := by
  have haccepted : (ofHead (Bytes.utf8 "GET /\t+002147483647/a/b HTTP/1.1")).accepted? =
      some (2147483647, Bytes.utf8 "a/b") := by decide
  obtain ⟨target, segment, htarget, hparts, -, hiff⟩ := understood_iff_of_accepted haccepted
  have htext : targetText (Bytes.utf8 "GET /\t+002147483647/a/b HTTP/1.1") =
      some (Bytes.slash :: Bytes.utf8 "\t+002147483647/a/b") := by decide
  obtain rfl := Option.some.inj ((targetText_eq_some_iff.2 htarget).symm.trans htext)
  have hsplit : splitSegment (Bytes.utf8 "\t+002147483647/a/b") =
      (Bytes.utf8 "\t+002147483647", Bytes.utf8 "a/b") := by decide
  obtain rfl := congrArg Prod.fst ((parts_cons_iff.1 hparts).symm.trans hsplit)
  have hread : Numeral.read? (Bytes.utf8 "\t+002147483647") = some (2147483647, []) := by decide
  refine ⟨haccepted, _, _, htarget, hparts, hiff.2 ⟨by decide, fun n hn ↦ ?_⟩⟩
  rw [hn.unique (Numeral.isNumeral_of_read? hread)]
  decide

/-- **Not all that is accepted is understood**: a number that is too large is cut, and what is left
of it may be negative. -/
theorem accepted_not_understood :
    ¬∀ head message delay, (ofHead head).accepted? = some (delay, message) →
      ∃ target segment, IsTarget head target ∧ Parts target segment message ∧
        Understood segment delay := by
  intro h
  obtain ⟨_, _, _, _, hunderstood⟩ := h (Bytes.utf8 "GET /2147483648/a HTTP/1.1")
    (Bytes.utf8 "a") (-2147483648) (by decide)
  exact absurd hunderstood.nonneg (by decide)

end Target

end DelayServer

end TaskRuntime
