import Mathlib.Data.List.Induction
import TaskRuntime.Proofs.DeadReactor
import TaskRuntime.Proofs.Ids

/-!
# Tokens

A reactor counts tokens as an executor counts ids: from the first one on, and around at the end of a
word. The token of the notifier is the greatest word, so it is the one after `freshTokens` others;
until then tokens differ from each other, from zero and from that of the notifier.

What is stored under a token can be read off the reports about the reactor: the waker that has been
left under it, unless it has been replaced or dropped since (`get?_written_eq_some_iff`). The steps
of a poll change what is stored as they tell (`ReadToEnd.Reading.reactor_tick`), and tell of no
other token than that of their future.
-/

namespace TaskRuntime

/-! ### Counting -/

namespace Reactor

/-- How many tokens are issued before that of the notifier: all words but that one and zero. -/
def freshTokens : Nat := 0xFFFFFFFFFFFFFFFE

theorem freshTokens_add_two : freshTokens + 2 = UInt64.size := rfl

/-- The token that is issued after so many others. -/
def tokenAfter (count : Nat) : Token := firstToken + UInt64.ofNat count

/-- So many tokens, from the first one on. -/
def firstTokens (count : Nat) : List Token := (List.range count).map tokenAfter

theorem firstTokens_succ (count : Nat) :
    firstTokens (count + 1) = firstTokens count ++ [tokenAfter count] := by
  simp [firstTokens, List.range_succ]

theorem tokenAfter_succ (count : Nat) : tokenAfter (count + 1) = tokenAfter count + 1 := by
  rw [tokenAfter, tokenAfter, UInt64.ofNat_add]
  exact (UInt64.add_assoc _ _ _).symm

/-- Tokens are counted as ids are. -/
theorem nodup_firstTokens {count : Nat} (h : count ≤ UInt64.size) : (firstTokens count).Nodup :=
  nodup_firstIds h

theorem take_firstTokens (count k : Nat) :
    (firstTokens count).take k = firstTokens (min k count) := by
  rw [firstTokens, ← List.map_take, List.take_range, firstTokens]

theorem getElem?_firstTokens {count i : Nat} {t : Token} :
    (firstTokens count)[i]? = some t ↔ i < count ∧ tokenAfter i = t := by
  rw [List.getElem?_eq_some_iff]
  simp [firstTokens]

/-- Up to the token of the notifier, counting does not go around. -/
theorem toNat_tokenAfter {count : Nat} (h : count ≤ freshTokens) :
    (tokenAfter count).toNat = count + 1 := by
  have hsize := freshTokens_add_two
  have hcount : (UInt64.ofNat count).toNat = count := UInt64.toNat_ofNat_of_lt' (by omega)
  have hfirst : firstToken.toNat = 1 := rfl
  rw [tokenAfter, UInt64.toNat_add, hfirst, hcount, Nat.add_comm]
  exact Nat.mod_eq_of_lt (show count + 1 < UInt64.size by omega)

/-- The token after the fresh ones is that of the notifier. -/
theorem tokenAfter_freshTokens : tokenAfter freshTokens = notifyToken := rfl

theorem tokenAfter_ne_zero {count : Nat} (h : count ≤ freshTokens) : tokenAfter count ≠ 0 := by
  intro h0
  have hnat := toNat_tokenAfter h
  rw [h0] at hnat
  cases hnat

theorem tokenAfter_ne_notifyToken {count : Nat} (h : count < freshTokens) :
    tokenAfter count ≠ notifyToken := by
  rw [← tokenAfter_freshTokens]
  intro heq
  have hnat := congrArg UInt64.toNat heq
  rw [toNat_tokenAfter (Nat.le_of_lt h), toNat_tokenAfter (Nat.le_refl _)] at hnat
  omega

theorem tokenAfter_inj {i j : Nat} (hi : i < freshTokens) (hj : j < freshTokens)
    (h : tokenAfter i = tokenAfter j) : i = j := by
  have hnat := congrArg UInt64.toNat h
  rw [toNat_tokenAfter (Nat.le_of_lt hi), toNat_tokenAfter (Nat.le_of_lt hj)] at hnat
  omega

end Reactor

/-! ### What reports say about the wakers -/

namespace Report

/-- The wakers after what is reported. -/
def write (wakers : Table Token Waker) : Report → Table Token Waker
  | left t w => wakers.insert t w
  | forgotten t => wakers.erase t
  | _ => wakers

/-- The wakers after all that is reported, of which none were stored before. -/
def written (ks : List Report) : Table Token Waker := ks.foldl write .empty

theorem written_concat (ks : List Report) (k : Report) :
    written (ks ++ [k]) = write (written ks) k := List.foldl_append

/-- **What is stored under a token** is the waker that has been left under it, unless it has been
replaced or dropped since. -/
theorem get?_written_eq_some_iff {ks : List Report} {t : Token} {w : Waker} :
    (written ks).get? t = some w ↔ Since (· = .left t w) (Touches t) ks := by
  induction ks using List.reverseRecOn with
  | nil => simp [written, not_since_nil]
  | append_singleton ks k ih =>
    rw [written_concat, since_concat, ← ih]
    cases k with
    | left u v =>
      rw [write, Table.get?_insert]
      by_cases hu : u = t
      · simp [hu, Touches]
      · simp [hu, Touches]
    | forgotten u =>
      rw [write, Table.get?_erase]
      by_cases hu : u = t
      · simp [hu, Touches]
      · simp [hu, Touches]
    | _ => simp [write, Touches]

/-- An operation that is refused touches no waker. -/
theorem touches_of_verdict {r : Except Failure Unit} {k k' : Report} {t : Token}
    (hk : k ∈ verdict k' r) (ht : k.Touches t) : k'.Touches t := by
  rcases r with x | _
  · obtain rfl := List.mem_singleton.1 hk
    exact ht.elim
  · obtain rfl := List.mem_singleton.1 hk
    exact ht

end Report

namespace Environment

variable {K : Type}

/-- Leaving a waker changes what is stored as it tells. -/
theorem reactor_setWaker (e : Environment K) (t : Token) (w : Waker) :
    (e.setWaker t w).2.reactor =
      { e.reactor with
        wakers := (Report.verdict (.left t w) (e.setWaker t w).1).foldl Report.write
          e.reactor.wakers } := by
  rcases hf : e.reactor.failure with _ | reason
  · rw [setWaker_of_alive hf]
    rfl
  · rw [setWaker_of_failed hf]
    rfl

end Environment

namespace ReadToEnd.Reading

variable {K : Type} [Kernel K] {opening : Opening K} {w : Waker} {f : ReadToEnd} {m : Moment}
  {e : Environment K}

/-- **A step of a poll** changes of the reactor what is stored, and that as it tells. -/
theorem reactor_tick : (tick opening w ⟨f, m⟩ e).2.reactor =
    { e.reactor with wakers := (tells w ⟨f, m⟩ e).foldl Report.write e.reactor.wakers } := by
  cases m with
  | opening =>
    dsimp only [tick, Environment.onSystem, Environment.note]
    generalize opening f.owned _ = r
    rcases r with ⟨x | owned, s⟩ <;> rfl
  | reading =>
    dsimp only [tick, tells, read]
    rcases Kernel.read e.kernel f.owned.number f.chunk with ⟨x | ⟨_ | ⟨b, bs⟩⟩, k⟩
    · dsimp only
      split
      · rfl
      · split <;> rfl
    · rfl
    · rfl
  | checking =>
    rw [tick, andThen_snd, tells]
    rcases e.reactor.check with x | u <;> rfl
  | arming =>
    rw [tick, andThen_snd]
    exact e.reactor_setWaker f.token w
  | rearming =>
    rw [tick, andThen_snd]
    exact e.reactor_setWaker f.token w
  | forgetting => rfl
  | complete r => rfl
  | _ =>
    rw [tick, andThen_snd]
    rfl

/-- A step of a poll replaces and drops the waker of its future only. -/
theorem eq_of_touches_tells {k : Report} {t : Token} (hk : k ∈ tells w ⟨f, m⟩ e)
    (ht : k.Touches t) : f.token = t := by
  cases m with
  | checking => exact (Report.touches_of_verdict hk ht).elim
  | arming => exact Report.touches_of_verdict hk ht
  | rearming => exact Report.touches_of_verdict hk ht
  | forgetting =>
    obtain rfl := List.mem_singleton.1 hk
    exact ht
  | reading =>
    dsimp only [tells] at hk
    split at hk
    · obtain rfl := List.mem_singleton.1 hk
      exact ht.elim
    · cases hk
  | _ => cases hk

end ReadToEnd.Reading

end TaskRuntime
