import Mathlib.Data.List.Chain
import TaskRuntime.Proofs.Watching

/-!
# Chains resolve once and release once

A chain is polled any number of times and then destroyed. Whatever its script and its continuations
do, it has its value at most once and refuses every poll after that; its leaf is destroyed exactly
once, as soon as its value has been handed on or else with the chain; and its continuations are
called at most once each, when the future below has its value. `Chain.Lawful` collects this, and
`Chain.lawful_life` says that it is so.

## How it is shown

A life of a chain is a list of episodes, one for each poll, with what was written down during it. As
long as the chain is whole an episode is a block, one episode may end that, and the rest are
refusals (`Chain.Lives`, `Chain.Spends`). What a block says about the episodes around it is shown by
induction on the block, where each continuation adds something to the end.
-/

namespace TaskRuntime

namespace Chain

variable {W B V S A : Type} {runs E : List Event} {n k : Nat} {r : Outcome} {whole : Bool}
  {text : String} {x : Event}

/-! ### Blocks -/

theorem mem_gone : x ∈ gone n ↔ n = 0 ∧ x = .destroyed := by
  unfold gone
  split <;> simp [*]

/-- A block begins with a question and ends with the answer. -/
theorem Block.exists_eq (h : Block runs n E r whole) :
    ∃ M, E = .asked n :: M ++ [.answered n r] := by
  cases h with
  | leaf => exact ⟨_, rfl⟩
  | value => exact ⟨_, rfl⟩
  | pass => exact ⟨_, rfl⟩
  | @call n E r _ hb =>
    exact ⟨E ++ .called (n + 1) :: .left (n + 1) (r = .ready) :: gone n, by simp⟩

/-- Only continuations are called that the chain has. -/
theorem Block.le_of_called (hruns : ∀ x ∈ runs, x = .ran) (h : Block runs n E r whole)
    (hk : .called k ∈ E) : 0 < k ∧ k ≤ n := by
  induction h with
  | leaf => exact absurd (hruns _ (by simpa using hk)) (by simp)
  | value => exact absurd (hruns _ (by simpa using hk)) (by simp)
  | pass _ _ ih =>
    have hle := ih (by simpa using hk)
    omega
  | @call n E _ _ _ _ ih =>
    obtain hk | rfl : Event.called k ∈ E ∨ k = n + 1 := by simpa [mem_gone] using hk
    · have hle := ih hk
      omega
    · omega

/-- No continuation is called twice. -/
theorem Block.count_called_le (hruns : ∀ x ∈ runs, x = .ran) (h : Block runs n E r whole)
    (k : Nat) : E.count (.called k) ≤ 1 := by
  induction h with
  | leaf =>
    have hr : runs.count (.called k) = 0 := List.count_eq_zero.2 fun hk ↦ by simpa using hruns _ hk
    simp [hr]
  | value =>
    have hr : runs.count (.called k) = 0 := List.count_eq_zero.2 fun hk ↦ by simpa using hruns _ hk
    simp [hr]
  | pass _ _ ih => simpa using ih
  | @call n E r _ hb hr ih =>
    have hgone : (gone n).count (.called k) = 0 := List.count_eq_zero.2 (by simp [mem_gone])
    by_cases hk : k = n + 1
    · subst hk
      have hE : E.count (.called (n + 1)) = 0 :=
        List.count_eq_zero.2 fun hk ↦ absurd (hb.le_of_called hruns hk).2 (Nat.not_succ_le_self n)
      simp [hE, hgone]
    · simpa [hgone, Ne.symm hk] using ih

/-- The leaf is destroyed in the episode in which its value is handed on. -/
theorem Block.count_destroyed (hruns : ∀ x ∈ runs, x = .ran) (h : Block runs n E r whole) :
    E.count .destroyed = if whole = true ∨ n = 0 then 0 else 1 := by
  induction h with
  | leaf =>
    have hr : runs.count .destroyed = 0 := List.count_eq_zero.2 fun hk ↦ by simpa using hruns _ hk
    simp [hr]
  | value =>
    have hr : runs.count .destroyed = 0 := List.count_eq_zero.2 fun hk ↦ by simpa using hruns _ hk
    simp [hr]
  | @pass n E r whole hb hr ih =>
    cases whole with
    | true => simpa using ih
    | false => simpa [(hb.depth_pos hr).ne'] using ih
  | @call n E r _ hb hr ih =>
    obtain rfl := hb.not_whole
    cases n with
    | zero => simpa [gone] using ih
    | succ n => simpa [gone] using ih

/-- Once the leaf has its value the chain is not whole any more. -/
theorem Block.not_whole_of_answered (hruns : ∀ x ∈ runs, x = .ran) (h : Block runs n E r whole)
    (hm : .answered 0 .ready ∈ E) : whole = false := by
  induction h with
  | @leaf r hr =>
    obtain hm | rfl : Event.answered 0 .ready ∈ runs ∨ Outcome.ready = r := by simpa using hm
    · exact absurd (hruns _ hm) (by simp)
    · exact absurd rfl hr
  | value => rfl
  | pass _ _ ih => exact ih (by simpa using hm)
  | call => rfl

/-- Once a continuation has been called the chain is not whole any more. -/
theorem Block.not_whole_of_call (hruns : ∀ x ∈ runs, x = .ran) (h : Block runs n E r whole)
    (hm : .called k ∈ E ∨ ∃ ok, .left k ok ∈ E) : whole = false := by
  induction h with
  | leaf =>
    obtain hm | ⟨ok, hm⟩ := hm
    · exact absurd (hruns _ (by simpa using hm)) (by simp)
    · exact absurd (hruns _ (by simpa using hm)) (by simp)
  | value => rfl
  | pass _ _ ih => exact ih (by simpa using hm)
  | call => rfl

/-- A chain that is not whole any more has had the value of its leaf. -/
theorem Block.answered_of_not_whole (h : Block runs n E r false) : .answered 0 .ready ∈ E := by
  generalize hw : false = whole at h
  induction h with
  | leaf => cases hw
  | value => simp
  | pass _ _ ih => simpa using ih hw
  | call hb _ ih => simpa [mem_gone] using ih hb.not_whole.symm

/-- A failure of the script leaves the chain whole. -/
theorem Block.whole_of_failed (hruns : ∀ x ∈ runs, x = .ran) (h : Block runs n E r whole)
    {e : Failure} (hm : .answered 0 (.failed e) ∈ E) : whole = true := by
  induction h with
  | leaf => rfl
  | value => exact absurd (hruns _ (by simpa using hm)) (by simp)
  | pass _ _ ih => exact ih (by simpa using hm)
  | call hb _ ih =>
    obtain rfl := ih (by simpa [mem_gone] using hm)
    exact absurd hb.not_whole (by simp)

/-- The script is run in every block, if there is one. -/
theorem Block.ran_mem_iff (h : Block runs n E r whole) : .ran ∈ E ↔ .ran ∈ runs := by
  induction h with
  | leaf => simp
  | value => simp
  | pass _ _ ih => simpa using ih
  | call _ _ ih => simpa [mem_gone] using ih

/-- A leaf that is not the whole chain is destroyed as soon as the continuation above it has
returned or failed. -/
theorem Block.released (hruns : ∀ x ∈ runs, x = .ran) (h : Block runs n E r whole) (hn : 0 < n)
    (hm : .answered 0 .ready ∈ E) : ∃ a ok b, E = a ++ [.left 1 ok, .destroyed] ++ b := by
  induction h with
  | leaf => exact absurd hn (Nat.lt_irrefl 0)
  | value => exact absurd hn (Nat.lt_irrefl 0)
  | @pass n E r whole hb hr ih =>
    have hm : .answered 0 .ready ∈ E := by simpa using hm
    obtain rfl := hb.not_whole_of_answered hruns hm
    obtain ⟨a, ok, b, rfl⟩ := ih (hb.depth_pos hr) hm
    exact ⟨.asked (n + 1) :: a, ok, b ++ [.answered (n + 1) r], by simp⟩
  | @call n E r whole hb hr ih =>
    cases n with
    | zero => exact ⟨.asked 1 :: E ++ [.called 1], r = .ready, [.answered 1 r], by simp [gone]⟩
    | succ n =>
      obtain ⟨a, ok, b, rfl⟩ := ih (Nat.succ_pos n) (by simpa [mem_gone] using hm)
      exact ⟨.asked (n + 2) :: a, ok, b ++ .called (n + 2) :: .left (n + 2) (r = .ready) ::
        gone (n + 1) ++ [.answered (n + 2) r], by simp⟩

/-- The event that may come right before another: before a continuation is called, the future below
has its value. -/
def Heeds (x y : Event) : Prop := ∀ k, y = .called k → ∃ m, k = m + 1 ∧ x = .answered m .ready

theorem isChain_heeds (h : ∀ k, .called k ∉ E) : E.IsChain Heeds :=
  List.Pairwise.isChain <|
    List.pairwise_of_forall_mem_list fun _ _ _ hy k hk ↦ absurd (hk ▸ hy) (h k)

theorem Block.heeds (hruns : ∀ x ∈ runs, x = .ran) (h : Block runs n E r whole) :
    E.IsChain Heeds := by
  induction h with
  | leaf => exact isChain_heeds fun k hk ↦ absurd (hruns _ (by simpa using hk)) (by simp)
  | value => exact isChain_heeds fun k hk ↦ absurd (hruns _ (by simpa using hk)) (by simp)
  | @pass n E r whole hb hr ih =>
    obtain ⟨M, rfl⟩ := hb.exists_eq
    refine (List.IsChain.cons ih ?_).append (List.IsChain.singleton _) ?_
    · simp [Heeds]
    · simp [Heeds]
  | @call n E r whole hb hr ih =>
    obtain ⟨M, rfl⟩ := hb.exists_eq
    refine (List.IsChain.cons ih ?_).append (List.IsChain.cons (isChain_heeds ?_) ?_) ?_
    · simp [Heeds]
    · simp [mem_gone]
    · simp [Heeds]
    · rw [← List.cons_append, List.getLast?_concat]
      simp [Heeds]

/-- Nothing is asked of the leaf, and its script is not run, after its value or its end. A leaf that
is the whole chain is asked whenever the chain is. -/
def Bars (n : Nat) (x y : Event) : Prop :=
  (x = .destroyed ∨ x = .answered 0 .ready → y ≠ .ran) ∧
    (x = .destroyed ∨ 0 < n ∧ x = .answered 0 .ready → y ≠ .asked 0)

theorem bars_of_left {y : Event} (hx : x ≠ .destroyed) (hx' : x ≠ .answered 0 .ready) :
    Bars n x y := by
  simp [Bars, hx, hx']

theorem bars_of_right {y : Event} (hy : y ≠ .ran) (hy' : y ≠ .asked 0) : Bars n x y :=
  ⟨fun _ ↦ hy, fun _ ↦ hy'⟩

theorem pairwise_bars {E' : List Event} (h : E.Pairwise (Bars n))
    (h' : ∀ y ∈ E', y ≠ .ran ∧ y ≠ .asked 0) (k : Nat) :
    (.asked k :: E ++ E').Pairwise (Bars n) := by
  have hright : ∀ x, ∀ y ∈ E', Bars n x y := fun x y hy ↦ bars_of_right (h' y hy).1 (h' y hy).2
  refine List.pairwise_append.2 ⟨List.pairwise_cons.2 ⟨fun y _ ↦ ?_, h⟩, ?_, fun x _ ↦ hright x⟩
  · exact bars_of_left (by simp) (by simp)
  · exact List.pairwise_of_forall_mem_list fun x _ ↦ hright x

theorem Block.bars (hruns : ∀ x ∈ runs, x = .ran) (h : Block runs n E r whole) (m : Nat) :
    E.Pairwise (Bars m) := by
  have hpairs : runs.Pairwise (Bars m) :=
    List.pairwise_of_forall_mem_list fun x hx _ _ ↦ by
      rw [hruns x hx]
      exact bars_of_left (by simp) (by simp)
  induction h with
  | leaf => exact pairwise_bars hpairs (by simp) 0
  | value => exact pairwise_bars hpairs (by simp) 0
  | pass _ _ ih => exact pairwise_bars ih (by simp) _
  | @call n E r _ _ _ ih =>
    refine pairwise_bars ih (fun y hy ↦ ?_) _
    obtain rfl | rfl | ⟨-, rfl⟩ | rfl : y = .called (n + 1) ∨ y = .left (n + 1) (r = .ready) ∨
        (n = 0 ∧ y = .destroyed) ∨ y = .answered (n + 1) r := by
      simpa [mem_gone] using hy
    all_goals simp

/-! ### Refusals -/

/-- What a refusal consists of. The leaf is asked only if it is the whole chain. -/
theorem Refusal.mem (h : Refusal n E text) (hx : x ∈ E) :
    (∃ k, x = .asked k ∧ (0 < n → 0 < k)) ∨ ∃ k e, x = .answered k (.failed e) := by
  induction h with
  | leaf text =>
    obtain rfl | rfl : x = .asked 0 ∨ x = .answered 0 (.failed (.reused text)) := by simpa using hx
    · exact Or.inl ⟨0, rfl, id⟩
    · exact Or.inr ⟨0, _, rfl⟩
  | consumed n text =>
    obtain rfl | rfl : x = .asked (n + 1) ∨ x = .answered (n + 1) (.failed (.reused text)) := by
      simpa using hx
    · exact Or.inl ⟨n + 1, rfl, fun _ ↦ Nat.succ_pos n⟩
    · exact Or.inr ⟨n + 1, _, rfl⟩
  | @pass n E text hn _ ih =>
    obtain rfl | hx | rfl :
        x = .asked (n + 1) ∨ x ∈ E ∨ x = .answered (n + 1) (.failed (.reused text)) := by
      simpa using hx
    · exact Or.inl ⟨n + 1, rfl, fun _ ↦ Nat.succ_pos n⟩
    · obtain ⟨k, rfl, hk⟩ | hx := ih hx
      · exact Or.inl ⟨k, rfl, fun _ ↦ hk hn⟩
      · exact Or.inr hx
    · exact Or.inr ⟨n + 1, _, rfl⟩

/-! ### Lives -/

/-- What was written down during a poll, and how the poll went. -/
abbrev Episode (A : Type) := List Event × Polled A

/-- One poll, with what is written down during it. -/
def episode (t : Chain W B V S A) (s : S) (x : Waker) :
    Act (W × List Event) B V (Episode A × S) :=
  (Act.change fun w ↦ (w.1, [])).bind fun () ↦ (t.watched.poll s x).bind fun r ↦
    .look fun w ↦ .done ((w.2, r.1), r.2)

/-- **A life**: polls with the given wakers, and then destruction; the episodes, and what is written
down at the end. -/
def life (t : Chain W B V S A) :
    List Waker → S → Act (W × List Event) B V (List (Episode A) × List Event)
  | [], s => (Act.change fun w ↦ t.watched.drop s (w.1, [])).bind fun () ↦
    .look fun w ↦ .done ([], w.2)
  | x :: xs, s => (t.episode s x).bind fun e ↦
    (t.life xs e.2).bind fun r ↦ .done (e.1 :: r.1, r.2)

/-- The rest of a life after the chain has been spent. -/
inductive Spends (n : Nat) : List (Episode A) → List Event → Prop
  /-- It is destroyed. -/
  | last : Spends n [] (gone n)
  /-- It refuses another poll. -/
  | refuses {E text eps final} (hE : Refusal n E text) (h : Spends n eps final) :
    Spends n ((E, .error (.reused text)) :: eps) final

/-- The rest of a life of a chain that is whole. -/
inductive Lives (runs : List Event) (n : Nat) : List (Episode A) → List Event → Prop
  /-- It is destroyed. -/
  | last : Lives runs n [] [.destroyed]
  /-- It is whole after another poll. -/
  | goesOn {E r eps final} (hE : Block runs n E (Polled.outcome r) true)
      (h : Lives runs n eps final) : Lives runs n ((E, r) :: eps) final
  /-- It is spent by another poll. -/
  | ends {E r eps final} (hE : Block runs n E (Polled.outcome r) false)
      (h : Spends n eps final) : Lives runs n ((E, r) :: eps) final

theorem yields_spends (t : Chain W B V S A) (xs : List Waker) {s : S} (hs : t.Spent s)
    (l : List Event) : (t.life xs s).Yields (fun _ r ↦ Spends t.depth r.1 r.2) l := by
  induction xs generalizing s l with
  | nil =>
    intro w
    show ∀ v, Spends t.depth [] (t.watched.drop s (w, [])).2
    rw [t.snd_drop_spent hs]
    exact fun _ ↦ .last
  | cons x xs ih =>
    refine Act.Yields.bind (Q := fun _ e ↦ t.Refuses [] e.1.1 (e.1.2, e.2)) ?_ ?_
    · exact fun w ↦ (t.yields_spent hs x []).bind fun m r hr _ ↦ hr
    · rintro m ⟨⟨_, _⟩, s⟩ ⟨E, text, rfl, hE, rfl, hs⟩
      exact (ih hs m).bind fun _ _ hr ↦ .refuses hE hr

theorem yields_lives (t : Chain W B V S A) (xs : List Waker) {s : S} (hs : t.Whole s)
    (l : List Event) : (t.life xs s).Yields (fun _ r ↦ Lives t.runs t.depth r.1 r.2) l := by
  induction xs generalizing s l with
  | nil =>
    intro w
    show ∀ v, Lives t.runs t.depth [] (t.watched.drop s (w, [])).2
    rw [t.snd_drop_whole hs]
    exact fun _ ↦ .last
  | cons x xs ih =>
    refine Act.Yields.bind (Q := fun _ e ↦ t.Proceeds [] e.1.1 (e.1.2, e.2)) ?_ ?_
    · exact fun w ↦ (t.yields_whole hs x []).bind fun m r hr _ ↦ hr
    · rintro m ⟨⟨_, r⟩, s⟩ ⟨E, whole, rfl, hE, hs⟩
      cases whole with
      | true => exact (ih hs m).bind fun _ _ hr ↦ .goesOn hE hr
      | false => exact (t.yields_spends xs hs m).bind fun _ _ hr ↦ .ends hE hr

/-- All that was written down during a life. -/
def record (eps : List (Episode A)) (final : List Event) : List Event :=
  eps.flatMap Prod.fst ++ final

theorem record_cons (e : Episode A) (eps : List (Episode A)) (final : List Event) :
    record (e :: eps) final = e.1 ++ record eps final := by
  simp [record]

/-- A poll fails because the chain has resolved before, and runs neither the script nor a
continuation. -/
def Refused (e : Episode A) : Prop :=
  (∃ text, e.2 = .error (.reused text)) ∧ .ran ∉ e.1 ∧ ∀ k, .called k ∉ e.1

variable {eps : List (Episode A)} {final : List Event}

/-! ### What follows once a chain has been spent -/

theorem Spends.refused (h : Spends n eps final) : ∀ e ∈ eps, Refused e := by
  induction h with
  | last => simp
  | @refuses E text _ _ hE _ ih =>
    refine List.forall_mem_cons.2 ⟨⟨⟨text, rfl⟩, fun hx ↦ ?_, fun k hx ↦ ?_⟩, ih⟩
    · simpa using hE.mem hx
    · simpa using hE.mem hx

theorem Spends.mem (h : Spends n eps final) (hx : x ∈ record eps final) :
    (∃ k, x = .asked k ∧ (0 < n → 0 < k)) ∨ (∃ k e, x = .answered k (.failed e)) ∨
      n = 0 ∧ x = .destroyed := by
  induction h with
  | last => exact Or.inr (Or.inr (mem_gone.1 (by simpa [record] using hx)))
  | refuses hE _ ih =>
    rw [record_cons] at hx
    obtain hx | hx := List.mem_append.1 hx
    · exact (hE.mem hx).imp_right Or.inl
    · exact ih hx

theorem Spends.count_destroyed (h : Spends n eps final) :
    (record eps final).count .destroyed = if n = 0 then 1 else 0 := by
  induction h with
  | last =>
    by_cases hn : n = 0 <;> simp [record, gone, hn]
  | refuses hE _ ih =>
    rw [record_cons, List.count_append, ih,
      List.count_eq_zero.2 fun hx ↦ by simpa using hE.mem hx, Nat.zero_add]

theorem Spends.final_eq (h : Spends n eps final) : final = gone n := by
  induction h with
  | last => rfl
  | refuses _ _ ih => exact ih

theorem Spends.not_called (h : Spends n eps final) (k : Nat) : .called k ∉ record eps final :=
  fun hx ↦ by simpa using h.mem hx

theorem Spends.bars (h : Spends n eps final) : (record eps final).Pairwise (Bars n) := by
  induction h with
  | last =>
    rw [record, List.flatMap_nil, List.nil_append, gone]
    split <;> simp
  | refuses hE _ ih =>
    have hleft : ∀ x ∈ _, ∀ y, Bars n x y := fun x hx y ↦ by
      obtain ⟨k, rfl, -⟩ | ⟨k, e, rfl⟩ := hE.mem hx <;> exact bars_of_left (by simp) (by simp)
    rw [record_cons]
    refine List.pairwise_append.2 ⟨?_, ih, fun x hx y _ ↦ hleft x hx y⟩
    exact List.pairwise_of_forall_mem_list fun x hx y _ ↦ hleft x hx y

/-! ### What holds of a life -/

namespace Lives

theorem once (h : Lives runs n eps final) :
    (eps.filter fun e ↦ Polled.outcome e.2 = .ready).length ≤ 1 := by
  induction h with
  | last => simp
  | @goesOn E r _ _ hE _ ih =>
    have hr : Polled.outcome r ≠ .ready := by
      intro hr
      rw [hr] at hE
      exact absurd hE.not_whole (by simp)
    simpa [hr] using ih
  | @ends E r eps _ hE h =>
    have hrest : (eps.filter fun e ↦ Polled.outcome e.2 = .ready) = [] := by
      refine List.filter_eq_nil_iff.2 fun e he ↦ ?_
      obtain ⟨⟨text, hout⟩, -⟩ := h.refused e he
      simp [hout]
    rw [List.filter_cons]
    split <;> simp [hrest]

theorem refused (hruns : ∀ x ∈ runs, x = .ran) (h : Lives runs n eps final) :
    eps.Pairwise fun e e' ↦
      (Polled.outcome e.2 = .ready ∨ ∃ k, .left k false ∈ e.1) → Refused e' := by
  induction h with
  | last => exact .nil
  | @goesOn E r _ _ hE _ ih =>
    refine List.pairwise_cons.2 ⟨fun e' _ hclosed ↦ ?_, ih⟩
    obtain hr | ⟨k, hk⟩ := hclosed
    · rw [hr] at hE
      exact absurd hE.not_whole (by simp)
    · exact absurd (hE.not_whole_of_call hruns (Or.inr ⟨false, hk⟩)) (by simp)
  | ends _ h =>
    exact List.pairwise_cons.2 ⟨fun e' he' _ ↦ h.refused e' he',
      List.pairwise_of_forall_mem_list fun _ _ e' he' _ ↦ h.refused e' he'⟩

theorem resumed (hruns : ∀ x ∈ runs, x = .ran) (h : Lives runs n eps final) :
    eps.IsChain fun e e' ↦
      .ran ∈ e.1 → (∃ f, .answered 0 (.failed f) ∈ e.1) → .ran ∈ e'.1 := by
  induction h with
  | last => exact .nil
  | goesOn hE h ih =>
    refine List.IsChain.cons ih fun e' he' hran _ ↦ ?_
    have hleaf := hE.ran_mem_iff.1 hran
    cases h with
    | last => cases he'
    | goesOn hE' => exact Option.some.inj he' ▸ hE'.ran_mem_iff.2 hleaf
    | ends hE' => exact Option.some.inj he' ▸ hE'.ran_mem_iff.2 hleaf
  | ends hE h =>
    refine List.IsChain.cons ?_ fun e' _ _ ⟨f, hf⟩ ↦ ?_
    · exact List.Pairwise.isChain (List.pairwise_of_forall_mem_list fun e he e' _ hran ↦
        absurd hran (h.refused e he).2.1)
    · exact absurd (hE.whole_of_failed hruns hf) (by simp)

theorem count_called_le (hruns : ∀ x ∈ runs, x = .ran) (h : Lives runs n eps final) (k : Nat) :
    (record eps final).count (.called k) ≤ 1 := by
  induction h with
  | last => simp [record]
  | goesOn hE _ ih =>
    rw [record_cons, List.count_append, List.count_eq_zero.2 fun hk ↦ ?_, Nat.zero_add]
    · exact ih
    · exact absurd (hE.not_whole_of_call hruns (Or.inl hk)) (by simp)
  | ends hE h =>
    rw [record_cons, List.count_append, List.count_eq_zero.2 (h.not_called k), Nat.add_zero]
    exact hE.count_called_le hruns k

/-- What is written down does not begin with the call of a continuation. -/
theorem head?_record (h : Lives runs n eps final) :
    (record eps final).head? = some (.asked n) ∨ (record eps final).head? = some .destroyed := by
  cases h with
  | last => exact Or.inr rfl
  | goesOn hE =>
    obtain ⟨M, rfl⟩ := hE.exists_eq
    exact Or.inl rfl
  | ends hE =>
    obtain ⟨M, rfl⟩ := hE.exists_eq
    exact Or.inl rfl

theorem heeds (hruns : ∀ x ∈ runs, x = .ran) (h : Lives runs n eps final) :
    (record eps final).IsChain Heeds := by
  induction h with
  | last => exact .singleton _
  | goesOn hE h ih =>
    rw [record_cons]
    refine (hE.heeds hruns).append ih fun x _ y hy k hk ↦ ?_
    obtain hhead | hhead := h.head?_record <;> simp_all
  | ends hE h =>
    rw [record_cons]
    refine (hE.heeds hruns).append (isChain_heeds h.not_called) fun x _ y hy k hk ↦ ?_
    exact absurd (hk ▸ List.mem_of_mem_head? hy) (h.not_called k)

theorem count_destroyed (hruns : ∀ x ∈ runs, x = .ran) (h : Lives runs n eps final) :
    (record eps final).count .destroyed = 1 := by
  induction h with
  | last => rfl
  | goesOn hE _ ih =>
    rw [record_cons, List.count_append, hE.count_destroyed hruns, ih]
    simp
  | ends hE h =>
    rw [record_cons, List.count_append, hE.count_destroyed hruns, h.count_destroyed]
    by_cases hn : n = 0 <;> simp [hn]

theorem released (hruns : ∀ x ∈ runs, x = .ran) (h : Lives runs n eps final) (hn : 0 < n) :
    ∀ e ∈ eps, .answered 0 .ready ∈ e.1 →
      ∃ a ok b, e.1 = a ++ [.left 1 ok, .destroyed] ++ b := by
  induction h with
  | last => simp
  | goesOn hE _ ih => exact List.forall_mem_cons.2 ⟨hE.released hruns hn, ih⟩
  | ends hE h =>
    refine List.forall_mem_cons.2 ⟨hE.released hruns hn, fun e he hm ↦ ?_⟩
    have hmem := h.mem (List.mem_append_left _ (List.mem_flatMap.2 ⟨e, he, hm⟩))
    simp at hmem

theorem kept (h : Lives runs n eps final)
    (hn : n = 0 ∨ ∀ e ∈ eps, .answered 0 .ready ∉ e.1) : .destroyed ∈ final := by
  induction h with
  | last => simp
  | goesOn _ _ ih => exact ih (hn.imp_right fun hn e he ↦ hn e (List.mem_cons_of_mem _ he))
  | ends hE h =>
    obtain rfl | hn := hn
    · rw [h.final_eq]
      simp [gone]
    · exact absurd hE.answered_of_not_whole (hn _ List.mem_cons_self)

theorem bars (hruns : ∀ x ∈ runs, x = .ran) (h : Lives runs n eps final) :
    (record eps final).Pairwise (Bars n) := by
  induction h with
  | last => simp [record]
  | goesOn hE _ ih =>
    rw [record_cons]
    refine List.pairwise_append.2 ⟨hE.bars hruns n, ih, fun x hx y _ ↦ bars_of_left ?_ ?_⟩
    · rintro rfl
      exact List.count_eq_zero.1 (hE.count_destroyed hruns) hx
    · rintro rfl
      exact absurd (hE.not_whole_of_answered hruns hx) (by simp)
  | ends hE h =>
    rw [record_cons]
    refine List.pairwise_append.2 ⟨hE.bars hruns n, h.bars, fun x hx y hy ↦ ?_⟩
    obtain ⟨k, rfl, hk⟩ | ⟨k, e, rfl⟩ | ⟨-, rfl⟩ := h.mem hy
    · -- Only a leaf below a continuation has its end in a poll.
      have hpos : x = .destroyed ∨ 0 < n ∧ x = .answered 0 .ready → 0 < n := by
        rintro (rfl | ⟨hn, -⟩)
        · refine Nat.pos_of_ne_zero fun hn ↦ ?_
          exact List.count_eq_zero.1 ((hE.count_destroyed hruns).trans (if_pos (Or.inr hn))) hx
        · exact hn
      exact ⟨by simp, fun hx ↦ by simpa using (hk (hpos hx)).ne'⟩
    · exact bars_of_right (by simp) (by simp)
    · exact bars_of_right (by simp) (by simp)

end Lives

/-- **What holds of a life**: the episodes of a chain with `n` continuations, and what is written
down at its end. -/
structure Lawful (n : Nat) (eps : List (Episode A)) (final : List Event) : Prop where
  /-- At most one poll has a value. -/
  once : (eps.filter fun e ↦ Polled.outcome e.2 = .ready).length ≤ 1
  /-- Every poll after the value, or after a continuation has failed, is refused. -/
  refused : eps.Pairwise fun e e' ↦
    (Polled.outcome e.2 = .ready ∨ ∃ k, .left k false ∈ e.1) → Refused e'
  /-- If the script fails, the next poll runs it again. -/
  resumed : eps.IsChain fun e e' ↦
    .ran ∈ e.1 → (∃ f, .answered 0 (.failed f) ∈ e.1) → .ran ∈ e'.1
  /-- Each continuation is called at most once. -/
  called_once : ∀ k, (record eps final).count (.called k) ≤ 1
  /-- Right before a continuation is called, the future below has its value. -/
  called_after : ∀ k a b, record eps final = a ++ .called k :: b →
    ∃ m c, k = m + 1 ∧ a = c ++ [.answered m .ready]
  /-- The leaf is destroyed exactly once. -/
  destroyed_once : (record eps final).count .destroyed = 1
  /-- A leaf below a continuation that has its value is destroyed in that poll, right after the
  continuation has returned or failed. -/
  released : 0 < n → ∀ e ∈ eps, .answered 0 .ready ∈ e.1 →
    ∃ a ok b, e.1 = a ++ [.left 1 ok, .destroyed] ++ b
  /-- Any other leaf is destroyed with the chain. -/
  kept : (n = 0 ∨ ∀ e ∈ eps, .answered 0 .ready ∉ e.1) → .destroyed ∈ final
  /-- The leaf is not polled after its value or its end. -/
  barred : (record eps final).Pairwise (Bars n)

theorem Lives.lawful (hruns : ∀ x ∈ runs, x = .ran) (h : Lives runs n eps final) :
    Lawful n eps final where
  once := h.once
  refused := h.refused hruns
  resumed := h.resumed hruns
  called_once := h.count_called_le hruns
  called_after k a b hrecord := by
    have hchain := h.heeds hruns
    rw [hrecord] at hchain
    rcases List.eq_nil_or_concat a with rfl | ⟨c, x, rfl⟩
    · obtain hhead | hhead := h.head?_record <;> simp [hrecord] at hhead
    · rw [List.concat_eq_append] at hchain ⊢
      rw [List.append_assoc, List.singleton_append, List.isChain_append_cons_cons] at hchain
      obtain ⟨m, rfl, rfl⟩ := hchain.2.1 k rfl
      exact ⟨m, c, rfl, rfl⟩
  destroyed_once := h.count_destroyed hruns
  released := h.released hruns
  kept := h.kept
  barred := h.bars hruns

theorem eq_ran_of_mem_runs (t : Chain W B V S A) : ∀ x ∈ t.runs, x = .ran := by
  induction t with
  | ready => simp [runs]
  | guarded => simp [runs]
  | andThen _ _ ih => exact ih

/-- **Chains resolve once and release once.** Any number of polls of a chain as it has been made,
and its destruction after them, are lawful, whatever its script and its continuations do. -/
theorem lawful_life (t : Chain W B V S A) {s : S} (hs : t.Whole s) (xs : List Waker)
    (l : List Event) : (t.life xs s).Yields (fun _ r ↦ Lawful t.depth r.1 r.2) l := by
  have hlife := (t.yields_lives xs hs l).bind (f := .done) fun _ _ hr ↦
    hr.lawful t.eq_ran_of_mem_runs
  rwa [Act.bind_done] at hlife

/-- A script that is pending, fails and then has its value. -/
def fickle : Future Nat Unit Unit Nat Nat where
  poll
    | 0, x => .wake x (.done (.ok .pending, 1))
    | 1, _ => .done (.error (.general (.utf8 "fickle")), 2)
    | n, _ => (Act.change (· + n)).bind fun () ↦ .done (.ok (.ready n), n + 1)
  drop _ w := w + 1

/-- Two continuations on top of it. The second one fails if the world has not been changed much. -/
def fickleChain : Chain Nat Unit Unit (Option (Option (Nat × Bool))) Nat :=
  ((guarded fickle).andThen fun a ↦ .done (.ok (a + 1))).andThen fun c ↦
    .look fun w ↦ .done (if c < w then .ok c else .error (.general (.utf8 "too early")))

/-- Five polls, of which three are for real. -/
theorem lawful_life_fickle :
    (fickleChain.life [.idle, .idle, .idle, .idle, .idle] (some (some (0, false)))).Yields
      (fun _ r ↦ Lawful 2 r.1 r.2) [] :=
  lawful_life fickleChain ⟨some (0, false), rfl, (0, false), rfl, rfl⟩ _ []

end Chain

end TaskRuntime
