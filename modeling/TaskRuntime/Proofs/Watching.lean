import TaskRuntime.Proofs.Matching

/-!
# Chains that are watched

The futures of the library that hold other futures are chains: a leaf, which is a stored value or a
guarded script, and continuations on top of it. `Chain` is the type of all of them, with any scripts
and any continuations, and `Chain.future` the future that each is.

## Watching

To speak of what happens inside a chain, its parts write it down: each future in it, from the leaf
(which has number 0) to the whole (`Chain.depth`), when it is asked and what it answers, the script
when it runs, each continuation when it is called and when it is left, and the leaf when it is
destroyed. `Chain.watched` is the chain of these parts, put together with the same combinators, and
`Chain.poll_matches` says that watching changes nothing.

## One poll

A chain as it has been made is `Whole`: everything in it is still there. `Chain.yields_whole` says
what a poll of it writes down (`Block`), and whether it is whole afterwards. If it is not, it is
`Spent`, and then for good: `Chain.yields_spent`. The shapes of states that lie between whole and
gone are all in these two.
-/

namespace TaskRuntime

variable {W B V S A C : Type}

/-- **The futures of the library**: a stored value or a guarded script, and continuations. The
second index is the type of values, the first one the type of states. -/
inductive Chain (W B V : Type) : Type → Type → Type 1
  /-- A stored value. -/
  | ready (A : Type) : Chain W B V (Option A) A
  /-- A script that refuses polls after its value. -/
  | guarded {S A : Type} (script : Future W B V S A) : Chain W B V (S × Bool) A
  /-- A continuation on top of a chain. -/
  | andThen {S A C : Type} (first : Chain W B V S A) (g : A → Act W B V (Except Failure C)) :
    Chain W B V (Option S) C

/-- How a poll went, without the value. -/
inductive Outcome
  /-- Not finished. -/
  | pending
  /-- Finished. -/
  | ready
  /-- Failed. -/
  | failed (e : Failure)
  deriving DecidableEq

/-- How a poll went, without the value. -/
def Polled.outcome : Polled A → Outcome
  | .ok .pending => .pending
  | .ok (.ready _) => .ready
  | .error e => .failed e

@[simp] theorem Polled.outcome_pending : Polled.outcome (.ok (.pending : Progress A)) = .pending :=
  rfl

@[simp] theorem Polled.outcome_ready (a : A) : Polled.outcome (.ok (.ready a)) = .ready := rfl

@[simp] theorem Polled.outcome_error (e : Failure) :
    Polled.outcome (.error e : Polled A) = .failed e := rfl

namespace Chain

/-- The future that a chain is. -/
def future : {S A : Type} → Chain W B V S A → Future W B V S A
  | _, _, ready _ => .ready
  | _, _, guarded script => script.guarded
  | _, _, andThen first g => first.future.andThen g

/-- How many continuations a chain has. -/
def depth : {S A : Type} → Chain W B V S A → Nat
  | _, _, ready _ => 0
  | _, _, guarded _ => 0
  | _, _, andThen first _ => first.depth + 1

/-! ### Watching -/

/-- Something that happens in a chain. -/
inductive Event
  /-- A future in it is polled. -/
  | asked (n : Nat)
  /-- A poll has ended. -/
  | answered (n : Nat) (how : Outcome)
  /-- The script of the leaf is run. -/
  | ran
  /-- The continuation of a future in it is called. -/
  | called (n : Nat)
  /-- The continuation has returned (`true`) or has failed (`false`). -/
  | left (n : Nat) (returned : Bool)
  /-- The leaf is destroyed. -/
  | destroyed
  deriving DecidableEq

/-- A future whose polls and their outcomes are written down. -/
def watch (n : Nat) (f : Future (W × List Event) B V S A) : Future (W × List Event) B V S A where
  poll s x := (Act.note (.asked n)).bind fun () ↦ (f.poll s x).bind fun r ↦
    (Act.note (.answered n (Polled.outcome r.1))).bind fun () ↦ .done r
  drop := f.drop

/-- A future whose destruction is written down. -/
def mourn (f : Future (W × List Event) B V S A) : Future (W × List Event) B V S A where
  poll := f.poll
  drop s w := ((f.drop s w).1, (f.drop s w).2 ++ [.destroyed])

/-- A continuation whose calls and returns are written down. -/
def attend (n : Nat) (g : A → Act W B V (Except Failure C)) (a : A) :
    Act (W × List Event) B V (Except Failure C) :=
  (Act.noting (.called n) (g a)).bind fun r ↦
    (Act.note (.left n r.isOk)).bind fun () ↦ .done r

/-- **The chain whose parts write down what happens.** -/
def watched : {S A : Type} → Chain W B V S A → Future (W × List Event) B V S A
  | _, _, ready _ => watch 0 (mourn .ready)
  | _, _, guarded script => watch 0 (mourn (script.noted fun _ ↦ .ran).guarded)
  | _, _, andThen first g =>
    watch (first.depth + 1) (first.watched.andThen (attend (first.depth + 1) g))

/-- What a poll of the leaf writes down besides that it is polled. -/
def runs : {S A : Type} → Chain W B V S A → List Event
  | _, _, ready _ => []
  | _, _, guarded _ => [.ran]
  | _, _, andThen first _ => first.runs

/-! ### States -/

/-- Everything is still there. -/
def Whole : {S A : Type} → Chain W B V S A → S → Prop
  | _, _, ready _, s => s ≠ none
  | _, _, guarded _, s => s.2 = false
  | _, _, andThen first _, s => ∃ t, s = some t ∧ first.Whole t

/-- The leaf has had its value and a continuation, if there is one, has been called. -/
def Spent : {S A : Type} → Chain W B V S A → S → Prop
  | _, _, ready _, s => s = none
  | _, _, guarded _, s => s.2 = true
  | _, _, andThen first _, s => s = none ∨ ∃ t, s = some t ∧ 0 < first.depth ∧ first.Spent t

/-! ### What a poll writes down -/

/-- What is destroyed with a future when its value has been handed on. -/
def gone (n : Nat) : List Event := if n = 0 then [.destroyed] else []

/-- **What a poll of a whole chain writes down**, its outcome, and whether the chain is still
whole. -/
inductive Block (runs : List Event) : Nat → List Event → Outcome → Bool → Prop
  /-- The leaf is pending or has failed. -/
  | leaf {r : Outcome} (hr : r ≠ .ready) :
    Block runs 0 (.asked 0 :: runs ++ [.answered 0 r]) r true
  /-- The leaf has its value. -/
  | value : Block runs 0 (.asked 0 :: runs ++ [.answered 0 .ready]) .ready false
  /-- The first future has no value. -/
  | pass {n E r whole} (hb : Block runs n E r whole) (hr : r ≠ .ready) :
    Block runs (n + 1) (.asked (n + 1) :: E ++ [.answered (n + 1) r]) r whole
  /-- The first future has its value, and the continuation returns or fails. -/
  | call {n E r whole} (hb : Block runs n E .ready whole) (hr : r ≠ .pending) :
    Block runs (n + 1) (.asked (n + 1) :: E ++
      (.called (n + 1) :: .left (n + 1) (r = .ready) :: gone n ++ [.answered (n + 1) r])) r false

/-- A value takes the chain. -/
theorem Block.not_whole {runs E : List Event} {n : Nat} {whole : Bool}
    (h : Block runs n E .ready whole) : whole = false := by
  cases h with
  | leaf hr => exact absurd rfl hr
  | value => rfl
  | pass _ hr => exact absurd rfl hr
  | call => rfl

/-- Without a value a chain is spent only if it has a continuation that has failed. -/
theorem Block.depth_pos {runs E : List Event} {n : Nat} {r : Outcome}
    (h : Block runs n E r false) (hr : r ≠ .ready) : 0 < n := by
  cases h with
  | value => exact absurd rfl hr
  | pass => exact Nat.succ_pos _
  | call => exact Nat.succ_pos _

/-- **What a poll of a spent chain writes down**: it is refused. -/
inductive Refusal : Nat → List Event → String → Prop
  /-- The leaf has had its value. -/
  | leaf (text : String) :
    Refusal 0 [.asked 0, .answered 0 (.failed (.reused text))] text
  /-- The first future is gone. -/
  | consumed (n : Nat) (text : String) :
    Refusal (n + 1) [.asked (n + 1), .answered (n + 1) (.failed (.reused text))] text
  /-- The first future refuses. It is not the leaf. -/
  | pass {n E text} (hn : 0 < n) (hr : Refusal n E text) :
    Refusal (n + 1) (.asked (n + 1) :: E ++ [.answered (n + 1) (.failed (.reused text))]) text

/-! ### Destruction -/

theorem snd_drop_whole (t : Chain W B V S A) {s : S} (hs : t.Whole s) (w : W × List Event) :
    (t.watched.drop s w).2 = w.2 ++ [.destroyed] := by
  induction t with
  | ready => rfl
  | guarded => rfl
  | andThen first g ih =>
    obtain ⟨t, rfl, ht⟩ : ∃ t, s = some t ∧ first.Whole t := hs
    exact ih ht

theorem snd_drop_spent (t : Chain W B V S A) {s : S} (hs : t.Spent s) (w : W × List Event) :
    (t.watched.drop s w).2 = w.2 ++ gone t.depth := by
  induction t with
  | ready => rfl
  | guarded => rfl
  | andThen first g ih =>
    have hgone : gone (first.andThen g).depth = [] := if_neg (Nat.succ_ne_zero _)
    rw [hgone, List.append_nil]
    obtain rfl | ⟨t, rfl, hd, ht⟩ : s = none ∨ ∃ t, s = some t ∧ 0 < first.depth ∧ first.Spent t :=
      hs
    · rfl
    · have hdrop := ih ht
      rwa [gone, if_neg hd.ne', List.append_nil] at hdrop

/-! ### Polls -/

theorem yields_watch {f : Future (W × List Event) B V S A} {n : Nat} {s : S} {x : Waker}
    {l : List Event} {Q Q' : List Event → Polled A × S → Prop}
    (hf : (f.poll s x).Yields Q (l ++ [.asked n]))
    (hQ : ∀ m r, Q m r → Q' (m ++ [.answered n (Polled.outcome r.1)]) r) :
    ((watch n f).poll s x).Yields Q' l := by
  intro w
  refine hf.bind fun m r hr v ↦ ?_
  exact hQ m r hr

/-- What a poll of a whole chain comes to, if `l` has been written down before it. -/
def Proceeds (t : Chain W B V S A) (l m : List Event) (r : Polled A × S) : Prop :=
  ∃ E whole, m = l ++ E ∧ Block t.runs t.depth E (Polled.outcome r.1) whole ∧
    if whole then t.Whole r.2 else t.Spent r.2

theorem yields_attend {n : Nat} {g : A → Act W B V (Except Failure C)} (a : A) (l : List Event) :
    (attend n g a).Yields (fun m r ↦ m = l ++ [.called n, .left n r.isOk]) l := by
  refine Act.Yields.bind (Q := fun m _ ↦ m = l ++ [.called n]) ?_ ?_
  · exact fun _ ↦ Act.yields_beside _ fun _ ↦ rfl
  · rintro _ r rfl _
    exact List.append_assoc ..

/-- What follows when the first future has been polled. -/
theorem yields_chainRest {first : Chain W B V S A} {g : A → Act W B V (Except Failure C)}
    {l m : List Event} {r : Polled A × S}
    (hr : first.Proceeds (l ++ [.asked (first.depth + 1)]) m r) :
    (Future.chainRest first.watched.drop (attend (first.depth + 1) g) r).Yields
      (fun m r ↦ (first.andThen g).Proceeds l
        (m ++ [.answered (first.depth + 1) (Polled.outcome r.1)]) r) m := by
  obtain ⟨E, whole, rfl, hblock, hstate⟩ := hr
  obtain ⟨(e | (_ | a)), s⟩ := r
  · refine ⟨_, whole, by simp, .pass hblock (by simp), ?_⟩
    cases whole with
    | true => exact ⟨s, rfl, hstate⟩
    | false => exact Or.inr ⟨s, rfl, hblock.depth_pos (by simp), hstate⟩
  · refine ⟨_, whole, by simp, .pass hblock (by simp), ?_⟩
    cases whole with
    | true => exact ⟨s, rfl, hstate⟩
    | false => exact Or.inr ⟨s, rfl, hblock.depth_pos (by simp), hstate⟩
  · obtain rfl : whole = false := hblock.not_whole
    refine (yields_attend a _).bind ?_
    rintro _ r rfl w
    show (first.andThen g).Proceeds l ((first.watched.drop s (w, _)).2 ++ _) _
    rw [first.snd_drop_spent hstate]
    refine ⟨_, false, ?_, .call (r := Polled.outcome (r.map Progress.ready)) hblock ?_, Or.inl rfl⟩
    · cases r <;> simp [Except.isOk, Except.toBool, Except.map]
    · cases r <;> simp [Except.map]

/-- **A poll of a whole chain.** -/
theorem yields_whole (t : Chain W B V S A) {s : S} (hs : t.Whole s) (x : Waker) (l : List Event) :
    (t.watched.poll s x).Yields (t.Proceeds l) l := by
  induction t generalizing l with
  | ready =>
    obtain ⟨a, rfl⟩ := Option.ne_none_iff_exists'.1 hs
    refine yields_watch (Q := fun m r ↦ m = l ++ [.asked 0] ∧ r = (.ok (.ready a), none))
      ⟨rfl, rfl⟩ ?_
    rintro _ _ ⟨rfl, rfl⟩
    exact ⟨_, false, List.append_assoc .., .value, rfl⟩
  | guarded script =>
    obtain ⟨s, _⟩ := s
    obtain rfl : _ = false := hs
    refine yields_watch
      (Q := fun m r ↦ m = l ++ [.asked 0] ++ [.ran] ∧ r.2.2 = Future.isReady r.1) ?_ ?_
    · refine Act.Yields.bind (Q := fun m _ ↦ m = l ++ [.asked 0] ++ [.ran]) ?_ ?_
      · exact fun _ ↦ Act.yields_beside _ fun _ ↦ rfl
      · rintro _ ⟨r, s⟩ rfl
        exact ⟨rfl, rfl⟩
    · rintro _ ⟨(e | (_ | a)), s, resolved⟩ ⟨rfl, hresolved⟩
      · exact ⟨_, true, by simp [runs], .leaf (by simp), hresolved⟩
      · exact ⟨_, true, by simp [runs], .leaf (by simp), hresolved⟩
      · exact ⟨_, false, by simp [runs], .value, hresolved⟩
  | andThen first g ih =>
    obtain ⟨t, rfl, ht⟩ : ∃ t, s = some t ∧ first.Whole t := hs
    exact yields_watch ((ih ht _).bind fun m r hr ↦ yields_chainRest hr) fun m r hr ↦ hr

/-- What a poll of a spent chain comes to. -/
def Refuses (t : Chain W B V S A) (l m : List Event) (r : Polled A × S) : Prop :=
  ∃ E text, m = l ++ E ∧ Refusal t.depth E text ∧ r.1 = .error (.reused text) ∧ t.Spent r.2

/-- **A poll of a spent chain.** -/
theorem yields_spent (t : Chain W B V S A) {s : S} (hs : t.Spent s) (x : Waker) (l : List Event) :
    (t.watched.poll s x).Yields (t.Refuses l) l := by
  induction t generalizing l with
  | ready =>
    obtain rfl : s = none := hs
    exact fun _ _ ↦ ⟨_, _, by simp, .leaf "ReadyFuture", rfl, rfl⟩
  | guarded script =>
    obtain ⟨s, _⟩ := s
    obtain rfl : _ = true := hs
    exact fun _ _ ↦ ⟨_, _, by simp, .leaf "FnFuture", rfl, rfl⟩
  | andThen first g ih =>
    obtain rfl | ⟨t, rfl, hd, ht⟩ : s = none ∨ ∃ t, s = some t ∧ 0 < first.depth ∧ first.Spent t :=
      hs
    · exact fun _ _ ↦ ⟨_, _, by simp, .consumed first.depth "Then", rfl, Or.inl rfl⟩
    · refine yields_watch ((ih ht _).bind ?_) fun m r hr ↦ hr
      rintro _ ⟨_, s⟩ ⟨E, text, rfl, hrefusal, rfl, hspent⟩
      exact ⟨_, text, by simp, .pass hd hrefusal, rfl, Or.inr ⟨s, rfl, hd, hspent⟩⟩

/-! ### Watching changes nothing -/

theorem fst_drop_watched (t : Chain W B V S A) (s : S) (w : W × List Event) :
    (t.watched.drop s w).1 = t.future.drop s w.1 := by
  induction t with
  | ready => rfl
  | guarded => rfl
  | andThen first g ih =>
    cases s with
    | none => rfl
    | some s => exact ih s

/-- Two programs have the same answer and the same world; what is beside it may differ. -/
def Same {R : Type} (u : W × List Event) (r : R) (u' : W × List Event) (r' : R) : Prop :=
  r = r' ∧ u.1 = u'.1

theorem matches_watch {f : Future (W × List Event) B V S A} {n : Nat} {s : S} {x : Waker}
    {p : Act (W × List Event) B V (Polled A × S)} {u : W × List Event} {w : W} {l : List Event}
    (hf : (f.poll s x).Matches {fun u u' ↦ u.1 = u'.1} Same (w, l ++ [.asked n]) u p) :
    ((watch n f).poll s x).Matches {fun u u' ↦ u.1 = u'.1} Same (w, l) u p := by
  rw [← p.bind_done]
  refine .lookLeft (.putLeft (hf.bind ?_))
  rintro v r v' _ ⟨rfl, hv⟩
  exact .lookLeft (.putLeft (.done ⟨rfl, hv⟩))

/-- What follows when the first future has been polled does the same. -/
theorem chainRest_matches {first : Chain W B V S A} {g : A → Act W B V (Except Failure C)} (n : Nat)
    (r : Polled A × S) (w : W) (l m : List Event) :
    (Future.chainRest first.watched.drop (attend n g) r).Matches {fun u u' ↦ u.1 = u'.1} Same
      (w, l) (w, m) (Future.chainRest first.future.drop g r).beside := by
  obtain ⟨(e | (_ | a)), s⟩ := r
  · exact .done ⟨rfl, rfl⟩
  · exact .done ⟨rfl, rfl⟩
  · simp only [Future.chainRest, attend, Act.bind_assoc, Act.beside_bind]
    refine .lookLeft (.putLeft ((Act.matches_beside_self _ _ m).bind ?_))
    rintro v r v' _ ⟨rfl, hv⟩
    refine .lookLeft (.putLeft (.lookLeft (.putLeft ?_)))
    refine .lookRight (.lookRight (.putRight (.done ⟨rfl, ?_⟩)))
    rw [fst_drop_watched, hv]

/-- **Watching changes nothing**: a poll of the watched chain makes the same requests, with the same
answer and the same changes of the world, as a poll of the chain. -/
theorem poll_matches (t : Chain W B V S A) (s : S) (x : Waker) (w : W) (l m : List Event) :
    (t.watched.poll s x).Matches {fun u u' ↦ u.1 = u'.1} Same (w, l) (w, m)
      (t.future.poll s x).beside := by
  induction t generalizing l m with
  | ready => exact matches_watch (by cases s <;> exact .done ⟨rfl, rfl⟩)
  | guarded script =>
    obtain ⟨s, resolved⟩ := s
    cases resolved with
    | true => exact matches_watch (.done ⟨rfl, rfl⟩)
    | false =>
      refine matches_watch ?_
      simp only [future, Future.guarded, Future.guardPoll, Act.beside_bind]
      refine .lookLeft (.putLeft ((Act.matches_beside_self _ _ m).bind ?_))
      rintro v r v' _ ⟨rfl, hv⟩
      exact .done ⟨rfl, hv⟩
  | andThen first g ih =>
    cases s with
    | none => exact matches_watch (.done ⟨rfl, rfl⟩)
    | some s =>
      refine matches_watch ?_
      simp only [future, Future.andThen, Future.chainPoll, Act.beside_bind]
      refine (ih s _ m).bind ?_
      rintro ⟨v, l⟩ r ⟨_, m⟩ _ ⟨rfl, rfl⟩
      exact chainRest_matches _ r v l m

end Chain

end TaskRuntime
