import TaskRuntime.Proofs.Matching

/-!
# Chains of chains

`Future.andThen` is associative: a chain whose first future is a chain does what the chain does that
has the continuations composed (`Future.andThen_assoc`). Over any sequence of polls the two call the
first future and the continuations in the same order, with the same wakers and values, and have the
same outcome at every poll. Nothing is assumed of the future and the continuations, and polls go on
after failures and after the value.

## What is told

What happens is written into a list beside the world: each call of the first future and of the
continuations, with what it has returned, and the outcome of each poll (`Future.Told`). The parts
that are chained do not see the list. What is told of a poll is a function of what the parts
return, and it is the same function for both sides (`Future.Told.ofPoll`). So wherever two runs
first differ, it is a part itself that has returned differently on the same call
(`Future.Told.Agree`), whatever worlds it has found and however its requests have been answered.

## When the first future is destroyed

A chain destroys its first future once its continuation has returned. So on the one side the first
future is destroyed between the two continuations, on the other side after both. Destroying is not a
call, but it may change the world, and the second continuation may return something else in another
world. It is the only part that could: polls and the first continuation come before. If it does the
same whether or not the first future has been destroyed, the two sides also make the same requests,
step by step.

## States

The two sides keep their state in different places. While the first future is there, both have it,
and are in the same world. After that neither calls anything, but there are two states for it on the
one side: a failure of the first continuation is the failure of a future that is still there
(`Future.Paired`).
-/

namespace TaskRuntime

variable {W B V S R A C D L : Type}

/-! ### Writing down what has been returned -/

/-- Runs a program, and writes something about its answer into the list beside the world. -/
def Act.telling (entry : R → L) (p : Act W B V R) : Act (W × List L) B V R :=
  p.beside.bind fun r ↦ (Act.note (entry r)).bind fun () ↦ .done r

/-- Programs that match with equal answers match while these are written down. -/
theorem Act.Matches.telling {Ω : Set (W → W → Prop)} {w w' : W} {p p' : Act W B V R}
    (h : p.Matches Ω (fun _ r _ r' ↦ r = r') w w' p') (entry : R → L) (l : List L) :
    (p.telling entry).Matches (Act.Beside '' Ω) (fun u r u' r' ↦ r = r' ∧ u.2 = u'.2)
      (w, l) (w', l) (p'.telling entry) := by
  refine (h.beside l).bind ?_
  rintro u r u' _ ⟨rfl, hl⟩
  exact .lookLeft (.putLeft (.lookRight (.putRight
    (.done ⟨rfl, congrArg (· ++ [entry r]) hl⟩))))

namespace Future

/-- A future whose polls are written down beside the world, with how they went. -/
def told (f : Future W B V S A) (entry : Waker → Polled A → L) :
    Future (W × List L) B V S A where
  poll s x := (f.poll s x).telling fun r ↦ entry x r.1
  drop s w := (f.drop s w.1, w.2)

/-- One continuation after the other; the second one only if the first one has not failed. -/
def after (h : C → Act W B V (Except Failure D)) (g : A → Act W B V (Except Failure C)) (a : A) :
    Act W B V (Except Failure D) :=
  (g a).bind fun
    | .error e => .done (.error e)
    | .ok c => h c

/-! ### What is told of a chain -/

/-- Something that happens in a chain with two continuations. -/
inductive Told (A C D : Type)
  /-- The first future has been polled with a waker, and this is how it went. -/
  | poll (x : Waker) (r : Polled A)
  /-- The first continuation has been called with a value, and has returned or failed. -/
  | first (a : A) (r : Except Failure C)
  /-- The second continuation has been called with a value, and has returned or failed. -/
  | second (c : C) (r : Except Failure D)
  /-- A poll of the chain has ended. -/
  | ended (r : Polled D)

namespace Told

/-- The same part has been called, in the same way. -/
inductive SameCall : Told A C D → Told A C D → Prop
  /-- The first future, with the same waker. -/
  | poll (x : Waker) (r r' : Polled A) : SameCall (poll x r) (poll x r')
  /-- The first continuation, with the same value. -/
  | first (a : A) (r r' : Except Failure C) : SameCall (first a r) (first a r')
  /-- The second continuation, with the same value. -/
  | second (c : C) (r r' : Except Failure D) : SameCall (second c r) (second c r')

/-- **Two runs agree**: the same is told of both, or they first differ in what the same call of a
part has returned. -/
def Agree (m m' : List (Told A C D)) : Prop :=
  m = m' ∨ ∃ before e e' rest rest',
    m = before ++ e :: rest ∧ m' = before ++ e' :: rest' ∧ e.SameCall e' ∧ e ≠ e'

namespace Agree

variable {m m' : List (Told A C D)} {e e' : Told A C D}

theorem append_left (h : Agree m m') (l : List (Told A C D)) : Agree (l ++ m) (l ++ m') := by
  rcases h with rfl | ⟨before, e, e', rest, rest', rfl, rfl, hcall, hne⟩
  · exact .inl rfl
  · exact .inr ⟨l ++ before, e, e', rest, rest', (List.append_assoc ..).symm,
      (List.append_assoc ..).symm, hcall, hne⟩

theorem cons (h : Agree m m') (e : Told A C D) : Agree (e :: m) (e :: m') :=
  h.append_left [e]

/-- The same call has been made; if it has returned the same, the runs agree further on. -/
theorem of_sameCall (hcall : e.SameCall e') (h : e = e' → Agree m m') :
    Agree (e :: m) (e' :: m') := by
  by_cases he : e = e'
  · exact he ▸ (h he).cons e
  · exact .inr ⟨[], e, e', m, m', rfl, rfl, hcall, he⟩

end Agree

/-- **What is told of a poll with a waker**, as a function of what the parts return if they are
called; the outcome of the poll; and whether the first future is still there. -/
def ofPoll (x : Waker) (r : Polled A) (q : Except Failure C) (z : Except Failure D) :
    List (Told A C D) × Polled D × Bool :=
  match r with
  | .error e => ([poll x r], .error e, true)
  | .ok .pending => ([poll x r], .ok .pending, true)
  | .ok (.ready a) =>
    match q with
    | .error e => ([poll x r, first a q], .error e, false)
    | .ok c => ([poll x r, first a q, second c z], z.map Progress.ready, false)

/-- **What may be told of a poll**, of its outcome, and of whether the first future is still there,
given whether it was there before. -/
inductive Poll : Bool → Waker → List (Told A C D) × Polled D × Bool → Prop
  /-- The first future is there. -/
  | there (x : Waker) (r : Polled A) (q : Except Failure C) (z : Except Failure D) :
      Poll true x (ofPoll x r q z)
  /-- The first future is gone, and the poll is refused. -/
  | refused (x : Waker) : Poll false x ([], .error (.reused "Then"), false)

/-- **What may be told of polls**, one with each waker. -/
inductive Polls : Bool → List Waker → List (Told A C D) → Prop
  /-- No poll. -/
  | nil (there : Bool) : Polls there [] []
  /-- A poll, and others after it. -/
  | cons {there x xs k r there' m} (hp : Poll there x (k, r, there')) (hm : Polls there' xs m) :
      Polls there (x :: xs) (k ++ ended r :: m)

/-- What is told of a poll begins with the poll of the first future. -/
theorem ofPoll_fst (x : Waker) (r : Polled A) (q : Except Failure C) (z : Except Failure D) :
    (ofPoll x r q z).1 = poll x r :: (ofPoll x r q z).1.tail := by
  rcases r with e | _ | a
  · rfl
  · rfl
  · cases q <;> rfl

/-- Two polls agree, and so do the polls after them. -/
theorem Poll.agree {there : Bool} {x : Waker} {k k' : List (Told A C D) × Polled D × Bool}
    {m m' : List (Told A C D)} (h : Poll there x k) (h' : Poll there x k')
    (hm : k.2.2 = k'.2.2 → Agree m m') :
    Agree (k.1 ++ ended k.2.1 :: m) (k'.1 ++ ended k'.2.1 :: m') := by
  cases h with
  | refused => cases h' with | refused => exact (hm rfl).cons _
  | there _ r q z =>
    obtain @⟨_, r', q', z'⟩ := h'
    rw [ofPoll_fst, ofPoll_fst x r']
    refine .of_sameCall (.poll x r r') fun he ↦ ?_
    obtain rfl : r = r' := by injection he
    -- How the poll of the first future went decides what is called next.
    rcases r with e | _ | a
    · exact (hm rfl).cons _
    · exact (hm rfl).cons _
    have htail (q : Except Failure C) (z : Except Failure D) :
        (ofPoll x (.ok (.ready a)) q z).1.tail =
          first a q :: (ofPoll x (.ok (.ready a)) q z).1.tail.tail := by cases q <;> rfl
    rw [htail, htail q']
    refine .of_sameCall (.first a q q') fun he ↦ ?_
    obtain rfl : q = q' := by injection he
    cases q with
    | error e => exact (hm rfl).cons _
    | ok c =>
      refine .of_sameCall (.second c z z') fun he ↦ ?_
      obtain rfl : z = z' := by injection he
      exact (hm rfl).cons _

theorem Polls.agree {there : Bool} {xs : List Waker} {m m' : List (Told A C D)}
    (h : Polls there xs m) (h' : Polls there xs m') : Agree m m' := by
  induction h generalizing m' with
  | nil => cases h'; exact .inl rfl
  | cons hp _ ih =>
    cases h' with
    | cons hp' hm' => exact hp.agree hp' fun he ↦ ih (by simp only at he; exact he ▸ hm')

end Told

/-! ### The two sides -/

/-- Polls once with each waker, and writes down the outcomes. -/
def polls (f : Future (W × List (Told A C D)) B V S D) :
    List Waker → S → Act (W × List (Told A C D)) B V S
  | [], s => .done s
  | x :: xs, s => (f.poll s x).bind fun r ↦
    (Act.note (.ended r.1)).bind fun () ↦ f.polls xs r.2

/-- The chain whose first future is a chain, with what happens in it written down. -/
def nested (f : Future W B V S A) (g : A → Act W B V (Except Failure C))
    (h : C → Act W B V (Except Failure D)) :
    Future (W × List (Told A C D)) B V (Option (Option S)) D :=
  ((f.told .poll).andThen fun a ↦ (g a).telling (.first a)).andThen fun c ↦
    (h c).telling (.second c)

/-- The chain with the continuations composed, with what happens in it written down. -/
def flat (f : Future W B V S A) (g : A → Act W B V (Except Failure C))
    (h : C → Act W B V (Except Failure D)) : Future (W × List (Told A C D)) B V (Option S) D :=
  (f.told .poll).andThen (after (fun c ↦ (h c).telling (.second c)) fun a ↦
    (g a).telling (.first a))

section

variable {f : Future W B V S A} {g : A → Act W B V (Except Failure C)}
  {h : C → Act W B V (Except Failure D)}

/-- **States of the two sides** that go together, with the worlds in which they do. -/
inductive Paired : Option (Option S) → W × List L → Option S → W × List L → Prop
  /-- The first future is there. -/
  | alive (s : S) (u : W × List L) : Paired (some (some s)) u (some s) u
  /-- The first continuation has failed. -/
  | failed {u u' : W × List L} (hl : u.2 = u'.2) : Paired (some none) u none u'
  /-- The second continuation has returned or failed. -/
  | gone {u u' : W × List L} (hl : u.2 = u'.2) : Paired none u none u'

theorem Paired.snd_eq {t : Option (Option S)} {t' : Option S} {u u' : W × List L}
    (h : Paired t u t' u') : u.2 = u'.2 := by
  cases h with
  | alive => rfl
  | failed hl => exact hl
  | gone hl => exact hl

/-- Both sides may write the same down. -/
theorem Paired.note {t : Option (Option S)} {t' : Option S} {u u' : W × List L}
    (h : Paired t u t' u') (e : L) : Paired t (u.1, u.2 ++ [e]) t' (u'.1, u'.2 ++ [e]) := by
  cases h with
  | alive => exact .alive _ _
  | failed hl => exact .failed (congrArg (· ++ [e]) hl)
  | gone hl => exact .gone (congrArg (· ++ [e]) hl)

/-- Equality is kept beside the world if it is kept. -/
theorem eq_mem_beside {Ω : Set (W → W → Prop)} (hΩ : Eq ∈ Ω) :
    (Eq : W × L → W × L → Prop) ∈ Act.Beside '' Ω :=
  ⟨Eq, hΩ, funext fun _ ↦ funext fun _ ↦ propext Prod.ext_iff.symm⟩

/-- **One poll of each side**, if the second continuation does the same whether or not the first
future has been destroyed. -/
theorem Paired.poll {Ω : Set (W → W → Prop)} (hΩ : Eq ∈ Ω)
    (hunseen : ∀ c s w, (h c).Matches Ω (fun _ r _ r' ↦ r = r') (f.drop s w) w (h c))
    {t : Option (Option S)} {t' : Option S} {u u' : W × List (Told A C D)}
    (ht : Paired t u t' u') (x : Waker) :
    ((nested f g h).poll t x).Matches (Act.Beside '' Ω)
      (fun v r v' r' ↦ r.1 = r'.1 ∧ Paired r.2 v r'.2 v') u u' ((flat f g h).poll t' x) := by
  cases ht with
  | failed hl => exact .done ⟨rfl, .failed hl⟩
  | gone hl => exact .done ⟨rfl, .gone hl⟩
  | alive s =>
    simp only [nested, flat, andThen, chainPoll, Act.bind_assoc]
    refine Act.Matches.same (eq_mem_beside hΩ) _ ?_
    rintro u ⟨(e | (_ | a)), s⟩
    · exact .done ⟨rfl, .alive s u⟩
    · exact .done ⟨rfl, .alive s u⟩
    · simp only [chainRest, after, Act.bind_assoc]
      refine Act.Matches.same (eq_mem_beside hΩ) _ fun u r ↦ ?_
      -- On the one side the first future is destroyed now, on the other side after what follows.
      refine .lookLeft (.putLeft ?_)
      cases r with
      | error e => exact .lookRight (.putRight (.done ⟨rfl, .failed rfl⟩))
      | ok c =>
        refine ((hunseen c s u.1).telling (.second c) u.2).bind ?_
        rintro v r v' _ ⟨rfl, hv⟩
        exact .lookLeft (.putLeft (.lookRight (.putRight (.done ⟨rfl, .gone hv⟩))))

/-- **Polls of each side**, if the second continuation does the same whether or not the first future
has been destroyed. -/
theorem Paired.polls {Ω : Set (W → W → Prop)} (hΩ : Eq ∈ Ω)
    (hunseen : ∀ c s w, (h c).Matches Ω (fun _ r _ r' ↦ r = r') (f.drop s w) w (h c))
    (xs : List Waker) {t : Option (Option S)} {t' : Option S} {u u' : W × List (Told A C D)}
    (ht : Paired t u t' u') :
    ((nested f g h).polls xs t).Matches (Act.Beside '' Ω) (fun v _ v' _ ↦ v.2 = v'.2) u u'
      ((flat f g h).polls xs t') := by
  induction xs generalizing t t' u u' with
  | nil => exact .done ht.snd_eq
  | cons x xs ih =>
    refine (ht.poll hΩ hunseen x).bind ?_
    rintro v ⟨o, t⟩ v' ⟨_, t'⟩ ⟨rfl, ht⟩
    exact .lookLeft (.putLeft (.lookRight (.putRight (ih (ht.note (.ended o))))))

end

/-- A future that is pending, fails and then counts, in a world with a number and a flag. Destroying
it raises the flag. -/
def counting : Future (Nat × Bool) Unit Unit Nat Nat where
  poll
    | 0, x => .wake x (.done (.ok .pending, 1))
    | 1, _ => .done (.error (.reused "counting"), 2)
    | n, _ => (Act.lift fun w ↦ (w.1, w.1 + 1, w.2)).bind fun m ↦ .done (.ok (.ready (n + m)), n)
  drop _ w := (w.1, true)

end Future

end TaskRuntime
