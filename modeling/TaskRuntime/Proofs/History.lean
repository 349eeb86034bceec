import TaskRuntime.Executor

/-!
# Histories

A history lists what has happened, first things first. What matters about the past of a task is
mostly of one shape: something has happened, and nothing that undoes it has happened since. `Since`
is that shape, and all that proofs need to know about it is how one more event changes it
(`since_concat`) and how a further stretch of history does (`since_append`).

## What notes mean to a task

The ready queue of an executor changes by few kinds of notes: `Note.Queues` puts an id on it, and
`Note.Takes` takes one off. `Note.Introduces` and `Note.Finishes` bound the time in which a task is
unresolved.
-/

namespace TaskRuntime

section

variable {A : Type} {p q p' q' : A → Prop} {h l : List A} {n : A}

/-- **Since.** Something with `p` has happened, and nothing with `q` after it. -/
def Since (p q : A → Prop) (h : List A) : Prop :=
  ∃ before n after, h = before ++ n :: after ∧ p n ∧ ∀ m ∈ after, ¬ q m

theorem not_since_nil : ¬ Since p q [] := by
  rintro ⟨before, n, after, h, -⟩
  simp at h

/-- One more event: it is either the one that counts, or does not undo an earlier one. -/
theorem since_concat : Since p q (h ++ [n]) ↔ p n ∨ Since p q h ∧ ¬ q n := by
  constructor
  · rintro ⟨before, m, after, heq, hm, hq⟩
    rcases List.eq_nil_or_concat after with rfl | ⟨after, k, rfl⟩
    · obtain ⟨-, hnm⟩ := List.append_inj' heq rfl
      exact Or.inl (List.singleton_inj.1 hnm ▸ hm)
    · rw [List.concat_eq_append, ← List.cons_append, ← List.append_assoc] at heq
      obtain ⟨rfl, hnk⟩ := List.append_inj' heq rfl
      obtain rfl := List.singleton_inj.1 hnk
      exact Or.inr ⟨⟨before, m, after, rfl, hm, fun x hx ↦ hq x (by simp [hx])⟩, hq n (by simp)⟩
  · rintro (hn | ⟨⟨before, m, after, rfl, hm, hq⟩, hn⟩)
    · exact ⟨h, n, [], rfl, hn, by simp⟩
    · refine ⟨before, m, after ++ [n], by simp, hm, fun x hx ↦ ?_⟩
      rcases List.mem_append.1 hx with hx | hx
      · exact hq x hx
      · exact List.mem_singleton.1 hx ▸ hn

/-- A further stretch of history: it either has the event that counts, or undoes nothing. -/
theorem since_append : Since p q (h ++ l) ↔ Since p q l ∨ Since p q h ∧ ∀ m ∈ l, ¬ q m := by
  induction l generalizing h with
  | nil => simp [not_since_nil]
  | cons n l ih =>
    -- The event that counts is the first of the stretch, or one of the others.
    have hcons : Since p q (n :: l) ↔ Since p q l ∨ p n ∧ ∀ m ∈ l, ¬ q m := by
      have := ih (h := [n])
      rw [List.singleton_append, ← List.nil_append [n], since_concat] at this
      simpa [not_since_nil] using this
    rw [List.append_cons, ih, since_concat, hcons]
    simp only [List.mem_cons, forall_eq_or_imp]
    constructor
    · rintro (h1 | ⟨h1 | h1, h2⟩)
      · exact Or.inl (Or.inl h1)
      · exact Or.inl (Or.inr ⟨h1, h2⟩)
      · exact Or.inr ⟨h1.1, h1.2, h2⟩
    · rintro ((h1 | h1) | ⟨h1, h2, h3⟩)
      · exact Or.inl h1
      · exact Or.inr ⟨Or.inl h1.1, h1.2⟩
      · exact Or.inr ⟨Or.inr ⟨h1, h2⟩, h3⟩

/-- A stretch of history that neither brings about nor undoes anything. -/
theorem since_append_of_silent (hp : ∀ m ∈ l, ¬ p m) (hq : ∀ m ∈ l, ¬ q m) :
    Since p q (h ++ l) ↔ Since p q h := by
  rw [since_append]
  refine ⟨?_, fun hs ↦ Or.inr ⟨hs, hq⟩⟩
  rintro (⟨before, n, after, rfl, hn, -⟩ | hs)
  · exact absurd hn (hp n (by simp))
  · exact hs.1

theorem Since.mono (hs : Since p q h) (hp : ∀ m, p m → p' m) (hq : ∀ m ∈ h, q' m → q m) :
    Since p' q' h := by
  obtain ⟨before, n, after, rfl, hn, hafter⟩ := hs
  exact ⟨before, n, after, rfl, hp n hn, fun m hm hqm ↦ hafter m hm (hq m (by simp [hm]) hqm)⟩

/-- Only what has happened matters. -/
theorem since_congr (hp : ∀ m ∈ h, (p m ↔ p' m)) (hq : ∀ m ∈ h, (q m ↔ q' m)) :
    Since p q h ↔ Since p' q' h := by
  constructor
  · rintro ⟨before, n, after, rfl, hn, hafter⟩
    refine ⟨before, n, after, rfl, (hp n (by simp)).1 hn, fun m hm hqm ↦ ?_⟩
    exact hafter m hm ((hq m (by simp [hm])).2 hqm)
  · rintro ⟨before, n, after, rfl, hn, hafter⟩
    refine ⟨before, n, after, rfl, (hp n (by simp)).2 hn, fun m hm hqm ↦ ?_⟩
    exact hafter m hm ((hq m (by simp [hm])).1 hqm)

/-- A history of which only a part of each event is told. -/
theorem since_map {B : Type} {f : B → A} {l : List B} :
    Since p q (l.map f) ↔ Since (fun b ↦ p (f b)) (fun b ↦ q (f b)) l := by
  constructor
  · rintro ⟨before, n, after, heq, hn, hafter⟩
    obtain ⟨l₁, l₂, rfl, rfl, hrest⟩ := List.map_eq_append_iff.1 heq
    obtain ⟨b, l₃, rfl, rfl, rfl⟩ := List.map_eq_cons_iff.1 hrest
    exact ⟨l₁, b, l₃, rfl, hn, fun c hc ↦ hafter _ (List.mem_map_of_mem hc)⟩
  · rintro ⟨before, b, after, rfl, hn, hafter⟩
    refine ⟨before.map f, f b, after.map f, by simp, hn, fun m hm ↦ ?_⟩
    obtain ⟨c, hc, rfl⟩ := List.mem_map.1 hm
    exact hafter c hc

theorem Since.exists_mem (hs : Since p q h) : ∃ n ∈ h, p n := by
  obtain ⟨before, n, after, rfl, hn, -⟩ := hs
  exact ⟨n, by simp, hn⟩

end

namespace Note

variable {V : Type}

/-- Puts an id on a ready queue: its task enters the table, or somebody wakes it. A waker without a
parker does nothing. -/
def Queues (q : QueueRef) (id : TaskId) : Note V → Prop
  | .entered i => i = id
  | .woke w => w.queue = some q ∧ w.parker ≠ none ∧ w.id = id
  | _ => False

/-- Takes an id off the ready queue: its task is polled by a loop, or it has none in the table. -/
def Takes (id : TaskId) : Note V → Prop
  | .began i false => i = id
  | .stale i => i = id
  | _ => False

theorem takes_iff {id : TaskId} {k : Note V} :
    k.Takes id ↔ k = .began id false ∨ k = .stale id := by
  cases k with
  | began i inPlace => cases inPlace <;> simp [Takes]
  | _ => simp [Takes]

/-- Brings a task about: it is polled in place for the first time, or enters the table. -/
def Introduces (id : TaskId) : Note V → Prop
  | .entered i => i = id
  | .began i true => i = id
  | _ => False

/-- Resolves a task: a poll has resulted in a value or has failed, or the body is gone. -/
def Finishes (id : TaskId) : Note V → Prop
  | .ended i _ (.ok (.ready _)) => i = id
  | .ended i _ (.error _) => i = id
  | .destroyed i => i = id
  | _ => False

/-- The waker that an executor hands to the polls of a task queues the task. -/
theorem queues_woke_waker {B : Type} (x : Executor B) (id : TaskId) :
    Queues x.queue id (.woke (x.waker id) : Note V) :=
  ⟨rfl, Option.some_ne_none _, rfl⟩

end Note

end TaskRuntime
