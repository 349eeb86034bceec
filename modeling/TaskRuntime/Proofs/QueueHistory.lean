import Mathlib.Data.List.Induction
import TaskRuntime.Proofs.History
import TaskRuntime.Proofs.Signals

/-!
# The history of a ready queue

Any number of threads push onto a ready queue, pop off it and look at how full it is, each of these
in one step. The history lists the steps with their answers. Two containers hold the ids, but what
the queue answers is told by the history alone: an id is *pending* if it has been accepted and has
not been popped since, and a pop returns the pending id that was accepted last.

## The invariant

`Stacks h q` says what the containers hold after the history `h`. Of the answers there are only
three kinds: those that leave the queue alone, an accepted push, and a pop that returns an id. Each
has its lemma, `Stacks.step` puts them together, and `Run.stacks` is the induction.

## Pushes from several threads

Without pops the stack only grows, by the ids that are pushed and not queued yet. Which ids these
are does not depend on the order, so two interleavings of the same pushes accept equally many, and
leave the same ids to be drained. In which order the ids are drained does depend on it.
-/

namespace TaskRuntime

namespace ReadyQueue

/-! ### Operations and histories -/

/-- What a thread asks of a queue. -/
inductive Op
  /-- Adds an id. -/
  | push (id : TaskId)
  /-- Takes an id off. -/
  | pop
  /-- Asks how many ids are queued. -/
  | size
  /-- Asks whether no id is queued. -/
  | isEmpty
  deriving DecidableEq, Repr

/-- What a queue answers. -/
inductive Answer
  /-- Whether a push was accepted. -/
  | accepted (yes : Bool)
  /-- What a pop returned. -/
  | popped (id : Option TaskId)
  /-- How many ids are queued. -/
  | size (count : Nat)
  /-- Whether no id is queued. -/
  | isEmpty (yes : Bool)
  deriving DecidableEq, Repr

/-- Performs one operation. -/
def perform (q : ReadyQueue) : Op → Answer × ReadyQueue
  | .push id => (.accepted (q.push id).1, (q.push id).2)
  | .pop =>
    match q.pop? with
    | some (id, r) => (.popped (some id), r)
    | none => (.popped none, q)
  | .size => (.size q.size, q)
  | .isEmpty => (.isEmpty q.isEmpty, q)

/-- An operation of a thread, with its answer. -/
structure Deed where
  /-- Whose operation it is. -/
  thread : ThreadId
  /-- What was asked. -/
  op : Op
  /-- What was answered. -/
  answer : Answer
  deriving DecidableEq, Repr

namespace Deed

/-- The id is pushed and accepted. -/
def Accepts (id : TaskId) (d : Deed) : Prop := d.op = .push id ∧ d.answer = .accepted true

/-- The id is popped. -/
def Pops (id : TaskId) (d : Deed) : Prop := d.answer = .popped (some id)

instance (id : TaskId) (d : Deed) : Decidable (d.Accepts id) :=
  inferInstanceAs (Decidable (_ ∧ _))

instance (id : TaskId) (d : Deed) : Decidable (d.Pops id) :=
  inferInstanceAs (Decidable (_ = _))

end Deed

/-- **Operations in any interleaving**: at each step any thread performs any operation. -/
inductive Run (q₀ : ReadyQueue) : List Deed → ReadyQueue → Prop
  | nil : Run q₀ [] q₀
  | step {h : List Deed} {q : ReadyQueue} (thread : ThreadId) (op : Op) (before : Run q₀ h q) :
    Run q₀ (h ++ [⟨thread, op, (q.perform op).1⟩]) (q.perform op).2

variable {q q₀ r : ReadyQueue} {h l n n' : List Deed} {d : Deed} {id i : TaskId}

/-- The last operation of a history, and the queue before it. -/
theorem Run.last (hr : Run q₀ (h ++ [d]) q) :
    ∃ r, Run q₀ h r ∧ d.answer = (r.perform d.op).1 ∧ q = (r.perform d.op).2 := by
  generalize hn : h ++ [d] = n at hr
  cases hr with
  | nil => simp at hn
  | step thread op before =>
    obtain ⟨rfl, hd⟩ := List.append_inj' hn rfl
    obtain rfl := List.singleton_inj.1 hd
    exact ⟨_, before, rfl, rfl⟩

/-- A part of a history is a history. -/
theorem Run.initial (hr : Run q₀ (h ++ l) q) : ∃ r, Run q₀ h r := by
  induction l using List.reverseRecOn generalizing q with
  | nil => exact ⟨q, by simpa using hr⟩
  | append_singleton l d ih =>
    rw [← List.append_assoc] at hr
    obtain ⟨r, hr, -⟩ := hr.last
    exact ih hr

/-! ### What a history says -/

/-- The id has been accepted and has not been popped since. -/
def Pending (h : List Deed) (id : TaskId) : Prop := Since (Deed.Accepts id) (Deed.Pops id) h

/-- One id is pending, and the other has not been accepted since it was. -/
def Later (h : List Deed) (id i : TaskId) : Prop :=
  Since (Deed.Accepts id) (fun d ↦ d.Pops id ∨ d.Accepts i) h

/-- The pushes and pops of an id, in order: `true` for a push that was accepted, `false` for a pop
that returned the id. -/
def turns (id : TaskId) (h : List Deed) : List Bool :=
  h.filterMap fun d ↦
    if d.Accepts id then some true else if d.Pops id then some false else none

/-- The answer that is due after a history. -/
def Due (h : List Deed) : Op → Answer → Prop
  | .push id, a => a = .accepted true ∧ ¬ Pending h id ∨ a = .accepted false ∧ Pending h id
  | .pop, a =>
    (∃ id, a = .popped (some id) ∧ Pending h id ∧ ∀ i, Pending h i → i ≠ id → Later h id i) ∨
      a = .popped none ∧ ∀ id, ¬ Pending h id
  | .size, a =>
    ∃ ids : List TaskId, ids.Nodup ∧ (∀ id, id ∈ ids ↔ Pending h id) ∧ a = .size ids.length
  | .isEmpty, a => ∃ yes, a = .isEmpty yes ∧ (yes = true ↔ ∀ id, ¬ Pending h id)

/-! ### The invariant -/

/-- **What the containers hold after a history.** -/
structure Stacks (h : List Deed) (q : ReadyQueue) : Prop where
  /-- No id is held twice, and the set holds exactly the ids of the stack. -/
  synced : q.Synced
  /-- The stack holds the pending ids. -/
  mem_iff : ∀ id, id ∈ q.ids ↔ Pending h id
  /-- What was accepted later lies further up. -/
  later : q.ids.Pairwise (Later h)
  /-- Each accepted push of an id has been followed by one pop of it, but for the last one if the
  id is still queued. -/
  turns_eq : ∀ id, ∃ k, turns id h =
    (List.replicate k [true, false]).flatten ++ if id ∈ q.ids then [true] else []

theorem stacks_empty : Stacks [] {} where
  synced := synced_empty
  mem_iff _ := ⟨fun hm ↦ absurd hm (by simp), fun hs ↦ absurd hs not_since_nil⟩
  later := .nil
  turns_eq _ := ⟨0, rfl⟩

/-- The answer leaves the queue alone. -/
theorem Stacks.silent (hs : Stacks h q) (ha : ∀ id, ¬ d.Accepts id) (hp : ∀ id, ¬ d.Pops id) :
    Stacks (h ++ [d]) q where
  synced := hs.synced
  mem_iff id := by
    rw [hs.mem_iff, Pending, Pending, since_concat]
    simp [ha, hp]
  later := hs.later.imp fun hab ↦ since_concat.2 (Or.inr ⟨hab, by simp [ha, hp]⟩)
  turns_eq id := by
    obtain ⟨k, hk⟩ := hs.turns_eq id
    refine ⟨k, ?_⟩
    rw [← hk]
    simp [turns, ha, hp]

/-- An id is accepted: it goes on top, above everything that has been accepted before. -/
theorem Stacks.accept (hs : Stacks h q) (hid : id ∉ q.ids) (t : ThreadId) :
    Stacks (h ++ [⟨t, .push id, .accepted true⟩]) (q.push id).2 := by
  have hids : (q.push id).2.ids = id :: q.ids := by
    rw [ReadyQueue.push, if_neg fun hq ↦ hid ((hs.synced.mem_iff id).1 hq)]
  refine ⟨hs.synced.push id, fun i ↦ ?_, ?_, fun i ↦ ?_⟩
  · rw [hs.synced.mem_push, hs.mem_iff, Pending, Pending, since_concat]
    simp [Deed.Accepts, Deed.Pops, eq_comm]
  · rw [hids]
    refine List.pairwise_cons.2 ⟨fun i _ ↦ since_concat.2 (Or.inl ⟨rfl, rfl⟩), ?_⟩
    refine hs.later.imp_of_mem fun {a b} _ hb hab ↦ since_concat.2 (Or.inr ⟨hab, ?_⟩)
    rintro (hpop | ⟨hpush, -⟩)
    · cases hpop
    · obtain rfl : id = b := by simpa using hpush
      exact hid hb
  · obtain ⟨k, hk⟩ := hs.turns_eq i
    refine ⟨k, ?_⟩
    rw [turns, List.filterMap_append, ← turns, hk, hids]
    by_cases hi : i = id
    · subst hi
      simp [hid, Deed.Accepts]
    · simp [Deed.Accepts, Deed.Pops, hi, Ne.symm hi]

/-- An id is popped: what lies below it stays as it is. -/
theorem Stacks.take (hs : Stacks h q) (hpop : q.pop? = some (id, r)) (t : ThreadId) (op : Op) :
    Stacks (h ++ [⟨t, op, .popped (some id)⟩]) r := by
  have hids := ids_of_pop? hpop
  have hnd := hs.synced.nodup
  rw [hids] at hnd
  obtain ⟨hid, -⟩ := List.nodup_cons.1 hnd
  have hlater := hs.later
  rw [hids] at hlater
  refine ⟨hs.synced.pop hpop, fun i ↦ ?_, ?_, fun i ↦ ?_⟩
  · rw [hs.synced.mem_pop hpop, hs.mem_iff, Pending, Pending, since_concat]
    simp [Deed.Accepts, Deed.Pops, eq_comm]
  · refine (List.pairwise_cons.1 hlater).2.imp_of_mem fun {a b} ha _ hab ↦
      since_concat.2 (Or.inr ⟨hab, ?_⟩)
    rintro (htop | ⟨-, hpush⟩)
    · obtain rfl : id = a := by simpa [Deed.Pops] using htop
      exact hid ha
    · cases hpush
  · obtain ⟨k, hk⟩ := hs.turns_eq i
    rw [turns, List.filterMap_append, ← turns, hk, hids]
    by_cases hi : i = id
    · -- The push that has been waiting for its pop makes one more pair with it.
      subst hi
      refine ⟨k + 1, ?_⟩
      rw [List.replicate_succ', List.flatten_concat]
      simp [hid, Deed.Accepts, Deed.Pops]
    · refine ⟨k, ?_⟩
      simp [Deed.Accepts, Deed.Pops, hi, Ne.symm hi]

/-- **One operation keeps the invariant.** -/
theorem Stacks.step (hs : Stacks h q) (t : ThreadId) (op : Op) :
    Stacks (h ++ [⟨t, op, (q.perform op).1⟩]) (q.perform op).2 := by
  cases op with
  | push id =>
    by_cases hid : id ∈ q.ids
    · have hpush : q.push id = (false, q) := if_pos ((hs.synced.mem_iff id).2 hid)
      rw [perform, hpush]
      exact hs.silent (by simp [Deed.Accepts]) (by simp [Deed.Pops])
    · have hpush : (q.push id).1 = true := by
        rw [ReadyQueue.push, if_neg fun hq ↦ hid ((hs.synced.mem_iff id).1 hq)]
      rw [perform, hpush]
      exact hs.accept hid t
  | pop =>
    rw [perform]
    split
    · next hpop => exact hs.take hpop t .pop
    · exact hs.silent (by simp [Deed.Accepts]) (by simp [Deed.Pops])
  | size => exact hs.silent (by simp [Deed.Accepts]) (by simp [Deed.Pops, perform])
  | isEmpty => exact hs.silent (by simp [Deed.Accepts]) (by simp [Deed.Pops, perform])

theorem Run.stacks_of (hr : Run q₀ l q) (hs : Stacks h q₀) : Stacks (h ++ l) q := by
  induction hr with
  | nil => simpa using hs
  | step t op before ih =>
    rw [← List.append_assoc]
    exact ih.step t op

theorem Run.stacks (hr : Run {} h q) : Stacks h q := by
  simpa using hr.stacks_of stacks_empty

/-- **The answer is due.** -/
theorem Stacks.due (hs : Stacks h q) (op : Op) : Due h op (q.perform op).1 := by
  cases op with
  | push id =>
    by_cases hid : id ∈ q.ids
    · refine Or.inr ⟨?_, (hs.mem_iff id).1 hid⟩
      rw [perform, ReadyQueue.push, if_pos ((hs.synced.mem_iff id).2 hid)]
    · refine Or.inl ⟨?_, fun hp ↦ hid ((hs.mem_iff id).2 hp)⟩
      rw [perform, ReadyQueue.push, if_neg fun hq ↦ hid ((hs.synced.mem_iff id).1 hq)]
  | pop =>
    rw [perform]
    split
    · next id r hpop =>
      have hids := ids_of_pop? hpop
      have hlater := hs.later
      rw [hids] at hlater
      refine Or.inl ⟨id, rfl, (hs.mem_iff id).1 (by simp [hids]), fun i hi hne ↦ ?_⟩
      have hmem : i ∈ id :: r.ids := hids ▸ (hs.mem_iff i).2 hi
      exact (List.pairwise_cons.1 hlater).1 i ((List.mem_cons.1 hmem).resolve_left hne)
    · next hpop =>
      have hids : q.ids = [] := by
        cases hq : q.ids with
        | nil => rfl
        | cons id rest => simp [pop?, hq] at hpop
      exact Or.inr ⟨rfl, fun id hp ↦ by simpa [hids] using (hs.mem_iff id).2 hp⟩
  | size => exact ⟨q.ids, hs.synced.nodup, hs.mem_iff, rfl⟩
  | isEmpty =>
    refine ⟨_, rfl, ?_⟩
    rw [isEmpty, List.isEmpty_iff, List.eq_nil_iff_forall_not_mem]
    exact forall_congr' fun id ↦ not_congr (hs.mem_iff id)

/-! ### Pushes from several threads -/

/-- The operations of one thread, in its order. -/
def part (t : ThreadId) (n : List Deed) : List Op := (n.filter fun d ↦ d.thread = t).map Deed.op

/-- Nothing is popped in between. -/
def Filling (n : List Deed) : Prop := ∀ d ∈ n, d.op ≠ .pop

/-- Nothing is done but popping. -/
def Draining (n : List Deed) : Prop := ∀ d ∈ n, d.op = .pop

/-- How many pushes were accepted. -/
def acceptances (n : List Deed) : Nat := n.countP fun d ↦ d.answer = .accepted true

/-- The ids that were popped, in order. -/
def popped (n : List Deed) : List TaskId :=
  n.filterMap fun d ↦ match d.answer with
    | .popped id => id
    | _ => none

/-- Two interleavings of the same operations have the same pushes. -/
theorem pushed_iff_of_part_eq (hparts : ∀ t, part t n = part t n') :
    (∃ d ∈ n, d.op = .push id) ↔ ∃ d ∈ n', d.op = .push id := by
  have key {n n' : List Deed} (hparts : ∀ t, part t n = part t n') :
      (∃ d ∈ n, d.op = .push id) → ∃ d ∈ n', d.op = .push id := by
    rintro ⟨d, hd, hop⟩
    have hmem : Op.push id ∈ part d.thread n :=
      List.mem_map.2 ⟨d, List.mem_filter.2 ⟨hd, by simp⟩, hop⟩
    rw [hparts] at hmem
    obtain ⟨d', hd', hop'⟩ := List.mem_map.1 hmem
    exact ⟨d', (List.mem_filter.1 hd').1, hop'⟩
  exact ⟨key hparts, key fun t ↦ (hparts t).symm⟩

/-- **Without pops the stack grows** by the ids that are pushed and not queued yet. -/
theorem Run.grows (hr : Run q₀ n q) (hs : q₀.Synced) (hn : Filling n) :
    q.Synced ∧ q.ids.length = q₀.ids.length + acceptances n ∧
      ∀ id, id ∈ q.ids ↔ id ∈ q₀.ids ∨ ∃ d ∈ n, d.op = .push id := by
  induction hr with
  | nil => exact ⟨hs, by simp [acceptances], by simp⟩
  | @step h q t op before ih =>
    obtain ⟨hsynced, hlen, hmem⟩ := ih fun d hd ↦ hn d (List.mem_append_left _ hd)
    cases op with
    | push id =>
      refine ⟨hsynced.push id, ?_, fun i ↦ ?_⟩
      · simp only [perform, acceptances, List.countP_append] at hlen ⊢
        by_cases hid : id ∈ q.queued
        · rw [ReadyQueue.push, if_pos hid]
          simpa using hlen
        · rw [ReadyQueue.push, if_neg hid]
          simp [hlen, Nat.add_assoc]
      · rw [perform, hsynced.mem_push, hmem]
        simp only [List.mem_append, List.mem_singleton, or_and_right, exists_or, exists_eq_left,
          Op.push.injEq]
        rw [or_comm, or_assoc, eq_comm (a := id)]
    | pop =>
      have hd := hn ⟨t, .pop, (q.perform .pop).1⟩ (by simp)
      exact absurd rfl hd
    | size =>
      exact ⟨hsynced, by simpa [acceptances, perform] using hlen, by simpa [perform] using hmem⟩
    | isEmpty =>
      exact ⟨hsynced, by simpa [acceptances, perform] using hlen, by simpa [perform] using hmem⟩

/-- **Draining** returns the stack from the top. -/
theorem Run.drains (hr : Run q₀ n q) (hn : Draining n) : q₀.ids = popped n ++ q.ids := by
  induction hr with
  | nil => rfl
  | @step h q t op before ih =>
    have hids := ih fun d hd ↦ hn d (List.mem_append_left _ hd)
    obtain rfl : op = .pop := hn ⟨t, op, (q.perform op).1⟩ (by simp)
    rw [hids, popped, popped, List.filterMap_append, List.append_assoc]
    congr 1
    rw [perform]
    split
    · next hpop => simpa using ids_of_pop? hpop
    · rfl

/-- Two stretches of history in which each thread pushes the same ids in the same order, and nothing
is popped. -/
structure SamePushes (n n' : List Deed) : Prop where
  /-- Nothing is popped in the one. -/
  filling : Filling n
  /-- Nothing is popped in the other. -/
  filling' : Filling n'
  /-- Each thread performs the same operations. -/
  parts : ∀ t, part t n = part t n'

/-- Pushes in another order leave the same ids. -/
theorem SamePushes.perm {q₁ q₂ : ReadyQueue} (hs : q.Synced) (hn : SamePushes n n')
    (h₁ : Run q n q₁) (h₂ : Run q n' q₂) :
    acceptances n = acceptances n' ∧ q₁.ids.Perm q₂.ids := by
  obtain ⟨hs₁, hlen₁, hmem₁⟩ := h₁.grows hs hn.filling
  obtain ⟨hs₂, hlen₂, hmem₂⟩ := h₂.grows hs hn.filling'
  have hperm : q₁.ids.Perm q₂.ids := by
    refine (List.perm_ext_iff_of_nodup hs₁.nodup hs₂.nodup).2 fun id ↦ ?_
    rw [hmem₁, hmem₂, pushed_iff_of_part_eq hn.parts]
  have hlen := hperm.length_eq
  exact ⟨by omega, hperm⟩

/-- Pops until nothing is left return the ids that a drain returns. -/
theorem Run.popped_eq_drain (hr : Run q₀ n q) (hn : Draining n) (hq : q.isEmpty = true) :
    popped n = q₀.drain.1 := by
  rw [drain, hr.drains hn, List.isEmpty_iff.1 hq, List.append_nil]

/-! ### The ready queue -/

/-- **A stack without duplicates.** After any operations by any threads:

* the two containers agree, and hold the ids that are pending (`Stacks`);
* a push is refused exactly for an id that is queued, and then changes nothing;
* each answer so far was the one that is due after what came before it;
* from there on, two interleavings of the same pushes accept equally many, and the same ids are
  drained after them. -/
theorem Run.stack_without_duplicates (hr : Run {} h q) :
    Stacks h q ∧
      (∀ id, ((q.push id).1 = false ↔ id ∈ q.ids) ∧ (id ∈ q.ids → (q.push id).2 = q)) ∧
      (∀ before d after, h = before ++ d :: after → Due before d.op d.answer) ∧
      ∀ n n' q₁ q₂, SamePushes n n' → Run q n q₁ → Run q n' q₂ →
        acceptances n = acceptances n' ∧ q₁.drain.1.Perm q₂.drain.1 ∧
          ∀ m m' r₁ r₂, Draining m → Draining m' → Run q₁ m r₁ → Run q₂ m' r₂ →
            r₁.isEmpty = true → r₂.isEmpty = true → (popped m).Perm (popped m') := by
  have hs := hr.stacks
  refine ⟨hs, fun id ↦ ?_, ?_, fun n n' q₁ q₂ hn h₁ h₂ ↦ ?_⟩
  · rw [← hs.synced.mem_iff, ReadyQueue.push]
    split
    · next hid => exact ⟨by simp [hid], fun _ ↦ rfl⟩
    · next hid => exact ⟨by simp [hid], fun hq ↦ absurd hq hid⟩
  · rintro before d after rfl
    rw [List.append_cons] at hr
    obtain ⟨r, hr⟩ := hr.initial
    obtain ⟨r, hr, hanswer, -⟩ := hr.last
    exact hanswer ▸ hr.stacks.due d.op
  · obtain ⟨hcount, hperm⟩ := hn.perm hs.synced h₁ h₂
    refine ⟨hcount, hperm, fun m m' r₁ r₂ hm hm' hr₁ hr₂ he₁ he₂ ↦ ?_⟩
    rwa [hr₁.popped_eq_drain hm he₁, hr₂.popped_eq_drain hm' he₂]

/-- Two threads push the same id, and one pops what was pushed last. -/
def errands : List Deed :=
  [⟨0, .push 1, .accepted true⟩, ⟨1, .push 2, .accepted true⟩, ⟨1, .push 1, .accepted false⟩,
    ⟨0, .pop, .popped (some 2)⟩, ⟨1, .size, .size 1⟩]

/-- Two threads push two ids each, by turns. -/
def byTurns : List Deed :=
  [⟨0, .push 3, .accepted true⟩, ⟨1, .push 2, .accepted true⟩, ⟨0, .push 1, .accepted false⟩,
    ⟨1, .push 3, .accepted false⟩]

/-- They push the same ids, one thread after the other. -/
def inARow : List Deed :=
  [⟨1, .push 2, .accepted true⟩, ⟨1, .push 3, .accepted true⟩, ⟨0, .push 3, .accepted false⟩,
    ⟨0, .push 1, .accepted false⟩]

/-- What was pushed by turns comes off in another order than what was pushed in a row. -/
theorem stack_without_duplicates_errands :
    Stacks errands ⟨[1], [1]⟩ ∧ Due (errands.take 3) .pop (.popped (some 2)) ∧
      acceptances byTurns = acceptances inARow ∧ ([2, 3, 1] : List TaskId).Perm [3, 2, 1] := by
  have hr : Run {} errands ⟨[1], [1]⟩ :=
    ((((Run.nil.step 0 (.push 1)).step 1 (.push 2)).step 1 (.push 1)).step 0 .pop).step 1 .size
  have hturns : Run ⟨[1], [1]⟩ byTurns ⟨[2, 3, 1], [2, 3, 1]⟩ :=
    (((Run.nil.step 0 (.push 3)).step 1 (.push 2)).step 0 (.push 1)).step 1 (.push 3)
  have hrow : Run ⟨[1], [1]⟩ inARow ⟨[3, 2, 1], [3, 2, 1]⟩ :=
    (((Run.nil.step 1 (.push 2)).step 1 (.push 3)).step 0 (.push 3)).step 0 (.push 1)
  have hsame : SamePushes byTurns inARow := by
    refine ⟨by simp [Filling, byTurns], by simp [Filling, inARow], fun t ↦ ?_⟩
    match t with
    | 0 => rfl
    | 1 => rfl
    | t + 2 => rfl
  obtain ⟨hs, -, hdue, hpushes⟩ := hr.stack_without_duplicates
  obtain ⟨hcount, -, hperm⟩ := hpushes byTurns inARow _ _ hsame hturns hrow
  refine ⟨hs, hdue (errands.take 3) ⟨0, .pop, .popped (some 2)⟩ (errands.drop 4) rfl, hcount, ?_⟩
  exact hperm _ _ ⟨[], []⟩ ⟨[], []⟩ (by simp [Draining]) (by simp [Draining])
    (((Run.nil.step 0 .pop).step 1 .pop).step 0 .pop)
    (((Run.nil.step 1 .pop).step 1 .pop).step 1 .pop) rfl rfl

end ReadyQueue

end TaskRuntime
