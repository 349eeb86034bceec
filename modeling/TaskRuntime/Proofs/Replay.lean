import TaskRuntime.Proofs.Queued

/-!
# What the ready queue accepts

A push of an id that is queued already is not accepted. Which pushes are accepted is not noted
anywhere, but it can be found out: the history tells in which order ids were pushed and taken off,
and `ReadyQueue.replay` does the same to a queue of its own, with the operations of a ready queue.

The replayed queue is the queue of the executor at every moment, and what has been accepted is what
has been taken off and what is queued, counted with repetition (`Signals.Replays`).
-/

namespace TaskRuntime

variable {W B V : Type}

/-! ### Pushes and pops in a history -/

namespace Note

variable {q : QueueRef} {id : TaskId} {k : Note V}

/-- The id that is pushed onto a ready queue, if one is. -/
def pushed? (q : QueueRef) : Note V → Option TaskId
  | .entered id => some id
  | .woke w => if w.queue = some q ∧ w.parker ≠ none then some w.id else none
  | _ => none

/-- The id that is taken off the ready queue, if one is. -/
def taken? : Note V → Option TaskId
  | .began id false => some id
  | .stale id => some id
  | _ => none

theorem pushed?_eq_some : k.pushed? q = some id ↔ k.Queues q id := by
  cases k with
  | woke w => simp [pushed?, Queues, and_assoc]
  | _ => simp [pushed?, Queues]

theorem taken?_eq_some : k.taken? = some id ↔ k.Takes id := by
  cases k with
  | began i inPlace => cases inPlace <;> simp [taken?, Takes]
  | _ => simp [taken?, Takes]

theorem Silent.pushed? (hk : k.Silent) (q : QueueRef) : k.pushed? q = none :=
  Option.eq_none_iff_forall_not_mem.2 fun id hid ↦ hk.not_queues q id (pushed?_eq_some.1 hid)

theorem Silent.taken? (hk : k.Silent) : k.taken? = none :=
  Option.eq_none_iff_forall_not_mem.2 fun id hid ↦ hk.not_takes id (taken?_eq_some.1 hid)

end Note

/-- The ids that have been taken off the ready queue, in order. -/
def takenIds (h : List (Note V)) : List TaskId := h.filterMap Note.taken?

theorem takenIds_append (h n : List (Note V)) : takenIds (h ++ n) = takenIds h ++ takenIds n :=
  List.filterMap_append

theorem takenIds_of_silent {n : List (Note V)} (hn : ∀ k ∈ n, k.Silent) : takenIds n = [] :=
  List.filterMap_eq_nil_iff.2 fun k hk ↦ (hn k hk).taken?

/-! ### Replaying a history -/

namespace ReadyQueue

variable {q : QueueRef} {r : ReadyQueue} {h n : List (Note V)}

/-- Does to a ready queue what a note tells: the id that has been accepted, if one has, and the
queue afterwards. -/
def answer (q : QueueRef) (r : ReadyQueue) (k : Note V) : List TaskId × ReadyQueue :=
  match k.pushed? q, k.taken? with
  | some id, _ =>
    let (accepted, r) := r.push id
    (if accepted then [id] else [], r)
  | none, some _ => ([], r.pop?.elim r Prod.snd)
  | none, none => ([], r)

/-- **Does to a ready queue what a history tells**: the ids that have been accepted, and the queue
afterwards. -/
def replay (q : QueueRef) : ReadyQueue → List (Note V) → List TaskId × ReadyQueue
  | r, [] => ([], r)
  | r, k :: h => ((r.answer q k).1 ++ (replay q (r.answer q k).2 h).1,
      (replay q (r.answer q k).2 h).2)

/-- The ids that a ready queue has accepted, from when it was made. -/
def accepted (q : QueueRef) (h : List (Note V)) : List TaskId := (replay q {} h).1

theorem replay_append (r : ReadyQueue) (h n : List (Note V)) :
    replay q r (h ++ n) =
      ((replay q r h).1 ++ (replay q (replay q r h).2 n).1,
        (replay q (replay q r h).2 n).2) := by
  induction h generalizing r with
  | nil => rfl
  | cons k h ih => simp only [List.cons_append, replay, ih, List.append_assoc]

theorem replay_singleton (r : ReadyQueue) (k : Note V) : replay q r [k] = r.answer q k := by
  simp only [replay, List.append_nil]

theorem replay_of_silent (hn : ∀ k ∈ n, k.Silent) : replay q r n = ([], r) := by
  induction n with
  | nil => rfl
  | cons k n ih =>
    have hk := hn k List.mem_cons_self
    have ha : r.answer q k = ([], r) := by simp only [answer, hk.pushed?, hk.taken?]
    rw [replay, ha]
    exact ih fun k hk ↦ hn k (List.mem_cons_of_mem _ hk)

/-- What is not pushed is not accepted. -/
theorem count_replay_of_not_queues {id : TaskId} (r : ReadyQueue)
    (hn : ∀ k ∈ n, ¬ k.Queues q id) : (replay q r n).1.count id = 0 := by
  induction n generalizing r with
  | nil => rfl
  | cons k n ih =>
    have hrest := ih (r.answer q k).2 fun k hk ↦ hn k (List.mem_cons_of_mem _ hk)
    have hk : (r.answer q k).1.count id = 0 := by
      rw [List.count_eq_zero]
      intro hmem
      unfold answer at hmem
      split at hmem
      · next i hi =>
        have hne : i ≠ id := fun e ↦ hn k List.mem_cons_self (Note.pushed?_eq_some.1 (e ▸ hi))
        dsimp only at hmem
        split at hmem
        · exact hne (List.mem_singleton.1 hmem).symm
        · cases hmem
      · cases hmem
      · cases hmem
    rw [replay, List.count_append, hk, hrest]

theorem ids_push (r : ReadyQueue) (id : TaskId) :
    (r.push id).2.ids = (if (r.push id).1 then [id] else []) ++ r.ids := by
  unfold push
  split <;> rfl

end ReadyQueue

/-! ### The balance of a ready queue -/

/-- **The replayed queue is the queue**, and what it has accepted has been taken off or is queued.
-/
structure Signals.Replays (s : Signals) (q : QueueRef) (h : List (Note V)) : Prop where
  /-- There is a queue behind the reference. -/
  lt : q.index < s.queues.length
  /-- The queue is the replayed one. -/
  queue : s.queue q = (ReadyQueue.replay q {} h).2
  /-- Every accepted id has been taken off, or is queued. -/
  balance : ((s.queue q).ids ++ takenIds h).Perm (ReadyQueue.accepted q h)

namespace Signals.Replays

variable {s s' : Signals} {q : QueueRef} {h n : List (Note V)} {id : TaskId}

/-- One more stretch of history, of which it is known what the queue has made of it. -/
theorem append (hr : s.Replays q h) (hlt : q.index < s'.queues.length)
    {l : List TaskId} (hn : ReadyQueue.replay q (s.queue q) n = (l, s'.queue q))
    (hb : ((s'.queue q).ids ++ takenIds n).Perm (l ++ (s.queue q).ids)) :
    s'.Replays q (h ++ n) := by
  have happend := ReadyQueue.replay_append (q := q) {} h n
  rw [← hr.queue, hn] at happend
  refine ⟨hlt, by rw [happend], ?_⟩
  rw [ReadyQueue.accepted, happend, takenIds_append]
  have hold := hr.balance
  rw [ReadyQueue.accepted] at hold
  have hswap : ((s'.queue q).ids ++ (takenIds h ++ takenIds n)).Perm
      ((s'.queue q).ids ++ takenIds n ++ takenIds h) := by
    rw [List.append_assoc]
    exact List.perm_append_comm.append_left _
  calc ((s'.queue q).ids ++ (takenIds h ++ takenIds n)).Perm
        ((s'.queue q).ids ++ takenIds n ++ takenIds h) := hswap
    List.Perm _ (l ++ (s.queue q).ids ++ takenIds h) := hb.append_right _
    List.Perm _ (l ++ (ReadyQueue.replay q {} h).1) := by
      rw [List.append_assoc]
      exact hold.append_left l
    List.Perm _ ((ReadyQueue.replay q {} h).1 ++ l) := List.perm_append_comm

theorem silent (hr : s.Replays q h) (hq : s'.queue q = s.queue q)
    (hlen : s.queues.length ≤ s'.queues.length) (hn : ∀ k ∈ n, k.Silent) :
    s'.Replays q (h ++ n) :=
  hr.append (Nat.lt_of_lt_of_le hr.lt hlen) (by rw [ReadyQueue.replay_of_silent hn, hq])
    (by rw [takenIds_of_silent hn, List.append_nil, hq]; exact .refl _)

/-- An id has been pushed, and the note says so. -/
theorem pushed {k : Note V} (hr : s.Replays q h) (hk : k.pushed? q = some id)
    (ht : k.taken? = none) : (s.push q id).2.Replays q (h ++ [k]) := by
  have hq : (s.push q id).2.queue q = ((s.queue q).push id).2 := by
    rw [queue_push hr.lt, if_pos rfl]
  have hlt : q.index < (s.push q id).2.queues.length := by
    rw [length_queues_push]
    exact hr.lt
  refine hr.append hlt
    (l := if ((s.queue q).push id).1 then [id] else []) ?_ ?_
  · rw [ReadyQueue.replay_singleton, hq]
    simp only [ReadyQueue.answer, hk]
  · rw [hq, ReadyQueue.ids_push]
    simp [takenIds, ht]

/-- Somebody has pushed for a wake. -/
theorem woke (hr : s.Replays q h) (w : Waker) : (s.pushFor w).Replays q (h ++ [.woke w]) := by
  by_cases hw : w.queue = some q ∧ w.parker ≠ none
  · obtain ⟨p, hp⟩ := Option.ne_none_iff_exists'.1 hw.2
    have hpush : s.pushFor w = (s.push q w.id).2 := by simp only [Signals.pushFor, hw.1, hp]
    rw [hpush]
    exact hr.pushed (by simp [Note.pushed?, hw]) rfl
  · -- A waker that leads elsewhere is as good as a silent note.
    have hnone : (Note.woke w : Note V).pushed? q = none := if_neg hw
    have hq : (s.pushFor w).queue q = s.queue q := by
      unfold Signals.pushFor
      split
      · next r p hr' hp' =>
        have hne : r ≠ q := fun e ↦ hw ⟨e ▸ hr', by simp [hp']⟩
        rw [queue_push hr.lt, if_neg hne]
      · rfl
    have hlt : q.index < (s.pushFor w).queues.length := by
      unfold Signals.pushFor
      split
      · rw [length_queues_push]
        exact hr.lt
      · exact hr.lt
    have htaken : takenIds [(Note.woke w : Note V)] = [] := rfl
    refine hr.append hlt (l := []) ?_ ?_
    · rw [ReadyQueue.replay_singleton, hq]
      simp only [ReadyQueue.answer, hnone, Note.taken?]
    · rw [hq, htaken, List.append_nil]
      exact .refl _

/-- An id has been popped, and the note says so. -/
theorem popped {k : Note V} (hr : s.Replays q h) (hp : s.pop? q = some (id, s'))
    (hk : k = .began id false ∨ k = .stale id) : s'.Replays q (h ++ [k]) := by
  obtain ⟨r, hpop, rfl⟩ := pop?_eq_some hp
  have hq : (s.setQueue q r).queue q = r := by rw [queue_setQueue s q q r hr.lt, if_pos rfl]
  have htaken : k.taken? = some id := Note.taken?_eq_some.2 (Note.takes_iff.2 hk)
  have hpushed : k.pushed? q = none := by rcases hk with rfl | rfl <;> rfl
  refine hr.append (by simpa [setQueue] using hr.lt) (l := []) ?_ ?_
  · rw [ReadyQueue.replay_singleton, hq]
    simp only [ReadyQueue.answer, hpushed, htaken, hpop, Option.elim]
  · have hids : (s.queue q).ids = id :: r.ids := ReadyQueue.ids_of_pop? hpop
    have htakes : takenIds [k] = [id] := by simp [takenIds, htaken]
    rw [hq, htakes, List.nil_append, hids]
    exact List.perm_append_comm

/-- Whatever a move does to the queue, the replayed queue does it too. -/
theorem change (hr : s.Replays q h) (hc : s.Change q n s') : s'.Replays q (h ++ n) := by
  cases hc with
  | silent hq hlen hn => exact hr.silent hq hlen hn
  | entered id hfront hback =>
    have hfront := hr.silent rfl (Nat.le_refl _) hfront
    have hback := (hfront.pushed (k := .entered id) rfl rfl).silent rfl (Nat.le_refl _) hback
    simpa using hback
  | woke w => exact hr.woke w
  | popped hp hk => exact hr.popped hp hk

/-- The queue of an executor that has just been made. -/
theorem fresh {site : Site W B} (hs : site.Fresh) :
    site.signals.Replays (V := V) site.executor.queue [] := by
  have hq : site.signals.queue site.executor.queue = {} := by
    have hsynced := hs.queue.synced
    have hids := hs.ids
    generalize site.signals.queue site.executor.queue = r at hsynced hids
    obtain ⟨ids, queued⟩ := r
    obtain rfl : ids = [] := hids
    obtain rfl : queued = [] := List.eq_nil_iff_forall_not_mem.2 fun id hid ↦ by
      simpa using (hsynced.mem_iff id).1 hid
    rfl
  exact ⟨hs.queue.lt, hq, by rw [hs.ids]; exact .refl _⟩

end Signals.Replays

/-- **In every run, the replayed queue is the queue of the executor**, and what it has accepted has
been taken off or is queued. -/
theorem Ensemble.Run.replays {β : Behaviour W B V} {σ : Surroundings W B V}
    {P : Ensemble W B V → Prop} {site : Site W B} {s : Ensemble W B V} {h : List (Note V)}
    (hs : site.Fresh) (hr : Run β σ P (.start site) h s) :
    s.machine.site.signals.Replays s.machine.site.executor.queue h := by
  induction hr with
  | refl => exact Signals.Replays.fresh hs
  | step _ hstep _ ih =>
    rw [hstep.move.queue_eq]
    exact ih.change hstep.move.change

end TaskRuntime
