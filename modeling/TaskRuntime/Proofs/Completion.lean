import TaskRuntime.Proofs.Phases
import TaskRuntime.Proofs.Propagation

/-!
# Runs to completion

When a run to completion returns, the table is empty, the value is the one in which its task has
resulted, and every task that has ever had an id has resulted in a value once, unless it has failed
or is still being polled further down the stack.

## The stack of calls

The table is empty whenever a call returns, so by the books every task is resolved, failed, or being
polled. What has to be shown is that the task of the call itself is the first of these. It cannot be
polled further down, since the calls there have been waiting since before it had an id. If it has
failed, then so will the call, and this is the point of `Accounted`: the call in which the poll was
made has failed at once, and the failure comes down the stack call by call, each of them being
doomed as soon as it is told of the failure of the one above it.

`Stack` collects what is kept of the stack. Its lemmas follow what moves do to stacks: the head
changes, a call is put on top, the top goes and the next one gets its result, slots are filled.
-/

namespace TaskRuntime

variable {W B V R : Type}

/-! ### Calls that can only fail -/

namespace Doing

variable {d : Doing W B V}

/-- The poll in the middle of which a call is can only fail. -/
def Doomed : Doing W B V → Prop
  | first p => p.Ends fun r ↦ Failed r.1
  | poll _ p => p.Ends fun r ↦ Failed r.1
  | _ => False

/-- The poll in the middle of which a call is propagates failures. -/
def Honest : Doing W B V → Prop
  | first p => p.Propagates fun r ↦ Failed r.1
  | poll _ p => p.Propagates fun r ↦ Failed r.1
  | _ => True

theorem ends_answered {Q : R → Prop} {p : Act W B V R} (hp : p.Ends Q)
    (result : Except Failure (Option V)) : (answered result p).Ends Q := by
  cases p with
  | blockOn b k => exact hp result
  | _ => exact hp

theorem propagates_answered {Q : R → Prop} {p : Act W B V R} (hp : p.Propagates Q)
    (result : Except Failure (Option V)) : (answered result p).Propagates Q := by
  cases p with
  | blockOn b k => exact hp.2 result
  | _ => exact hp

theorem Doomed.resume (hd : d.Doomed) (result : Except Failure (Option V)) :
    (d.resume result).Doomed := by
  cases d with
  | first p => exact ends_answered hd result
  | poll id p => exact ends_answered hd result
  | _ => exact hd.elim

theorem Honest.resume (hd : d.Honest) (result : Except Failure (Option V)) :
    (d.resume result).Honest := by
  cases d with
  | first p => exact propagates_answered hd result
  | poll id p => exact propagates_answered hd result
  | _ => trivial

/-- A waiting call is doomed as soon as it is told of a failure. -/
theorem Honest.doomed (hd : d.Honest) (hw : d.Waiting) (e : Failure) :
    (d.resume (.error e)).Doomed := by
  cases d with
  | first p =>
    cases p with
    | blockOn b k => exact hd.1 e
    | _ => exact hw.elim
  | poll id p =>
    cases p with
    | blockOn b k => exact hd.1 e
    | _ => exact hw.elim
  | _ => exact hw.elim

variable {wrap : Act W B V R → Doing W B V} {p p' : Act W B V R}

theorem Runs.doomed (hw : Runs wrap) (hd : (wrap p).Doomed) (hl : p.Leads p') :
    (wrap p').Doomed := by
  cases hw with
  | first => exact Act.Ends.leads hd hl
  | poll id => exact Act.Ends.leads hd hl
  | announce => exact hd.elim
  | asleep => exact hd.elim

theorem Runs.honest (hw : Runs wrap) (hd : (wrap p).Honest) (hl : p.Leads p') :
    (wrap p').Honest := by
  cases hw with
  | first => exact Act.Propagates.leads hd hl
  | poll id => exact Act.Propagates.leads hd hl
  | announce => trivial
  | asleep => trivial

end Doing

/-! ### What is kept of the stack -/

/-- Each call whose task has failed is doomed, or some call above it is. The first argument tells
whether a call further up is doomed. -/
def Accounted (st : TaskId → Phase V) : Prop → List (Call W B V) → Prop
  | _, [] => True
  | above, c :: rest =>
    (st c.id = .failed → above ∨ c.doing.Doomed) ∧ Accounted st (above ∨ c.doing.Doomed) rest

/-- **What is kept of the stack of calls**, given the phases of the tasks. -/
structure Stack (st : TaskId → Phase V) (calls : List (Call W B V)) : Prop where
  /-- A call whose task has failed is going to fail. -/
  accounted : Accounted st False calls
  /-- A call whose task is resolved has the value. -/
  slots : ∀ c ∈ calls, ∀ v, st c.id = .resolved v → c.slot = some v
  /-- The task of a call has an id. -/
  born : ∀ c ∈ calls, st c.id ≠ .unborn
  /-- The calls below a call neither run its task nor poll it. -/
  apart : calls.Pairwise fun c d ↦ c.id ≠ d.id ∧ ∀ inPlace, d.polls? ≠ some (c.id, inPlace)
  /-- All polls propagate failures. -/
  honest : ∀ c ∈ calls, c.doing.Honest

section

variable {st st' : TaskId → Phase V} {above above' : Prop} {c d : Call W B V}
  {calls calls' rest : List (Call W B V)}

theorem Accounted.of_above (h : above) : Accounted st above calls := by
  induction calls generalizing above with
  | nil => trivial
  | cons c rest ih => exact ⟨fun _ ↦ Or.inl h, ih (Or.inl h)⟩

theorem Accounted.mono (h : Accounted st above calls) (ha : above → above')
    (hf : ∀ c ∈ calls, st' c.id = .failed → st c.id = .failed) : Accounted st' above' calls := by
  induction calls generalizing above above' with
  | nil => trivial
  | cons c rest ih =>
    refine ⟨fun hc ↦ (h.1 (hf c List.mem_cons_self hc)).imp_left ha, ?_⟩
    exact ih h.2 (Or.imp_left ha) fun d hd ↦ hf d (List.mem_cons_of_mem _ hd)

namespace Stack

theorem nil : Stack st ([] : List (Call W B V)) :=
  ⟨trivial, by simp, by simp, List.Pairwise.nil, by simp⟩

/-- Phases change, but no task of a call fails or is resolved. -/
theorem phases (h : Stack st calls) (hf : ∀ c ∈ calls, st' c.id = .failed → st c.id = .failed)
    (hr : ∀ c ∈ calls, ∀ v, st' c.id = .resolved v → st c.id = .resolved v)
    (hb : ∀ id, st id ≠ .unborn → st' id ≠ .unborn) : Stack st' calls :=
  ⟨h.accounted.mono (fun hno ↦ hno) hf, fun c hc v hv ↦ h.slots c hc v (hr c hc v hv),
    fun c hc ↦ hb _ (h.born c hc), h.apart, h.honest⟩

/-- A call is put on top. -/
theorem cons (h : Stack st rest) (hf : st c.id = .failed → c.doing.Doomed)
    (hs : ∀ v, st c.id = .resolved v → c.slot = some v) (hb : st c.id ≠ .unborn)
    (ha : ∀ d ∈ rest, c.id ≠ d.id ∧ ∀ inPlace, d.polls? ≠ some (c.id, inPlace))
    (hh : c.doing.Honest) : Stack st (c :: rest) := by
  refine ⟨⟨fun hc ↦ Or.inr (hf hc), ?_⟩, List.forall_mem_cons.2 ⟨hs, h.slots⟩,
    List.forall_mem_cons.2 ⟨hb, h.born⟩, List.pairwise_cons.2 ⟨ha, h.apart⟩,
    List.forall_mem_cons.2 ⟨hh, h.honest⟩⟩
  exact h.accounted.mono False.elim fun _ _ hd ↦ hd

/-- The top goes. -/
theorem tail (h : Stack st (c :: rest)) (hc : ¬ c.doing.Doomed) : Stack st rest := by
  refine ⟨h.accounted.2.mono (fun hd ↦ hd.elim (fun hno ↦ hno) hc) fun _ _ hd ↦ hd,
    (List.forall_mem_cons.1 h.slots).2, (List.forall_mem_cons.1 h.born).2,
    (List.pairwise_cons.1 h.apart).2, (List.forall_mem_cons.1 h.honest).2⟩

theorem apart_head (h : Stack st (c :: rest)) :
    ∀ d ∈ rest, c.id ≠ d.id ∧ ∀ inPlace, d.polls? ≠ some (c.id, inPlace) :=
  (List.pairwise_cons.1 h.apart).1

/-- The head changes. -/
theorem head (h : Stack st (c :: rest)) (hid : d.id = c.id) (hd : c.doing.Doomed → d.doing.Doomed)
    (hs : c.slot = d.slot) (hh : d.doing.Honest) : Stack st (d :: rest) := by
  have hacc := h.accounted
  refine ⟨⟨fun hf ↦ ?_, ?_⟩, List.forall_mem_cons.2 ⟨fun v hv ↦ ?_, ?_⟩, ?_, ?_, ?_⟩
  · exact (hacc.1 (hid ▸ hf)).imp_right hd
  · exact hacc.2.mono (Or.imp_right hd) fun _ _ he ↦ he
  · exact hs ▸ h.slots c List.mem_cons_self v (hid ▸ hv)
  · exact (List.forall_mem_cons.1 h.slots).2
  · exact List.forall_mem_cons.2 ⟨hid ▸ h.born c List.mem_cons_self,
      (List.forall_mem_cons.1 h.born).2⟩
  · refine List.pairwise_cons.2 ⟨?_, (List.pairwise_cons.1 h.apart).2⟩
    rw [hid]
    exact h.apart_head
  · exact List.forall_mem_cons.2 ⟨hh, (List.forall_mem_cons.1 h.honest).2⟩

/-- The head gets a result. -/
theorem resumed (h : Stack st rest) (result : Except Failure (Option V)) :
    Stack st (Machine.resumed result rest) := by
  cases rest with
  | nil => exact nil
  | cons d rest =>
    exact h.head rfl (fun hd ↦ hd.resume result) rfl
      ((h.honest d List.mem_cons_self).resume result)

/-- The top fails, and the next one is told so. -/
theorem failed (h : Stack st (c :: rest)) (ho : Orderly (c :: rest)) (e : Failure)
    (hr : ∀ d ∈ rest, ∀ v, st' d.id = .resolved v → st d.id = .resolved v)
    (hb : ∀ id, st id ≠ .unborn → st' id ≠ .unborn) :
    Stack st' (Machine.resumed (.error e) rest) := by
  cases rest with
  | nil => exact nil
  | cons d rest =>
    -- The call below is doomed from now on, which accounts for every failed task of the stack.
    have hdoomed : (d.doing.resume (.error e)).Doomed :=
      (h.honest d (by simp)).doomed (ho.waits d List.mem_cons_self) e
    refine ⟨⟨fun _ ↦ Or.inr hdoomed, Accounted.of_above (Or.inr hdoomed)⟩, ?_, ?_, ?_, ?_⟩
    · refine List.forall_mem_cons.2 ⟨fun v hv ↦ ?_, fun x hx v hv ↦ ?_⟩
      · exact h.slots d (by simp) v (hr d List.mem_cons_self v hv)
      · exact h.slots x (by simp [hx]) v (hr x (List.mem_cons_of_mem _ hx) v hv)
    · exact List.forall_mem_cons.2 ⟨hb _ (h.born d (by simp)),
        fun x hx ↦ hb _ (h.born x (by simp [hx]))⟩
    · have hapart := List.pairwise_cons.1 (List.pairwise_cons.1 h.apart).2
      exact List.pairwise_cons.2 ⟨hapart.1, hapart.2⟩
    · exact List.forall_mem_cons.2 ⟨(h.honest d (by simp)).resume _,
        fun x hx ↦ h.honest x (by simp [hx])⟩

/-- The active call goes on with its program. -/
theorem advance (h : Stack st calls) (ha : Call.Advance calls calls') : Stack st calls' := by
  cases ha with
  | same => exact h
  | @head c rest _ wrap p p' hw hd hl =>
    have hh := h.honest c List.mem_cons_self
    rw [hd] at hh
    exact h.head rfl (fun hdoom ↦ hw.doomed (hd ▸ hdoom) hl) rfl (hw.honest hh hl)

end Stack

/-! ### Slots are filled -/

/-- A call after a value has come in. -/
def Call.filled (id : TaskId) (v : V) (c : Call W B V) : Call W B V :=
  if c.id = id then { c with slot := some v } else c

theorem Machine.fill_eq_map (id : TaskId) (v : V) (calls : List (Call W B V)) :
    Machine.fill id v calls = calls.map (Call.filled id v) := rfl

/-- A value that comes in touches nothing but the slot. -/
theorem Call.filled_spec (id : TaskId) (v : V) (c : Call W B V) :
    (c.filled id v).id = c.id ∧ (c.filled id v).doing = c.doing ∧
      (c.filled id v).slot = if c.id = id then some v else c.slot := by
  unfold filled
  split <;> exact ⟨rfl, rfl, rfl⟩

theorem Accounted.fill (h : Accounted st above calls) (id : TaskId) (v : V) :
    Accounted st above (Machine.fill id v calls) := by
  rw [Machine.fill_eq_map]
  induction calls generalizing above with
  | nil => trivial
  | cons c rest ih =>
    obtain ⟨hid, hdoing, -⟩ := c.filled_spec id v
    rw [List.map_cons, Accounted, hid, hdoing]
    exact ⟨h.1, ih h.2⟩

/-- A task is resolved, and the call that runs it to completion has the value. -/
theorem Stack.fill {id : TaskId} {v : V} (h : Stack st calls) (hid : st' id = .resolved v)
    (hother : ∀ i, i ≠ id → st' i = st i) : Stack st' (Machine.fill id v calls) := by
  have hmem {c' : Call W B V} (hc' : c' ∈ Machine.fill id v calls) :
      ∃ c ∈ calls, c.filled id v = c' := List.mem_map.1 hc'
  refine ⟨?_, fun c' hc' u hu ↦ ?_, fun c' hc' hu ↦ ?_, ?_, fun c' hc' ↦ ?_⟩
  · refine (h.accounted.fill id v).mono (fun hno ↦ hno) fun c' hc' hfailed ↦ ?_
    have hne : c'.id ≠ id := fun he ↦ by
      rw [he, hid] at hfailed
      cases hfailed
    rw [← hother _ hne]
    exact hfailed
  · obtain ⟨c, hc, rfl⟩ := hmem hc'
    obtain ⟨hcid, -, hslot⟩ := c.filled_spec id v
    rw [hslot]
    rw [hcid] at hu
    split
    · next he =>
      rw [he, hid] at hu
      exact congrArg some (Phase.resolved.inj hu)
    · next hne => exact h.slots c hc u (hother _ hne ▸ hu)
  · obtain ⟨c, hc, rfl⟩ := hmem hc'
    rw [(c.filled_spec id v).1] at hu
    by_cases he : c.id = id
    · rw [he, hid] at hu
      cases hu
    · exact h.born c hc (hother _ he ▸ hu)
  · rw [Machine.fill_eq_map]
    refine List.pairwise_map.2 (h.apart.imp fun {c d} hcd ↦ ?_)
    obtain ⟨hcid, -, -⟩ := c.filled_spec id v
    obtain ⟨hdid, hdoing, -⟩ := d.filled_spec id v
    rw [hcid, hdid]
    refine ⟨hcd.1, ?_⟩
    rw [Call.polls?, hdoing, hdid]
    exact hcd.2
  · obtain ⟨c, hc, rfl⟩ := hmem hc'
    rw [(c.filled_spec id v).2.1]
    exact h.honest c hc

end

/-! ### Notes -/

/-- A poll has resulted in a value or has failed. -/
def Note.Decides (id : TaskId) : Note V → Prop
  | .ended i _ (.ok (.ready _)) => i = id
  | .ended i _ (.error _) => i = id
  | _ => False

section

variable {id : TaskId} {h n : List (Note V)} {c : Call W B V} {calls rest : List (Call W B V)}

theorem Note.Idle.not_decides {k : Note V} (hk : k.Idle) : ¬ k.Decides id := by
  cases k <;> first | exact hk.elim | exact not_false

theorem phase_failed_before (hf : phase id (h ++ n) = .failed) (hn : ∀ k ∈ n, ¬ k.Decides id) :
    phase id h = .failed := by
  rw [phase_append] at hf
  rcases Phase.of_after_failed hf with hf | ⟨inPlace, e, he⟩
  · exact hf
  · exact absurd rfl (hn _ he)

theorem phase_resolved_before {v : V} (hr : phase id (h ++ n) = .resolved v)
    (hn : ∀ inPlace, .ended id inPlace (.ok (.ready v)) ∉ n) : phase id h = .resolved v := by
  rw [phase_append] at hr
  rcases Phase.of_after_resolved hr with hr | ⟨inPlace, he⟩
  · exact hr
  · exact absurd he (hn inPlace)

theorem phase_ne_unborn (hb : phase id h ≠ .unborn) (n : List (Note V)) :
    phase id (h ++ n) ≠ .unborn := by
  rw [phase_append]
  exact Phase.after_ne_unborn hb n

namespace Stack

/-- Notes are left that decide nothing for the calls. -/
theorem notes (hs : Stack (phase · h) calls) (hn : ∀ c ∈ calls, ∀ k ∈ n, ¬ k.Decides c.id) :
    Stack (phase · (h ++ n)) calls := by
  refine hs.phases (fun c hc hf ↦ phase_failed_before hf (hn c hc)) (fun c hc v hv ↦ ?_)
    fun id hb ↦ phase_ne_unborn hb n
  exact phase_resolved_before hv fun inPlace he ↦ hn c hc _ he rfl

theorem notes_of_idle (hs : Stack (phase · h) calls) (hn : ∀ k ∈ n, k.Idle) :
    Stack (phase · (h ++ n)) calls :=
  hs.notes fun _ _ k hk ↦ (hn k hk).not_decides

/-- The top fails, and nothing comes in. -/
theorem failed_notes (hs : Stack (phase · h) (c :: rest)) (ho : Orderly (c :: rest)) (e : Failure)
    (hn : ∀ id inPlace v, .ended id inPlace (.ok (.ready v)) ∉ n) :
    Stack (phase · (h ++ n)) (Machine.resumed (.error e) rest) :=
  hs.failed ho e (fun _ _ v hv ↦ phase_resolved_before hv fun inPlace ↦ hn _ inPlace v)
    fun _ hb ↦ phase_ne_unborn hb n

/-- The top goes on, and nothing is decided. -/
theorem goes_on {doing : Doing W B V} (hs : Stack (phase · h) (c :: rest)) (hc : ¬ c.doing.Doomed)
    (hh : doing.Honest) (hn : ∀ id, ∀ k ∈ n, ¬ k.Decides id) :
    Stack (phase · (h ++ n)) ({ c with doing } :: rest) :=
  (hs.notes fun d _ ↦ hn d.id).head rfl (fun hdoomed ↦ absurd hdoomed hc) rfl hh

/-- The task of the top is decided, and the calls below it know nothing of it. -/
theorem below (hs : Stack (phase · h) (c :: rest)) (hc : ¬ c.doing.Doomed)
    (hn : ∀ k ∈ n, ∀ id, k.Decides id → id = c.id) : Stack (phase · (h ++ n)) rest := by
  refine (hs.tail hc).notes fun d hd k hk hdec ↦ ?_
  exact (hs.apart_head d hd).1 (hn k hk d.id hdec).symm

/-- The poll in place resolves the task of the top, and the top has the value. -/
theorem resolved_first {v : V} {held : Option B} {doing : Doing W B V}
    (hs : Stack (phase · h) (c :: rest)) (hc : ¬ c.doing.Doomed) (hh : doing.Honest)
    (hi : phase c.id h = .polling true) :
    Stack (phase · (h ++ [.ended c.id true (.ok (.ready v))]))
      ({ c with held, slot := some v, doing } :: rest) := by
  have hphase : phase c.id (h ++ [.ended c.id true (.ok (.ready v))]) = .resolved v :=
    phase_of_ready hi (by simp)
  have hrest : Stack (phase · (h ++ [.ended c.id true (.ok (.ready v))])) rest := by
    refine hs.below hc fun k hk id hdec ↦ ?_
    rw [List.mem_singleton.1 hk] at hdec
    exact hdec.symm
  refine hrest.cons ?_ ?_ ?_ hs.apart_head hh
  · exact fun hf ↦ by cases hphase.symm.trans hf
  · exact fun u hu ↦ congrArg some (Phase.resolved.inj (hphase.symm.trans hu))
  · exact fun hu ↦ by cases hphase.symm.trans hu

/-- A run to completion begins. -/
theorem enter {t : TaskId → Prop} (hs : Stack (phase · h) calls)
    (hb : Books t (calls.filterMap Call.polls?) h) (hh : c.doing.Honest)
    (hi : phase c.id (h ++ [.issued c.id, .began c.id true]) = .polling true) :
    Stack (phase · (h ++ [.issued c.id, .began c.id true])) (c :: calls) := by
  have hunborn : phase c.id h = .unborn := by
    rw [phase_append] at hi
    exact Phase.unborn_of_issued (by rw [hi]; simp)
  -- The calls below have known their tasks, and polled them, since before this id was given out.
  have happart : ∀ d ∈ calls, c.id ≠ d.id ∧ ∀ inPlace, d.polls? ≠ some (c.id, inPlace) := by
    refine fun d hd ↦ ⟨fun he ↦ hs.born d hd (he ▸ hunborn), fun inPlace hp ↦ ?_⟩
    exact hb.notMem_of_unborn hunborn inPlace (List.mem_filterMap.2 ⟨d, hd, hp⟩)
  have hn : ∀ d ∈ calls, ∀ k ∈ ([.issued c.id, .began c.id true] : List (Note V)),
      ¬ k.Decides d.id :=
    fun d _ ↦ List.forall_mem_cons.2 ⟨not_false, List.forall_mem_singleton.2 not_false⟩
  refine (hs.notes hn).cons ?_ ?_ ?_ happart hh
  · exact fun hf ↦ by cases hi.symm.trans hf
  · exact fun v hv ↦ by cases hi.symm.trans hv
  · exact fun hu ↦ by cases hi.symm.trans hu

end Stack

end

/-! ### Every move keeps it -/

namespace Machine

variable {β : Behaviour W B V} {σ : Surroundings W B V} {m m' : Machine W B V}
  {h n : List (Note V)} {site : Site W B} {c d : Call W B V} {rest : List (Call W B V)}
  {o : Option (Except Failure (Option V))}

theorem Shift.not_doomed {x : Executor B} {s s' : Signals} {d d' : Doing W B V}
    (hd : Shift σ x s d s' d') : ¬ d.Doomed := by
  cases hd <;> exact not_false

theorem Shift.honest {x : Executor B} {s s' : Signals} {d d' : Doing W B V}
    (hd : Shift σ x s d s' d') : d'.Honest := by
  cases hd <;> trivial

/-- The task that the active call polls is polling. -/
theorem phase_of_polls {t : TaskId → Prop} {id : TaskId} {inPlace : Bool}
    (hb : Books t (polled ⟨site, c :: rest, o⟩) h) (hc : c.polls? = some (id, inPlace)) :
    phase id h = .polling inPlace := by
  refine (hb.polling id inPlace).2 ?_
  rw [polled_cons hc]
  exact List.mem_cons_self

/-- The active call fails, and nothing comes in. -/
theorem stack_of_leave_error (front : List (Note V)) {e : Failure}
    (hs : Stack (phase · h) (c :: rest)) (ho : Orderly (c :: rest))
    (hl : leave β site c rest (.error e) = (n, m'))
    (hfront : ∀ id inPlace v, .ended id inPlace (.ok (.ready v)) ∉ front) :
    Stack (phase · (h ++ (front ++ n))) m'.calls := by
  obtain ⟨ds, w, -, -, -, hcalls⟩ := leave_spec hl
  rw [hcalls]
  refine hs.failed_notes ho e fun id inPlace v hk ↦ ?_
  rcases List.mem_append.1 hk with hk | hk
  · exact hfront id inPlace v hk
  · exact (idle_of_leave hl _ hk).elim

/-- The active call returns, and nothing is decided but its task. -/
theorem stack_of_leave_ok (front : List (Note V)) {r : Option V}
    (hs : Stack (phase · h) (c :: rest)) (hc : ¬ c.doing.Doomed)
    (hl : leave β site d rest (.ok r) = (n, m'))
    (hfront : ∀ k ∈ front, ∀ id, k.Decides id → id = c.id) :
    Stack (phase · (h ++ (front ++ n))) m'.calls := by
  obtain ⟨ds, w, -, -, -, hcalls⟩ := leave_spec hl
  rw [hcalls]
  refine (hs.below hc fun k hk id hdec ↦ ?_).resumed _
  rcases List.mem_append.1 hk with hk | hk
  · exact hfront k hk id hdec
  · exact absurd hdec (idle_of_leave hl k hk).not_decides

/-- Turns keep the stack. -/
theorem Turn.stack (hm : Turn β σ m n m') (hβ : β.Propagates) (ho : Orderly m.calls)
    (hb : Books m.Tabled m.polled h) (hb' : Books m'.Tabled m'.polled (h ++ n))
    (hs : Stack (phase · h) m.calls) : Stack (phase · (h ++ n)) m'.calls := by
  cases hm with
  | @entered site _ _ b _ _ _ he =>
    obtain ⟨rfl, rfl⟩ := Prod.mk.inj he
    have hi := phase_of_polls hb' rfl
    exact hs.enter (c := ⟨site.executor.nextId, none, none, .first _⟩) hb (hβ b _) hi
  | shifted hd hn =>
    refine hs.goes_on hd.not_doomed hd.honest fun id k hk ↦ ?_
    rcases hn with rfl | rfl
    · cases hk
    · rw [List.mem_singleton.1 hk]
      exact not_false
  | @firstFailed _ c _ _ _ e _ _ _ hl =>
    exact stack_of_leave_error [.ended c.id true (.error e), .destroyed c.id] hs ho hl
      (by simp)
  | firstPended hd he =>
    obtain ⟨ds, tasks, w, rfl, hds, -, -⟩ := Site.enqueue_spec he
    have hn (id : TaskId) := Note.forall_of_destroyed (p := (¬ ·.Decides id)) hds not_false
    refine hs.goes_on (by rw [hd]; exact not_false) trivial fun id ↦ ?_
    exact List.forall_mem_cons.2 ⟨not_false, List.forall_mem_cons.2 ⟨not_false, hn id⟩⟩
  | @firstReturned _ c _ _ _ v _ _ hd _ hl =>
    refine stack_of_leave_ok [.ended c.id true (.ok (.ready v))] hs
      (by rw [hd]; exact not_false) hl fun k hk id hdec ↦ ?_
    rw [List.mem_singleton.1 hk] at hdec
    exact hdec.symm
  | firstResolved hd _ =>
    exact hs.resolved_first (by rw [hd]; exact not_false) trivial
      (phase_of_polls hb (Call.polls?_first hd))
  | stale => exact hs.notes_of_idle (List.forall_mem_singleton.2 trivial)
  | began hd _ _ =>
    exact hs.goes_on (by rw [hd]; exact not_false) (hβ _ _)
      fun id ↦ List.forall_mem_singleton.2 not_false
  | @pollFailed _ _ _ _ id _ e _ _ _ hl =>
    exact stack_of_leave_error [.ended id false (.error e), .destroyed id] hs ho hl
      (by simp)
  | pollPended hd he =>
    obtain ⟨hds, tasks, w, -, -⟩ := Site.insert_spec he
    have hn (id : TaskId) := Note.forall_of_destroyed (p := (¬ ·.Decides id)) hds not_false
    refine hs.goes_on (by rw [hd]; exact not_false) trivial fun id ↦ ?_
    exact List.forall_mem_cons.2 ⟨not_false, hn id⟩
  | @pollResolved _ c rest _ id _ v hd =>
    have hphase : phase id (h ++ [.ended id false (.ok (.ready v)), .destroyed id]) = .resolved v :=
      phase_of_ready (phase_of_polls hb (Call.polls?_poll hd)) (List.forall_mem_singleton.2 trivial)
    have hpop : Stack (phase · h) ({ c with doing := .pop } :: rest) :=
      hs.head rfl (by rw [hd]; exact False.elim) rfl trivial
    refine hpop.fill hphase fun i hne ↦ ?_
    rw [phase_append, Phase.after_of_silent]
    simp [Note.subject?, Ne.symm hne]
  | finished hd _ hl =>
    exact stack_of_leave_ok [] hs (by rw [hd]; exact not_false) hl (by simp)
  | announceFailed _ hl => exact stack_of_leave_error [] hs ho hl (by simp)

/-- Moves keep the stack. -/
theorem Move.stack (hm : Move β σ m n m') (hβ : β.Propagates) (ho : Orderly m.calls)
    (hb : Books m.Tabled m.polled h) (hb' : Books m'.Tabled m'.polled (h ++ n))
    (hs : Stack (phase · h) m.calls) : Stack (phase · (h ++ n)) m'.calls := by
  cases hm with
  | quiet _ _ hc => exact (hs.notes_of_idle (by simp)).advance hc
  | woke u hc =>
    have hidle : ∀ k ∈ [Note.woke u], Note.Idle (V := V) k := List.forall_mem_singleton.2 trivial
    exact (hs.notes_of_idle hidle).advance hc
  | @spawned site site' id n b calls calls' o he hc =>
    obtain ⟨-, ds, tasks, w, rfl, hds, -, -⟩ := Site.spawn_spec he
    refine (hs.notes fun d _ ↦ ?_).advance hc
    exact List.forall_mem_cons.2 ⟨not_false,
      List.forall_mem_cons.2 ⟨not_false, Note.forall_of_destroyed hds not_false⟩⟩
  | turned ht => exact ht.stack hβ ho hb hb' hs

/-! ### What a return means -/

theorem returned_of_leave {result r : Except Failure (Option V)} {id : TaskId}
    (hl : leave β site c rest result = (n, m')) (hret : .returned id r ∈ n) :
    id = c.id ∧ r = result := by
  obtain ⟨ds, w, rfl, hds, -⟩ := leave_spec hl
  rcases List.mem_append.1 hret with hk | hk
  · cases hds _ hk
  · exact Note.returned.inj (List.mem_singleton.1 hk)

theorem not_returned_of_destroyed {id i : TaskId} {r : Except Failure (Option V)}
    (hn : ∀ k ∈ n, k = .destroyed i) : .returned id r ∉ n :=
  fun hk ↦ by cases hn _ hk

/-- A call that finds the table empty has its value. -/
theorem resolved_of_check
    (hb : Books (Tabled ⟨site, c :: rest, o⟩) (polled ⟨site, c :: rest, o⟩) h)
    (hs : Stack (phase · h) (c :: rest)) (hd : c.doing = .check)
    (ht : site.executor.tasks.isEmpty = true) :
    ∃ v, c.slot = some v ∧ phase c.id h = .resolved v := by
  have hpolls : c.polls? = none := by rw [Call.polls?, hd]
  cases hp : phase c.id h with
  | unborn => exact absurd hp (hs.born c List.mem_cons_self)
  | named => exact absurd hp (hb.sound c.id).2
  | spoilt => exact absurd hp (hb.sound c.id).1
  | waiting => exact absurd ((hb.waiting c.id).1 hp) (Table.not_contains_of_isEmpty ht c.id)
  | polling inPlace =>
    -- The call itself polls nothing, and those below it do not poll its task.
    have hmem := (hb.polling c.id inPlace).1 hp
    rw [polled_cons_of_none hpolls] at hmem
    obtain ⟨d, hd, hdp⟩ := List.mem_filterMap.1 hmem
    exact absurd hdp ((hs.apart_head d hd).2 inPlace)
  | failed =>
    -- A call whose task has failed is doomed, and does not get here.
    rcases hs.accounted.1 hp with hno | hdoomed
    · exact hno.elim
    · rw [hd] at hdoomed
      exact hdoomed.elim
  | resolved v => exact ⟨v, hs.slots c List.mem_cons_self v hp, rfl⟩

/-- **A run to completion that returns** leaves the table empty, and returns the value of its task.
-/
theorem Turn.returned (hm : Turn β σ m n m') (hb : Books m.Tabled m.polled h)
    (hs : Stack (phase · h) m.calls) {id : TaskId} {r : Option V}
    (hret : .returned id (.ok r) ∈ n) :
    m'.site.executor.tasks.isEmpty = true ∧ ∃ v, r = some v ∧ phase id (h ++ n) = .resolved v := by
  cases hm with
  | entered hc he =>
    obtain ⟨rfl, rfl⟩ := Prod.mk.inj he
    simp at hret
  | shifted hd hn => rcases hn with rfl | rfl <;> simp at hret
  | firstFailed hd hl =>
    simp only [List.mem_cons, reduceCtorEq, false_or] at hret
    cases (returned_of_leave hl hret).2
  | firstPended hd he =>
    obtain ⟨ds, tasks, w, rfl, hds, -, -⟩ := Site.enqueue_spec he
    simp only [List.mem_cons, reduceCtorEq, false_or] at hret
    exact absurd hret (not_returned_of_destroyed hds)
  | @firstReturned site c rest o b v n _ hd ht hl =>
    simp only [List.mem_cons, reduceCtorEq, false_or] at hret
    obtain ⟨rfl, hr⟩ := returned_of_leave hl hret
    refine ⟨?_, v, Except.ok.inj hr, ?_⟩
    · rw [(of_leave hl).1]
      exact ht
    · exact phase_of_ready (phase_of_polls hb (Call.polls?_first hd)) (idle_of_leave hl)
  | firstResolved => simp at hret
  | stale => simp at hret
  | began => simp at hret
  | pollFailed hd hl =>
    simp only [List.mem_cons, reduceCtorEq, false_or] at hret
    cases (returned_of_leave hl hret).2
  | pollPended hd he =>
    obtain ⟨hds, tasks, w, -, -⟩ := Site.insert_spec he
    simp only [List.mem_cons, reduceCtorEq, false_or] at hret
    exact absurd hret (not_returned_of_destroyed hds)
  | pollResolved => simp at hret
  | @finished site c rest o n _ hd ht hl =>
    obtain ⟨rfl, hr⟩ := returned_of_leave hl hret
    obtain ⟨v, hslot, hp⟩ := resolved_of_check hb hs hd ht
    refine ⟨?_, v, (Except.ok.inj hr).trans hslot, ?_⟩
    · rw [(of_leave hl).1]
      exact ht
    · rw [phase_append, hp, Phase.after_of_silent (subject?_ne_of_idle (idle_of_leave hl))]
  | announceFailed hd hl => cases (returned_of_leave hl hret).2

/-- Only turns return from a run to completion. -/
theorem Move.returned (hm : Move β σ m n m') (hb : Books m.Tabled m.polled h)
    (hs : Stack (phase · h) m.calls) {id : TaskId} {r : Option V}
    (hret : .returned id (.ok r) ∈ n) :
    m'.site.executor.tasks.isEmpty = true ∧ ∃ v, r = some v ∧ phase id (h ++ n) = .resolved v := by
  cases hm with
  | quiet => simp at hret
  | woke => simp at hret
  | spawned he _ =>
    obtain ⟨-, ds, tasks, w, rfl, hds, -, -⟩ := Site.spawn_spec he
    simp only [List.mem_cons, reduceCtorEq, false_or] at hret
    exact absurd hret (not_returned_of_destroyed hds)
  | turned ht => exact ht.returned hb hs hret

end Machine

/-! ### Runs -/

namespace Ensemble.Run

variable {β : Behaviour W B V} {σ : Surroundings W B V} {P : Ensemble W B V → Prop}
  {site : Site W B} {s s' : Ensemble W B V} {h h' n : List (Note V)}

/-- **All runs keep the stack.** -/
theorem stack (hs : site.Fresh) (hβ : β.Propagates) (hσ : σ.Quiet)
    (hr : Run β σ P (.start site) h s) (hlen : (issuedIds h).length ≤ UInt64.size) :
    Stack (phase · h) s.machine.calls := by
  induction hr with
  | refl => exact .nil
  | @step h s n s' hr hstep hp ih =>
    have hlen' := length_issuedIds_le hlen
    have ho := hr.orderly hσ (orderly_start site)
    exact hstep.move.stack hβ ho (hr.books hs hlen') ((hr.step hstep hp).books hs hlen) (ih hlen')

/-- What is resolved stays resolved, and is never polled again. -/
theorem resolvedOnce_append (hs : site.Fresh) (hr : Run β σ P (.start site) h s)
    (hr' : Run β σ P s h' s') (hlen : (issuedIds (h ++ h')).length ≤ UInt64.size) {id : TaskId}
    {v : V} (hres : ResolvedOnce id v h) : ResolvedOnce id v (h ++ h') := by
  have hbefore := ((hr.books hs (length_issuedIds_le hlen)).sound id).1
  have hafter := (((hr.trans hr').books hs hlen).sound id).1
  -- One more note about the task would spoil its phase for good.
  rw [phase_append, phase_of_resolvedOnce hres hbefore] at hafter
  exact hres.append (Phase.silent_of_resolved hafter)

/-- A task with an id is in the table, is being polled, has failed, or has resulted in a value. -/
theorem resolved_or (hs : site.Fresh) (hr : Run β σ P (.start site) h s)
    (hlen : (issuedIds h).length ≤ UInt64.size) {id : TaskId} (hid : .issued id ∈ h) :
    s.machine.Tabled id ∨ (∃ inPlace, (id, inPlace) ∈ s.machine.polled) ∨
      (∃ inPlace e, .ended id inPlace (.error e) ∈ h) ∨ ∃ v, ResolvedOnce id v h := by
  have hb := hr.books hs hlen
  have htells := phase_tells id h
  cases hp : phase id h with
  | unborn =>
    rw [hp] at htells
    exact absurd rfl (htells _ hid)
  | named => exact absurd hp (hb.sound id).2
  | spoilt => exact absurd hp (hb.sound id).1
  | waiting => exact Or.inl ((hb.waiting id).1 hp)
  | polling inPlace => exact Or.inr (Or.inl ⟨inPlace, (hb.polling id inPlace).1 hp⟩)
  | failed =>
    rw [hp] at htells
    exact Or.inr (Or.inr (Or.inl htells.2))
  | resolved v =>
    rw [hp] at htells
    exact Or.inr (Or.inr (Or.inr ⟨v, htells⟩))

/-- **A run to completion that returns is complete**, in whatever order tasks are spawned, woken and
polled, as long as the polls let failures through and not more than `UInt64.size` ids are given out:
the table is empty, the call returns the value in which its task has resulted, and every task that
has ever had an id has resulted in a value, once, and is never polled again, unless it has failed or
is still being polled by a call further down. -/
theorem complete (hs : site.Fresh) (hβ : β.Propagates) (hσ : σ.Quiet)
    (hr : Run β σ P (.start site) h s) (hstep : Step β σ s n s') (hp : P s')
    (hlen : (issuedIds (h ++ n)).length ≤ UInt64.size) {id : TaskId} {r : Option V}
    (hret : .returned id (.ok r) ∈ n) :
    s'.machine.site.executor.tasks.isEmpty = true ∧
      (∃ v, r = some v ∧ ResolvedOnce id v (h ++ n)) ∧
      ∀ i, .issued i ∈ h ++ n → (∀ inPlace e, .ended i inPlace (.error e) ∉ h ++ n) →
        (∀ inPlace, (i, inPlace) ∉ s'.machine.polled) →
        ∃ v, ∀ h' s'', Run β σ P s' h' s'' → (issuedIds (h ++ n ++ h')).length ≤ UInt64.size →
          ResolvedOnce i v (h ++ n ++ h') := by
  have hr' := hr.step hstep hp
  have hlen' := length_issuedIds_le hlen
  obtain ⟨hempty, v, hv, hphase⟩ :=
    hstep.move.returned (hr.books hs hlen') (hr.stack hs hβ hσ hlen') hret
  refine ⟨hempty, ⟨v, hv, ?_⟩, fun i hi hfailed hpolled ↦ ?_⟩
  · have htells := phase_tells id (h ++ n)
    rw [hphase] at htells
    exact htells
  · rcases hr'.resolved_or hs hlen hi with htabled | ⟨inPlace, hip⟩ | ⟨inPlace, e, he⟩ | ⟨u, hu⟩
    · exact absurd htabled (Table.not_contains_of_isEmpty hempty i)
    · exact absurd hip (hpolled inPlace)
    · exact absurd he (hfailed inPlace e)
    · exact ⟨u, fun h' s'' hr'' hlen'' ↦ hr'.resolvedOnce_append hs hr'' hlen'' hu⟩

end Ensemble.Run

/-! ### A run that returns -/

/-- Body `0` runs body `1` to completion, and is done if that is; body `1` spawns body `2`, wakes
itself, and becomes body `2`, which is done at once. -/
def spawning : Behaviour Unit Nat Nat where
  poll
    | 0, _ => .blockOn 1 fun
      | .error e => .done (.error e, 0)
      | .ok v => .done (.ok (.ready (v.getD 0 + 1)), 2)
    | 1, w => .spawn 2 fun _ ↦ .wake w (.done (.ok .pending, 2))
    | _, _ => .done (.ok (.ready 6), 2)
  drop _ w := w

theorem propagates_spawning : spawning.Propagates := by
  intro b w
  match b with
  | 0 =>
    refine ⟨fun e ↦ trivial, ?_⟩
    rintro (e | v) <;> trivial
  | 1 => exact fun _ ↦ trivial
  | _ + 2 => trivial

namespace Ensemble

/-- Body `0` is run to completion: the ensemble after so many steps of the machine. -/
def spawned (steps : Nat) : Ensemble Unit Nat Nat :=
  ⟨(Machine.enter spawning (.blank ()) [] 0).2.run spawning .still steps, [], none⟩

theorem run_spawned : Run spawning .still (CallsWithin 2) (.start (.blank ()))
    [.issued 1, .began 1 true, .issued 2, .began 2 true, .issued 3, .entered 3,
      .woke ⟨some ⟨0⟩, 2, some ⟨0⟩⟩, .ended 2 true (.ok .pending), .entered 2, .began 2 false,
      .ended 2 false (.ok (.ready 6)), .destroyed 2, .began 3 false,
      .ended 3 false (.ok (.ready 6)), .destroyed 3, .returned 2 (.ok (some 6))] (spawned 8) := by
  have hblock : Run spawning .still (CallsWithin 2) (.start (.blank ())) _ (spawned 0) :=
    .single (.blockOn 0 rfl rfl) (Nat.le_succ 1)
  exact hblock.trans (Machine.run_run (m := (spawned 0).machine) 8 (by decide))

theorem step_spawned : Step spawning .still (spawned 8)
    [.ended 1 true (.ok (.ready 7)), .destroyed 1, .returned 1 (.ok (some 7))] (spawned 9) :=
  .turn (fun _ hc ↦ Option.mem_some.1 hc ▸ trivial) rfl

/-- The outer of the two calls returns, and all three tasks have resulted in their values. -/
theorem complete_spawned :
    ∃ h, Run spawning .still (CallsWithin 2) (.start (.blank ())) h (spawned 9) ∧
      (spawned 9).machine.site.executor.tasks.isEmpty = true ∧ ResolvedOnce 1 7 h ∧
      ∃ v, ResolvedOnce 3 v h := by
  obtain ⟨hempty, ⟨v, hv, hone⟩, hall⟩ := run_spawned.complete (Site.fresh_blank ())
    propagates_spawning Surroundings.quiet_still step_spawned (Nat.zero_le _) (by decide)
    (List.mem_cons_of_mem _ (List.mem_cons_of_mem _ List.mem_cons_self))
  obtain rfl : 7 = v := Option.some.inj hv
  obtain ⟨u, hu⟩ := hall 3 (by simp) (by simp) (fun inPlace ↦ List.not_mem_nil)
  have hthree := hu [] _ .refl (by decide)
  rw [List.append_nil] at hthree
  exact ⟨_, run_spawned.step step_spawned (Nat.zero_le _), hempty, hone, u, hthree⟩

end Ensemble

end TaskRuntime
