import TaskRuntime.Proofs.Alone
import TaskRuntime.Proofs.Lives
import TaskRuntime.Task.Serving

/-!
# Quiet surroundings

Between its look at the empty queue and the moment in which it sleeps, a scheduling loop does next
to nothing: it logs. `Surroundings.Quiet` says that whatever happens there takes no token, queues no
id without a notification, and runs no task to completion. It is true of the loop that a reactor
serves (`World.quiet_serving`).

## Where calls are

In quiet surroundings a call that waits for the one above it is in the middle of a poll, and a call
on its way to sleep is the active one. `Orderly` says so of a stack of calls, and every move keeps
it.
-/

namespace TaskRuntime

variable {W B V R S : Type}

/-! ### Quiet programs -/

namespace Act

/-- A program takes no token, queues no id without a notification, and runs nothing to completion.
-/
def Quiet : Act W B V R → Prop
  | .done _ => True
  | .look k => ∀ w, (k w).Quiet
  | .put _ k => k.Quiet
  | .wake _ k => k.Quiet
  | .unpark k => k.Quiet
  | .figures k => ∀ x, (k x).Quiet
  | .parkFor _ => False
  | .spawn _ _ => False
  | .blockOn _ _ => False

theorem Quiet.bind {p : Act W B V R} {f : R → Act W B V S} (hp : p.Quiet) (hf : ∀ r, (f r).Quiet) :
    (p.bind f).Quiet := by
  induction p with
  | done r => exact hf r
  | look k ih => exact fun w ↦ ih w (hp w)
  | put w k ih => exact ih hp
  | wake w k ih => exact ih hp
  | unpark k ih => exact ih hp
  | figures k ih => exact fun x ↦ ih x (hp x)
  | parkFor k => exact hp.elim
  | spawn b k => exact hp.elim
  | blockOn b k => exact hp.elim

theorem quiet_change (f : W → W) : (change f : Act W B V Unit).Quiet := fun _ ↦ trivial

theorem quiet_wakeAll (ws : List Waker) : (wakeAll ws : Act W B V Unit).Quiet := by
  induction ws with
  | nil => trivial
  | cons w rest ih => exact ih

end Act

/-- Whatever happens on the way to sleep is quiet. -/
structure Surroundings.Quiet (σ : Surroundings W B V) : Prop where
  /-- The announcement of a parking is quiet. -/
  announce : ∀ n, (σ.announce n).Quiet
  /-- What others do to a sleeping thread is quiet. -/
  asleep : σ.asleep.Quiet

/-- A loop that is served by a reactor only logs before it parks. -/
theorem World.quiet_serving {K : Type} [Kernel K] : (serving (K := K)).Quiet where
  announce _ := (Act.quiet_change _).bind fun _ ↦ trivial
  asleep w := Act.quiet_wakeAll (w.toEnvironment.turns 1).1

theorem Surroundings.quiet_still : (still : Surroundings W B V).Quiet := ⟨fun _ ↦ trivial, trivial⟩

/-! ### Where a call is -/

namespace Doing

/-- A call has found the queue empty and is on its way to sleep. -/
def Drowsy : Doing W B V → Prop
  | announce _ => True
  | asleep _ => True
  | park => True
  | _ => False

/-- A call is in the middle of a poll. -/
def Polls : Doing W B V → Prop
  | first _ => True
  | poll _ _ => True
  | _ => False

/-- What a call does on its way to sleep is quiet. -/
def Calm : Doing W B V → Prop
  | announce p => p.Quiet
  | asleep p => p.Quiet
  | _ => True

theorem Polls.calm {d : Doing W B V} (hd : d.Polls) : d.Calm := by
  cases d <;> first | exact hd.elim | trivial

theorem Polls.not_drowsy {d : Doing W B V} (hd : d.Polls) : ¬ d.Drowsy := by
  cases d <;> first | exact hd.elim | exact not_false

/-- A call waits, in the middle of a poll, for a run to completion. -/
def Waiting : Doing W B V → Prop
  | first (.blockOn _ _) => True
  | poll _ (.blockOn _ _) => True
  | _ => False

theorem Waiting.resume {d : Doing W B V} (hd : d.Waiting) (result : Except Failure (Option V)) :
    (d.resume result).Polls := by
  cases d <;> first | exact hd.elim | trivial

/-- A call on its way to sleep runs quiet programs only, one request after the other. -/
theorem Runs.quiet {wrap : Act W B V R → Doing W B V} (hw : Runs wrap) {p : Act W B V R}
    (hc : (wrap p).Calm) (hd : (wrap p).Drowsy) : p.Quiet := by
  cases hw <;> first | exact hc | exact hd.elim

theorem Runs.calm {wrap : Act W B V R → Doing W B V} (hw : Runs wrap) {p q : Act W B V R}
    (hc : (wrap p).Calm) (hpq : p.Quiet → q.Quiet) : (wrap q).Calm := by
  cases hw <;> first | exact hpq hc | trivial

theorem Runs.drowsy_iff {wrap : Act W B V R → Doing W B V} (hw : Runs wrap) (p q : Act W B V R) :
    (wrap p).Drowsy ↔ (wrap q).Drowsy := by
  cases hw <;> exact Iff.rfl

theorem Runs.ne_park {wrap : Act W B V R → Doing W B V} (hw : Runs wrap) (p : Act W B V R) :
    wrap p ≠ .park := by
  cases hw <;> simp

/-- A call that waits for a run to completion is in the middle of a poll. -/
theorem Runs.waiting {wrap : Act W B V R → Doing W B V} (hw : Runs wrap) {b : B}
    {k : Except Failure (Option V) → Act W B V R} (hc : (wrap (.blockOn b k)).Calm) :
    (wrap (.blockOn b k)).Waiting := by
  cases hw <;> trivial

end Doing

/-! ### Orderly stacks of calls -/

theorem Act.Quiet.leads {p q : Act W B V R} (hp : p.Quiet) (hl : p.Leads q) : q.Quiet :=
  hl.keeps hp (fun _ h ↦ h) (fun _ _ h ↦ h) (fun _ _ h ↦ h) (fun _ h ↦ h) (fun _ h ↦ h.elim)
    (fun _ _ h ↦ h.elim) fun _ h ↦ h

/-- **An orderly stack of calls**: the active one is calm, and the others wait in the middle of
polls. -/
structure Orderly (calls : List (Call W B V)) : Prop where
  /-- What the active call does on its way to sleep is quiet. -/
  calm : ∀ c ∈ calls.head?, c.doing.Calm
  /-- The calls below the active one wait in the middle of polls. -/
  waits : ∀ c ∈ calls.tail, c.doing.Waiting

namespace Orderly

variable {c : Call W B V} {calls calls' rest : List (Call W B V)}

theorem cons_iff : Orderly (c :: rest) ↔ c.doing.Calm ∧ ∀ d ∈ rest, d.doing.Waiting :=
  ⟨fun h ↦ ⟨h.calm c rfl, h.waits⟩, fun h ↦ ⟨fun _ hd ↦ Option.mem_some.1 hd ▸ h.1, h.2⟩⟩

/-- The active call changes its position. -/
theorem move_head {d : Call W B V} (h : Orderly (c :: rest)) (hd : d.doing.Calm) :
    Orderly (d :: rest) :=
  cons_iff.2 ⟨hd, (cons_iff.1 h).2⟩

/-- The active call ends. -/
theorem resumed (h : Orderly (c :: rest)) (result : Except Failure (Option V)) :
    Orderly (Machine.resumed result rest) := by
  have hw := (cons_iff.1 h).2
  cases rest with
  | nil => exact ⟨by simp [Machine.resumed], by simp [Machine.resumed]⟩
  | cons d rest =>
    refine cons_iff.2 ⟨((hw d List.mem_cons_self).resume result).calm, fun e he ↦ ?_⟩
    exact hw e (List.mem_cons_of_mem _ he)

theorem fill (h : Orderly calls) (id : TaskId) (v : V) : Orderly (Machine.fill id v calls) := by
  have hdoing (c : Call W B V) :
      (if c.id = id then { c with slot := some v } else c).doing = c.doing := by
    split <;> rfl
  constructor
  · intro c hc
    rw [Machine.fill, List.head?_map] at hc
    obtain ⟨d, hd, rfl⟩ := Option.map_eq_some_iff.1 hc
    rw [hdoing]
    exact h.calm d hd
  · intro c hc
    rw [Machine.fill, ← List.map_tail] at hc
    obtain ⟨d, hd, rfl⟩ := List.mem_map.1 hc
    rw [hdoing]
    exact h.waits d hd

theorem advance (h : Orderly calls) (ha : Call.Advance calls calls') : Orderly calls' := by
  cases ha with
  | same => exact h
  | @head c rest _ wrap p p' hw hd hp =>
    have hc := (cons_iff.1 h).1
    rw [hd] at hc
    exact h.move_head (hw.calm hc fun hq ↦ hq.leads hp)

/-- A run to completion begins. -/
theorem enter {b : B} (h : Orderly calls) (hb : ∀ c ∈ calls.head?, c.Waits b) (hc : c.doing.Calm) :
    Orderly (c :: calls) := by
  refine cons_iff.2 ⟨hc, fun d hd ↦ ?_⟩
  cases calls with
  | nil => cases hd
  | cons e rest =>
    -- The call that was active so far waits now, and the others still do.
    rcases List.mem_cons.1 hd with rfl | hd
    · obtain ⟨R, wrap, k, hw, he⟩ := hb d rfl
      have hcalm := (cons_iff.1 h).1
      rw [he] at hcalm ⊢
      exact hw.waiting hcalm
    · exact (cons_iff.1 h).2 d hd

end Orderly

theorem Ensemble.orderly_start (site : Site W B) :
    Orderly (start site : Ensemble W B V).machine.calls :=
  ⟨by simp [start], by simp [start]⟩

namespace Machine

variable {β : Behaviour W B V} {σ : Surroundings W B V} {m m' : Machine W B V} {n : List (Note V)}

theorem Shift.calm {x : Executor B} {s s' : Signals} {d d' : Doing W B V}
    (h : Shift σ x s d s' d') (hσ : σ.Quiet) : d'.Calm := by
  cases h with
  | announce _ n => exact hσ.announce n
  | count _ => exact hσ.asleep
  | announced => exact hσ.asleep
  | _ => trivial

theorem orderly_of_leave {site : Site W B} {c : Call W B V} {rest : List (Call W B V)}
    {result : Except Failure (Option V)} (h : leave β site c rest result = (n, m'))
    (ho : Orderly (c :: rest)) : Orderly m'.calls := by
  obtain ⟨ds, w, -, -, -, hcalls⟩ := leave_spec h
  rw [hcalls]
  exact ho.resumed result

/-- Turns keep the stack of calls orderly. -/
theorem Turn.orderly (hm : Turn β σ m n m') (hσ : σ.Quiet) (ho : Orderly m.calls) :
    Orderly m'.calls := by
  cases hm with
  | entered hb h =>
    obtain ⟨rfl, rfl⟩ := Prod.mk.inj h
    exact ho.enter hb trivial
  | shifted hd _ => exact ho.move_head (hd.calm hσ)
  | firstFailed _ h => exact orderly_of_leave h ho
  | firstPended => exact ho.move_head trivial
  | firstReturned _ _ h => exact orderly_of_leave h (ho.move_head trivial)
  | firstResolved => exact ho.move_head trivial
  | stale => exact ho
  | began => exact ho.move_head trivial
  | pollFailed _ h => exact orderly_of_leave h ho
  | pollPended => exact ho.move_head trivial
  | @pollResolved _ c rest =>
    have hpop : Orderly ({ c with doing := .pop } :: rest) := ho.move_head trivial
    exact hpop.fill _ _
  | finished _ _ h => exact orderly_of_leave h ho
  | announceFailed _ h => exact orderly_of_leave h ho

/-- **Moves keep the stack of calls orderly.** -/
theorem Move.orderly (hm : Move β σ m n m') (hσ : σ.Quiet) (ho : Orderly m.calls) :
    Orderly m'.calls := by
  cases hm with
  | quiet _ _ hc => exact ho.advance hc
  | woke _ hc => exact ho.advance hc
  | spawned _ hc => exact ho.advance hc
  | turned h => exact h.orderly hσ ho

end Machine

/-- **All runs keep the stack of calls orderly.** -/
theorem Ensemble.Run.orderly {β : Behaviour W B V} {σ : Surroundings W B V}
    {P : Ensemble W B V → Prop} {s₀ s : Ensemble W B V} {h : List (Note V)} (hr : Run β σ P s₀ h s)
    (hσ : σ.Quiet) (ho : Orderly s₀.machine.calls) : Orderly s.machine.calls := by
  induction hr with
  | refl => exact ho
  | step _ hs _ ih => exact hs.move.orderly hσ ih

end TaskRuntime
