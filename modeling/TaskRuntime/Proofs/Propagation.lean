import TaskRuntime.Task.Behaviour
import TaskRuntime.Proofs.Quiet

/-!
# Failures propagate

A program that runs a task to completion is told whether that has failed. It propagates failures if,
once told so, it can only fail itself, whatever else it does on the way (`Act.Propagates`). A call
whose program can only fail is doomed: `Doing.Doomed` stays true until the call ends, and the call
then ends with a failure.

All tasks propagate failures (`Task.propagates_behaviour`).
-/

namespace TaskRuntime

variable {W B V R S : Type}

/-! ### Programs -/

namespace Act

/-- All ends of a program are as given. -/
def Ends (Q : R → Prop) : Act W B V R → Prop
  | .done r => Q r
  | .look k => ∀ w, (k w).Ends Q
  | .put _ k => k.Ends Q
  | .wake _ k => k.Ends Q
  | .unpark k => k.Ends Q
  | .parkFor k => ∀ b, (k b).Ends Q
  | .spawn _ k => ∀ r, (k r).Ends Q
  | .blockOn _ k => ∀ r, (k r).Ends Q
  | .figures k => ∀ x, (k x).Ends Q

/-- After a run to completion that has failed, all ends of a program are as given. -/
def Propagates (Q : R → Prop) : Act W B V R → Prop
  | .done _ => True
  | .look k => ∀ w, (k w).Propagates Q
  | .put _ k => k.Propagates Q
  | .wake _ k => k.Propagates Q
  | .unpark k => k.Propagates Q
  | .parkFor k => ∀ b, (k b).Propagates Q
  | .spawn _ k => ∀ r, (k r).Propagates Q
  | .blockOn _ k => (∀ e, (k (.error e)).Ends Q) ∧ ∀ r, (k r).Propagates Q
  | .figures k => ∀ x, (k x).Propagates Q

variable {Q : R → Prop} {Q' : S → Prop} {p p' : Act W B V R} {f : R → Act W B V S}

theorem Ends.leads (hp : p.Ends Q) (hl : p.Leads p') : p'.Ends Q :=
  hl.keeps hp (fun _ h ↦ h) (fun _ _ h ↦ h) (fun _ _ h ↦ h) (fun _ h ↦ h) (fun _ h ↦ h)
    (fun _ _ h ↦ h) fun _ h ↦ h

theorem Propagates.leads (hp : p.Propagates Q) (hl : p.Leads p') : p'.Propagates Q :=
  hl.keeps hp (fun _ h ↦ h) (fun _ _ h ↦ h) (fun _ _ h ↦ h) (fun _ h ↦ h) (fun _ h ↦ h)
    (fun _ _ h ↦ h) fun _ h ↦ h

/-! ### Sequencing -/

theorem Ends.bind (hp : p.Ends Q) (hf : ∀ r, Q r → (f r).Ends Q') : (p.bind f).Ends Q' := by
  induction p with
  | done r => exact hf r hp
  | look k ih => exact fun w ↦ ih w (hp w)
  | put w k ih => exact ih hp
  | wake w k ih => exact ih hp
  | unpark k ih => exact ih hp
  | parkFor k ih => exact fun b ↦ ih b (hp b)
  | spawn b k ih => exact fun r ↦ ih r (hp r)
  | blockOn b k ih => exact fun r ↦ ih r (hp r)
  | figures k ih => exact fun x ↦ ih x (hp x)

theorem Propagates.bind (hp : p.Propagates Q) (hQ : ∀ r, Q r → (f r).Ends Q')
    (hf : ∀ r, (f r).Propagates Q') : (p.bind f).Propagates Q' := by
  induction p with
  | done r => exact hf r
  | look k ih => exact fun w ↦ ih w (hp w)
  | put w k ih => exact ih hp
  | wake w k ih => exact ih hp
  | unpark k ih => exact ih hp
  | parkFor k ih => exact fun b ↦ ih b (hp b)
  | spawn b k ih => exact fun r ↦ ih r (hp r)
  | blockOn b k ih => exact ⟨fun e ↦ (hp.1 e).bind hQ, fun r ↦ ih r (hp.2 r)⟩
  | figures k ih => exact fun x ↦ ih x (hp x)

theorem propagates_change (g : W → W) (Q : Unit → Prop) :
    (change g : Act W B V Unit).Propagates Q := fun _ ↦ trivial

theorem propagates_lift (g : W → R × W) (Q : R → Prop) : (lift g : Act W B V R).Propagates Q :=
  fun _ ↦ trivial

end Act

/-- A result that is a failure. -/
def Failed : Except Failure R → Prop
  | .error _ => True
  | .ok _ => False

/-- **Bodies propagate failures**: once a poll is told that a run to completion has failed, it
fails. -/
def Behaviour.Propagates (β : Behaviour W B V) : Prop :=
  ∀ b w, (β.poll b w).Propagates fun r ↦ Failed r.1

/-! ### Tasks -/

section Tasks

variable {K : Type}

theorem Action.propagates_run (w : Waker) (a : Action) :
    (a.run w : TaskAct K (Except Failure Unit)).Propagates Failed := by
  cases a with
  | log text => exact fun _ ↦ trivial
  | wake => trivial
  | save slot => exact fun _ ↦ trivial
  | fire slot =>
    intro world
    dsimp only
    split <;> trivial
  | clear slot => exact fun _ ↦ trivial
  | unpark => trivial
  | willWake slot => exact fun _ _ ↦ trivial
  | spawn t => rintro (e | id) <;> first | trivial | exact fun _ ↦ trivial
  | blockOn t =>
    refine ⟨fun e ↦ trivial, ?_⟩
    rintro (e | v)
    · trivial
    · exact fun _ ↦ trivial
  | figures => exact fun _ _ ↦ trivial

theorem Action.propagates_runAll (w : Waker) (as : List Action) :
    (runAll w as : TaskAct K (Except Failure Unit)).Propagates Failed := by
  induction as with
  | nil => trivial
  | cons a rest ih =>
    refine (a.propagates_run w).bind ?_ ?_
    · rintro (e | u) hr
      · exact hr
      · exact hr.elim
    · rintro (e | u)
      · trivial
      · exact ih

theorem Script.propagates_poll (s : Script) (w : Waker) :
    (s.poll w : TaskAct K (Polled Value × Script)).Propagates fun r ↦ Failed r.1 := by
  refine (Act.propagates_change _ fun _ ↦ False).bind (fun _ h ↦ h.elim) fun _ ↦ ?_
  refine (Action.propagates_runAll w s.entry.actions).bind ?_ ?_
  · rintro (e | u) hr
    · exact hr
    · exact hr.elim
  · rintro (e | u)
    · trivial
    · dsimp only
      split <;> trivial

theorem Continuation.propagates_run (k : Continuation) (v : Value) :
    (k.run v : TaskAct K (Except Failure Value)).Propagates Failed := by
  cases k <;> first | trivial | exact fun _ ↦ trivial

/-- A chain propagates failures if its parts do. -/
theorem Future.propagates_chainPoll {A C S : Type} {first : Act W B V (Polled A × S)}
    {drop : S → W → W} {g : A → Act W B V (Except Failure C)}
    (hf : first.Propagates fun r ↦ Failed r.1)
    (hg : ∀ a, (g a).Propagates Failed) :
    (chainPoll first drop g).Propagates fun r ↦ Failed r.1 := by
  refine hf.bind ?_ ?_
  · rintro ⟨e | _ | a, s⟩ hr <;> first | exact hr | exact hr.elim
  · -- The first part fails, is pending, or hands a value to the second.
    rintro ⟨e | _ | a, s⟩
    · trivial
    · trivial
    · refine (hg a).bind ?_ fun r ↦ fun _ ↦ trivial
      rintro (e | c) hr
      · exact fun _ ↦ trivial
      · exact hr.elim

theorem Future.propagates_guardPoll {A C : Type} {inner : Act W B V (Polled A × C)}
    (hi : inner.Propagates fun r ↦ Failed r.1) :
    (guardPoll inner).Propagates fun r ↦ Failed r.1 :=
  hi.bind (fun _ hr ↦ hr) fun _ ↦ trivial

namespace Task

theorem propagates_pollFanOut (m : Demo.FanOut) :
    (pollFanOut m : TaskAct K (Polled Value × Task)).Propagates fun r ↦ Failed r.1 := by
  have hspawn (fs : List Demo.Fetch) :
      (Demo.spawnAll fs : TaskAct K (Except Failure Unit)).Propagates Failed := by
    induction fs with
    | nil => trivial
    | cons f rest ih =>
      rintro (e | id)
      · trivial
      · exact ih
  unfold pollFanOut
  split
  · trivial
  · refine (Act.propagates_change _ fun _ ↦ False).bind (fun _ h ↦ h.elim) fun _ ↦ ?_
    refine (hspawn m.fetches).bind ?_ ?_
    · rintro (e | u) hr
      · exact hr
      · exact hr.elim
    · rintro (e | u) <;> trivial

theorem propagates_leafPoll {S : Type} (poll : Environment K → Polled Value × S × Environment K)
    (wrap : S → Task) :
    (leafPoll poll wrap : TaskAct K (Polled Value × Task)).Propagates fun r ↦ Failed r.1 :=
  Act.propagates_lift _ _

variable [Kernel K]

/-- A poll of a task propagates failures. -/
theorem propagates_poll (t : Task) (w : Waker) :
    (t.poll w : TaskAct K (Polled Value × Task)).Propagates fun r ↦ Failed r.1 := by
  match t with
  | ready (some v) => trivial
  | ready none => trivial
  | script s => exact (s.propagates_poll w).bind (fun _ hr ↦ hr) fun _ ↦ trivial
  | guarded s true => trivial
  | guarded s false =>
    exact (Future.propagates_guardPoll (s.propagates_poll w)).bind (fun _ hr ↦ hr) fun _ ↦ trivial
  | chain first k =>
    have hf := propagates_poll first w
    refine (Future.propagates_chainPoll hf k.propagates_run).bind ?_ ?_
    · rintro ⟨r, _ | first⟩ hr <;> exact hr
    · rintro ⟨r, _ | first⟩ <;> trivial
  | consumed => trivial
  | read f => exact propagates_leafPoll _ _
  | get g => exact propagates_leafPoll _ _
  | fetch f => exact propagates_leafPoll _ _
  | fanOut m => exact propagates_pollFanOut m

/-- **All tasks propagate failures.** -/
theorem propagates_behaviour : (behaviour (K := K)).Propagates := propagates_poll

end Task

end Tasks

end TaskRuntime
