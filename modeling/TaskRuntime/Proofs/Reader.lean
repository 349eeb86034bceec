import TaskRuntime.Proofs.Propagation

/-!
# Tasks that read

A task that reads polls one future, and makes something of the result: it passes the result on, or
hands it to a continuation. `Task.reader?` is that future, and `Task.resume` is what the task does
once the future has been polled. A poll of the task is a poll of the future, followed by what the
task makes of it (`Task.poll_of_reader`): if the future is pending, so is the task
(`Task.resume_pending`), and otherwise the task will not be pending, and runs nothing to completion
(`Task.ends_resume`, `Task.flat_resume`).
-/

namespace TaskRuntime

variable {W B V R S : Type}

/-! ### Programs that run nothing to completion -/

namespace Act

/-- A program runs nothing to completion. -/
def Flat : Act W B V R → Prop
  | .done _ => True
  | .look k => ∀ w, (k w).Flat
  | .put _ k => k.Flat
  | .wake _ k => k.Flat
  | .unpark k => k.Flat
  | .parkFor k => ∀ b, (k b).Flat
  | .spawn _ k => ∀ r, (k r).Flat
  | .blockOn _ _ => False
  | .figures k => ∀ x, (k x).Flat

variable {p p' : Act W B V R} {f : R → Act W B V S}

/-- What is true of every answer is true of all ends. -/
theorem Ends.of_forall {Q : R → Prop} (hQ : ∀ r, Q r) (p : Act W B V R) : p.Ends Q := by
  induction p with
  | done r => exact hQ r
  | look k ih => exact ih
  | put w k ih => exact ih
  | wake w k ih => exact ih
  | unpark k ih => exact ih
  | parkFor k ih => exact ih
  | spawn b k ih => exact ih
  | blockOn b k ih => exact ih
  | figures k ih => exact ih

theorem Flat.leads (hp : p.Flat) (hl : p.Leads p') : p'.Flat :=
  hl.keeps hp (fun _ h ↦ h) (fun _ _ h ↦ h) (fun _ _ h ↦ h) (fun _ h ↦ h) (fun _ h ↦ h)
    (fun _ _ h ↦ h) fun _ h ↦ h

theorem Flat.bind (hp : p.Flat) (hf : ∀ r, (f r).Flat) : (p.bind f).Flat := by
  induction p with
  | done r => exact hf r
  | look k ih => exact fun w ↦ ih w (hp w)
  | put w k ih => exact ih hp
  | wake w k ih => exact ih hp
  | unpark k ih => exact ih hp
  | parkFor k ih => exact fun b ↦ ih b (hp b)
  | spawn b k ih => exact fun r ↦ ih r (hp r)
  | blockOn b k => exact hp.elim
  | figures k ih => exact fun x ↦ ih x (hp x)

end Act

namespace Task

variable {K : Type} [Kernel K]

/-- The future that a task reads with, and how it is opened. -/
def reader? : Task → Option (ReadToEnd × ReadToEnd.Opening K)
  | read f => some (f, .none)
  | get g => some (g.answer, Get.opening g.host g.port g.path)
  | chain first _ => first.reader?
  | _ => none

/-- **What a task does** once its future has been polled. A task without a future does nothing. -/
def resume : Task → Polled Bytes → ReadToEnd → TaskAct K (Polled Value × Task)
  | read _, r, f => .done (textValue r, read f)
  | get g, r, f => .done (textValue r, get { g with answer := f })
  | chain first k, r, f =>
    ((first.resume r f).bind (Future.chainRest drop k.run)).bind fun
      | (r, some first) => .done (r, chain first k)
      | (r, none) => .done (r, consumed)
  | t, _, _ => .done (.ok .pending, t)

/-- A poll of a future, with what comes after it. -/
def readAnd (f : ReadToEnd) (opening : ReadToEnd.Opening K) (w : Waker)
    (k : Polled Bytes → ReadToEnd → TaskAct K (Polled Value × Task)) :
    TaskAct K (Polled Value × Task) :=
  .look fun world ↦
    let (r, f, e) := f.poll opening w world.toEnvironment
    .put { world with toEnvironment := e } (k r f)

variable {f : ReadToEnd} {opening : ReadToEnd.Opening K}

/-- **A poll of a task that reads** is a poll of its future, and what comes after it. -/
theorem poll_of_reader (t : Task) (ht : t.reader? = some (f, opening)) (w : Waker) :
    t.poll w = readAnd f opening w t.resume := by
  match t with
  | read g =>
    obtain ⟨rfl, rfl⟩ := Prod.mk.inj (Option.some.inj ht)
    rfl
  | get g =>
    obtain ⟨rfl, rfl⟩ := Prod.mk.inj (Option.some.inj ht)
    rfl
  | chain first k =>
    have hfirst := poll_of_reader first ht w
    rw [poll, Future.chainPoll, hfirst]
    rfl

/-- A task whose future is pending is pending, with the same future. -/
theorem resume_pending (t : Task) (ht : t.reader? = some (f, opening)) (f' : ReadToEnd) :
    ∃ t', t.resume (.ok .pending) f' = (.done (.ok .pending, t') : TaskAct K _) ∧
      t'.reader? = some (f', opening) := by
  match t with
  | read g =>
    obtain ⟨rfl, rfl⟩ := Prod.mk.inj (Option.some.inj ht)
    exact ⟨read f', rfl, rfl⟩
  | get g =>
    obtain ⟨rfl, rfl⟩ := Prod.mk.inj (Option.some.inj ht)
    exact ⟨get { g with answer := f' }, rfl, rfl⟩
  | chain first k =>
    obtain ⟨t', hfirst, ht'⟩ := resume_pending first ht f'
    refine ⟨chain t' k, ?_, ht'⟩
    rw [resume, hfirst]
    rfl

/-- A poll that does not leave its task pending. -/
def Settles {A S : Type} (r : Polled A × S) : Prop := r.1 ≠ .ok .pending

theorem textValue_ne_pending {r : Polled Bytes} (hr : r ≠ .ok .pending) :
    textValue r ≠ .ok .pending := by
  rcases r with e | _ | b
  · exact nofun
  · exact absurd rfl hr
  · exact nofun

/-- **A task whose future is not pending** will not be pending. -/
theorem ends_resume (t : Task) (ht : t.reader? = some (f, opening)) {r : Polled Bytes}
    (hr : r ≠ .ok .pending) (f' : ReadToEnd) :
    (t.resume r f' : TaskAct K (Polled Value × Task)).Ends Settles := by
  match t with
  | read g => exact textValue_ne_pending hr
  | get g => exact textValue_ne_pending hr
  | chain first k =>
    -- The first part fails, or hands a value to the continuation; it is not pending.
    have hchain : ((first.resume r f' : TaskAct K _).bind
        (Future.chainRest drop k.run)).Ends Settles := by
      refine (ends_resume first ht hr f').bind ?_
      rintro ⟨e | _ | v, first⟩ hs
      · exact nofun
      · exact absurd rfl hs
      · refine (Act.Ends.of_forall (fun _ ↦ trivial) (k.run v)).bind (Q := fun _ ↦ True) ?_
        rintro (e | c) -
        · exact fun _ ↦ nofun
        · exact fun _ ↦ nofun
    refine hchain.bind ?_
    rintro ⟨r, _ | first⟩ hs <;> exact hs

/-- What a task does once its future has been polled runs nothing to completion. -/
theorem flat_resume (t : Task) (r : Polled Bytes) (f' : ReadToEnd) :
    (t.resume r f' : TaskAct K (Polled Value × Task)).Flat := by
  match t with
  | chain first k =>
    have hfirst := flat_resume first r f'
    refine (hfirst.bind ?_).bind ?_
    · rintro ⟨e | _ | v, first⟩
      · trivial
      · trivial
      · refine Act.Flat.bind ?_ fun r ↦ fun _ ↦ trivial
        cases k <;> first | trivial | exact fun _ ↦ trivial
    · rintro ⟨r, _ | first⟩ <;> trivial
  | read g => trivial
  | get g => trivial
  | ready v => trivial
  | script s => trivial
  | guarded s resolved => trivial
  | consumed => trivial
  | fetch f => trivial
  | fanOut m => trivial

end Task

end TaskRuntime
