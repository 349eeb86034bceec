import TaskRuntime.Proofs.Lineage
import TaskRuntime.Proofs.Obligations
import TaskRuntime.Proofs.Reader

/-!
# Trees of futures

A future that reads, a request, and whatever is chained after them, with continuations that do as
they please: these are the trees (`Future.Tree`), and the future at the bottom is the leaf. Polling
a tree is polling its leaf, and going on with the result: a tree is pending if its leaf is, fails if
its leaf does, and loses its leaf when that has resulted in a value and the continuation has run.

Leaves are trees (`Future.Tree.read`, `Future.Tree.get`), a chain over a tree is one
(`Future.Tree.andThen`), and so are the tasks of programs that are made of these (`Task.tree`).
-/

namespace TaskRuntime

variable {K : Type} [Kernel K] {B V S A C : Type}

/-- A poll of a future that reads, with what comes after it. -/
def ReadToEnd.pollAnd {R : Type} (f : ReadToEnd) (opening : Opening K) (w : Waker)
    (k : Polled Bytes → ReadToEnd → Act (World K) B V R) : Act (World K) B V R :=
  .look fun world ↦
    let (r, f, e) := f.poll opening w world.toEnvironment
    .put { world with toEnvironment := e } (k r f)

/-- A future that reads. -/
def ReadToEnd.future : Future (World K) B V ReadToEnd Bytes where
  poll f w := f.pollAnd .none w fun r f ↦ .done (r, f)
  drop f w := { w with toEnvironment := f.drop w.toEnvironment }

/-- A request. -/
def Get.future : Future (World K) B V Get Bytes where
  poll g w := g.answer.pollAnd (Get.opening g.host g.port g.path) w fun r f ↦
    .done (r, { g with answer := f })
  drop g w := { w with toEnvironment := g.drop w.toEnvironment }

/-- **A tree of futures**, chained one after the other over one that reads: its leaf. -/
structure Future.Tree (φ : Future (World K) B V S A) where
  /-- The leaf and how it is opened, until it has resulted in a value. -/
  leaf : S → Option (ReadToEnd × ReadToEnd.Opening K)
  /-- What is done when the leaf has been polled. -/
  resume : S → Polled Bytes → ReadToEnd → Act (World K) B V (Polled A × S)
  /-- A poll is a poll of the leaf, and what comes after it. -/
  poll : ∀ {s f opening}, leaf s = some (f, opening) →
    ∀ w, φ.poll s w = f.pollAnd opening w (resume s)
  /-- Destroying a tree destroys the leaf. -/
  drop : ∀ {s f opening}, leaf s = some (f, opening) →
    ∀ w, φ.drop s w = { w with toEnvironment := f.drop w.toEnvironment }
  /-- Without a leaf, no waker is stored. -/
  bare : ∀ {s}, leaf s = none →
    ∀ w : World K, w.toEnvironment.StoresNone (φ.drop s w).toEnvironment
  /-- If the leaf is pending, so is the tree. -/
  pending : ∀ {s f opening}, leaf s = some (f, opening) → ∀ f', ∃ s',
    resume s (.ok .pending) f' = .done (.ok .pending, s') ∧ leaf s' = some (f', opening)
  /-- If the leaf fails, so does the tree. -/
  failed : ∀ {s f opening}, leaf s = some (f, opening) → ∀ x f', ∃ s',
    resume s (.error x) f' = .done (.error x, s') ∧ leaf s' = some (f', opening)
  /-- If the leaf results in a value, the tree is not pending, and has no other leaf afterwards. -/
  ready : ∀ {s f opening}, leaf s = some (f, opening) → ∀ b f',
    (resume s (.ok (.ready b)) f').Ends fun r ↦
      r.1 ≠ .ok .pending ∧ ∀ g o, leaf r.2 = some (g, o) → g = f'

namespace Future.Tree

/-- A future that reads is a tree. -/
def read : Tree (ReadToEnd.future : Future (World K) B V ReadToEnd Bytes) where
  leaf f := some (f, .none)
  resume _ r f := .done (r, f)
  poll h w := by
    obtain ⟨rfl, rfl⟩ := Prod.mk.inj (Option.some.inj h)
    rfl
  drop h w := by
    obtain ⟨rfl, rfl⟩ := Prod.mk.inj (Option.some.inj h)
    rfl
  bare := nofun
  pending h f' := by
    obtain ⟨rfl, rfl⟩ := Prod.mk.inj (Option.some.inj h)
    exact ⟨f', rfl, rfl⟩
  failed h x f' := by
    obtain ⟨rfl, rfl⟩ := Prod.mk.inj (Option.some.inj h)
    exact ⟨f', rfl, rfl⟩
  ready _ b f' := ⟨nofun, fun g o h ↦ (Prod.mk.inj (Option.some.inj h)).1.symm⟩

/-- A request is a tree. -/
def get : Tree (Get.future : Future (World K) B V Get Bytes) where
  leaf g := some (g.answer, Get.opening g.host g.port g.path)
  resume g r f := .done (r, { g with answer := f })
  poll h w := by
    obtain ⟨rfl, rfl⟩ := Prod.mk.inj (Option.some.inj h)
    rfl
  drop h w := by
    obtain ⟨rfl, rfl⟩ := Prod.mk.inj (Option.some.inj h)
    rfl
  bare := nofun
  pending {g f o} h f' := by
    obtain ⟨rfl, rfl⟩ := Prod.mk.inj (Option.some.inj h)
    exact ⟨{ g with answer := f' }, rfl, rfl⟩
  failed {g f o} h x f' := by
    obtain ⟨rfl, rfl⟩ := Prod.mk.inj (Option.some.inj h)
    exact ⟨{ g with answer := f' }, rfl, rfl⟩
  ready _ b f' := ⟨nofun, fun g o h ↦ (Prod.mk.inj (Option.some.inj h)).1.symm⟩

omit [Kernel K] in
/-- What is done when the first of two futures has been polled. -/
theorem ends_chainRest {drop : S → World K → World K} {g : A → Act (World K) B V (Except Failure C)}
    {r : Polled A × S} (hr : r.1 ≠ .ok .pending) :
    (chainRest drop g r).Ends fun x ↦ x.1 ≠ .ok .pending ∧ ∀ s, x.2 = some s → s = r.2 := by
  rcases r with ⟨e | _ | a, s⟩
  · exact ⟨nofun, fun _ h ↦ (Option.some.inj h).symm⟩
  · exact absurd rfl hr
  · refine (Act.Ends.of_forall (Q := fun _ ↦ True) (fun _ ↦ trivial) (g a)).bind ?_
    rintro (e | c) -
    · exact fun _ ↦ ⟨nofun, nofun⟩
    · exact fun _ ↦ ⟨nofun, nofun⟩

/-- **A chain over a tree** is a tree, whatever its continuation does. -/
def andThen {φ : Future (World K) B V S A} (t : Tree φ)
    (g : A → Act (World K) B V (Except Failure C)) : Tree (φ.andThen g) where
  leaf s := s.bind t.leaf
  resume
    | none, _, _ => .done (.ok .pending, none)
    | some s, r, f => (t.resume s r f).bind (chainRest φ.drop g)
  poll {s f o} h w := by
    cases s with
    | none => cases h
    | some s =>
      show (φ.poll s w).bind (chainRest φ.drop g) = _
      rw [t.poll h]
      rfl
  drop {s f o} h w := by
    cases s with
    | none => cases h
    | some s => exact t.drop h w
  bare {s} h w := by
    cases s with
    | none => exact fun _ hs ↦ hs
    | some s => exact t.bare h w
  pending {s f o} h f' := by
    cases s with
    | none => cases h
    | some s =>
      obtain ⟨s', hs, hl⟩ := t.pending h f'
      refine ⟨some s', ?_, hl⟩
      show (t.resume s (.ok .pending) f').bind (chainRest φ.drop g) = _
      rw [hs]
      rfl
  failed {s f o} h x f' := by
    cases s with
    | none => cases h
    | some s =>
      obtain ⟨s', hs, hl⟩ := t.failed h x f'
      refine ⟨some s', ?_, hl⟩
      show (t.resume s (.error x) f').bind (chainRest φ.drop g) = _
      rw [hs]
      rfl
  ready {s f o} h b f' := by
    cases s with
    | none => cases h
    | some s =>
      refine (t.ready h b f').bind fun r hr ↦ (ends_chainRest hr.1).mono fun x hx ↦ ⟨hx.1, ?_⟩
      rintro g o hl
      rcases hs : x.2 with _ | s
      · rw [hs] at hl
        cases hl
      · rw [hs] at hl
        obtain rfl := hx.2 s hs
        exact hr.2 g o hl

end Future.Tree

/-! ### Tasks -/

/-- A behaviour as a future: its states are the bodies. -/
def Behaviour.future (β : Behaviour (World K) B V) : Future (World K) B V B V where
  poll := β.poll
  drop := β.drop

namespace Task

variable {f : ReadToEnd} {opening : ReadToEnd.Opening K}

/-- If its future fails, so does a task. -/
theorem resume_failed (t : Task) (ht : t.reader? = some (f, opening)) (x : Failure)
    (f' : ReadToEnd) :
    ∃ t', t.resume (.error x) f' = (.done (.error x, t') : TaskAct K _) ∧
      t'.reader? = some (f', opening) := by
  match t with
  | read g =>
    obtain ⟨rfl, rfl⟩ := Prod.mk.inj (Option.some.inj ht)
    exact ⟨read f', rfl, rfl⟩
  | get g =>
    obtain ⟨rfl, rfl⟩ := Prod.mk.inj (Option.some.inj ht)
    exact ⟨get { g with answer := f' }, rfl, rfl⟩
  | chain first k =>
    obtain ⟨t', hfirst, ht'⟩ := resume_failed first ht x f'
    refine ⟨chain t' k, ?_, ht'⟩
    rw [resume, hfirst]
    rfl

/-- If its future results in a value, a task is not pending, and has no other one afterwards. -/
theorem ends_resume_ready (t : Task) (ht : t.reader? = some (f, opening)) (b : Bytes)
    (f' : ReadToEnd) :
    (t.resume (.ok (.ready b)) f' : TaskAct K (Polled Value × Task)).Ends fun r ↦
      r.1 ≠ .ok .pending ∧ ∀ (g : ReadToEnd) (o : ReadToEnd.Opening K),
        r.2.reader? = some (g, o) → g = f' := by
  match t with
  | read g => exact ⟨nofun, fun g o h ↦ (Prod.mk.inj (Option.some.inj h)).1.symm⟩
  | get g => exact ⟨nofun, fun g o h ↦ (Prod.mk.inj (Option.some.inj h)).1.symm⟩
  | chain first k =>
    refine ((ends_resume_ready first ht b f').bind fun r hr ↦
      (Future.Tree.ends_chainRest hr.1).mono fun x hx ↦ ?_).bind
        (Q := fun x ↦ x.1 ≠ .ok .pending ∧ ∀ s, x.2 = some s → ∀ (g : ReadToEnd)
          (o : ReadToEnd.Opening K), s.reader? = some (g, o) → g = f') ?_
    · refine ⟨hx.1, fun s hs g o hl ↦ ?_⟩
      obtain rfl := hx.2 s hs
      exact hr.2 g o hl
    · rintro ⟨r, _ | first⟩ hx
      · exact ⟨hx.1, nofun⟩
      · exact ⟨hx.1, hx.2 first rfl⟩

/-- Destroying a task that reads destroys its future. -/
theorem drop_of_reader (t : Task) (ht : t.reader? = some (f, opening)) (w : World K) :
    t.drop w = { w with toEnvironment := f.drop w.toEnvironment } := by
  match t with
  | read g =>
    obtain ⟨rfl, rfl⟩ := Prod.mk.inj (Option.some.inj ht)
    rfl
  | get g =>
    obtain ⟨rfl, rfl⟩ := Prod.mk.inj (Option.some.inj ht)
    rfl
  | chain first k => exact drop_of_reader first ht w

/-- Destroying any other task stores no waker. -/
theorem storesNone_drop (t : Task) (ht : t.reader? (K := K) = none) (w : World K) :
    w.toEnvironment.StoresNone (t.drop w).toEnvironment := by
  have hsame : w.toEnvironment.StoresNone w.toEnvironment := fun _ h ↦ h
  match t with
  | chain first k => exact storesNone_drop first ht w
  | fetch ⟨_, _, .waiting g⟩ => exact fun _ h ↦ (ReadToEnd.stored_drop h).1
  | fetch ⟨_, _, .start⟩ => exact hsame
  | fetch ⟨_, _, .resolved⟩ => exact hsame
  | script s => exact hsame
  | guarded s resolved => exact hsame
  | ready v => exact hsame
  | consumed => exact hsame
  | fanOut m => exact hsame

/-- **The tasks of programs**: those that read are trees. -/
def tree : Future.Tree (K := K) Task.behaviour.future where
  leaf := reader?
  resume := resume
  poll {t _ _} h w := t.poll_of_reader h w
  drop {t _ _} h w := t.drop_of_reader h w
  bare {t} h w := t.storesNone_drop h w
  pending {t _ _} h f' := t.resume_pending h f'
  failed {t _ _} h x f' := t.resume_failed h x f'
  ready {t _ _} h b f' := t.ends_resume_ready h b f'

end Task

end TaskRuntime
