import TaskRuntime.Proofs.Likeness
import TaskRuntime.Proofs.Parking
import TaskRuntime.Proofs.Phases

/-!
# Runs as they are seen

A run of an ensemble is watched from outside. What is seen of it is a list of sights
(`Ensemble.Sight`): each step that matters, with the notes it leaves and the table as it was, and
for steps of others what they have done. Three kinds of step are told apart.

* **Seen** steps: whatever a program of a task does, pops of ids whose tasks may yet be polled, ends
  of calls, and what others do to tasks and world.
* **Unseen** steps: a scheduling loop that finds nothing to do goes round (`Ensemble.Rounds`), and
  others notify threads or act elsewhere.
* **Noise**: notifications for no reason, and pushes for wakes of tasks that have come to their ends
  or belong to other executors.

`Ensemble.Observed` is any number of such steps. Noise and unseen steps add no sight to it, and
whether there is noise at all is its first parameter.

## Steps of the executor

`Ensemble.next?` is the next step of the executor itself, as a function. An announcement of a
parking is one step of it: it logs, and in surroundings that are discreet (`Surroundings.Discreet`)
no task reads what has been logged.

## What an observed run keeps

An observed run is a run of the ensemble (`Ensemble.Observed.history`), so all that is known of
those holds of it, but with the sights in place of the whole history: `Ensemble.Kept`.
-/

namespace TaskRuntime

variable {W B V R : Type}

/-! ### Discreet surroundings -/

/-- The likeness of sites with the same ids and the same bodies, in worlds that tasks cannot tell
apart. As all ids stand for themselves, it does not matter which queue and parker it is about. -/
def Likeness.plain (ω : Setoid W) : Likeness W B where
  queue := ⟨0⟩
  parker := ⟨0⟩
  ids := .refl TaskId
  world := ω.r
  body := Eq
  exists_right w := ⟨w, ω.refl w⟩
  exists_left w := ⟨w, ω.refl w⟩

@[simp] theorem Likeness.plain_waker (ω : Setoid W) (w : Waker) :
    (plain ω : Likeness W B).waker w = w := by
  unfold waker
  split <;> rfl

theorem Likeness.plain_symm (ω : Setoid W) : (plain ω : Likeness W B).symm = plain ω := by
  have hworld : (fun w w' ↦ ω.r w' w) = ω.r :=
    funext fun _ ↦ funext fun _ ↦ propext ⟨ω.symm, ω.symm⟩
  have hbody : (fun b b' : B ↦ b' = b) = Eq := eq_flip
  show (⟨_, _, _, fun w w' ↦ ω.r w' w, fun b b' : B ↦ b' = b, _, _⟩ : Likeness W B) = plain ω
  simp only [plain, hworld, hbody, Equiv.refl_symm]

theorem Likeness.ends_plain {ω : Setoid W} {r r' : Polled V × B} :
    (plain ω).Ends r r' ↔ r = r' :=
  Prod.ext_iff.symm

/-- **Nothing that happens around the loop can be told by tasks.** An announcement succeeds, and
neither it nor what follows until the thread parks does more than to change the world into one that
tasks cannot tell from it. -/
structure Surroundings.Discreet (σ : Surroundings W B V) (β : Behaviour W B V) (ω : Setoid W) :
    Prop where
  /-- What happens on the way to sleep is quiet. -/
  quiet : σ.Quiet
  /-- An announcement succeeds, and no task can tell that it has been made. -/
  announce : ∀ n (s : Site W B), ∃ w, ω s.world w ∧
    (σ.announce n).run β s = (.finished (.ok ()), [], { s with world := w })
  /-- No task can tell that the thread has been about to park. -/
  asleep : ∀ s : Site W B, ∃ w, ω s.world w ∧
    σ.asleep.run β s = (.finished (), [], { s with world := w })
  /-- What happens when a table is found empty is the same in worlds that tasks cannot tell apart.
  -/
  finished : ∀ w w', ω w w' → ω (σ.finished w) (σ.finished w')

/-! ### Steps of the executor itself -/

namespace Ensemble

/-- The active call goes on with its program: by one request, or, at the end of the program and at a
run to completion, with what follows. -/
def goOn (β : Behaviour W B V) (σ : Surroundings W B V) (s : Ensemble W B V) (c : Call W B V)
    (rest : List (Call W B V)) (wrap : Act W B V R → Doing W B V) (p : Act W B V R) :
    Option (List (Note V) × Ensemble W B V) :=
  match p with
  | .wake w k => some ([.woke w],
      ⟨{ s.machine.onSignals (·.pushFor w) with calls := { c with doing := wrap k } :: rest },
        s.flights, some w⟩)
  | p =>
    match p.request? β s.machine.site with
    | some (n, p', site) => some (n,
        ⟨{ s.machine with site, calls := { c with doing := wrap p' } :: rest }, s.flights, none⟩)
    | none => (s.machine.step? β σ).map fun (n, m) ↦ (n, ⟨m, s.flights, none⟩)

/-- **The next step of the executor itself**; nothing if there is none, or if the thread sleeps. -/
def next? (β : Behaviour W B V) (σ : Surroundings W B V) (s : Ensemble W B V) :
    Option (List (Note V) × Ensemble W B V) :=
  match s.own with
  | some w => some ([], ⟨s.machine.onSignals (·.unparkFor w), s.flights, none⟩)
  | none =>
    match s.machine.calls with
    | [] => none
    | c :: rest =>
      match c.doing with
      | .first p => s.goOn β σ c rest .first p
      | .poll id p => s.goOn β σ c rest (.poll id) p
      | _ => (s.machine.step? β σ).map fun (n, m) ↦ (n, ⟨m, s.flights, none⟩)

section

variable {β : Behaviour W B V} {σ : Surroundings W B V} {s s' : Ensemble W B V} {n : List (Note V)}

theorem goOn_of_request? {c : Call W B V} {rest : List (Call W B V)}
    {wrap : Act W B V R → Doing W B V} {p p' : Act W B V R} {site : Site W B}
    (h : p.request? β s.machine.site = some (n, p', site)) :
    s.goOn β σ c rest wrap p = some (n,
      ⟨{ s.machine with site, calls := { c with doing := wrap p' } :: rest }, s.flights,
        none⟩) := by
  unfold goOn
  split
  · cases h
  · rw [h]

/-- A step of the machine alone is a run. -/
theorem run_of_step? {m : Machine W B V} {fl : List Waker}
    (h : ((m.step? β σ).map fun (n, m) ↦ (n, (⟨m, fl, none⟩ : Ensemble W B V))) = some (n, s')) :
    Run β σ (fun _ ↦ True) ⟨m, fl, none⟩ n s' := by
  obtain ⟨⟨n', m'⟩, hstep, he⟩ := Option.map_eq_some_iff.1 h
  obtain ⟨rfl, rfl⟩ := Prod.mk.inj he
  exact (Machine.run_step? hstep (Nat.le_max_left _ _) (Nat.le_max_right _ _)).mono
    fun _ _ ↦ trivial

theorem run_of_goOn {m : Machine W B V} {fl : List Waker} {c : Call W B V}
    {rest : List (Call W B V)} {wrap : Act W B V R → Doing W B V} {p : Act W B V R}
    (hc : m.calls = c :: rest) (hw : Doing.Runs wrap) (hd : c.doing = wrap p)
    (h : goOn β σ ⟨m, fl, none⟩ c rest wrap p = some (n, s')) :
    Run β σ (fun _ ↦ True) ⟨m, fl, none⟩ n s' := by
  unfold goOn at h
  split at h
  · obtain ⟨rfl, rfl⟩ := Prod.mk.inj (Option.some.inj h)
    exact .single (.push hc hw hd) trivial
  · split at h
    · next hr =>
      obtain ⟨rfl, rfl⟩ := Prod.mk.inj (Option.some.inj h)
      exact .single (.request hc hw hd hr) trivial
    · exact run_of_step? h

/-- **A step of the executor itself is a run.** -/
theorem run_of_next? (h : s.next? β σ = some (n, s')) : Run β σ (fun _ ↦ True) s n s' := by
  obtain ⟨m, fl, own⟩ := s
  unfold next? at h
  split at h
  · next w ho =>
    obtain rfl : own = some w := ho
    obtain ⟨rfl, rfl⟩ := Prod.mk.inj (Option.some.inj h)
    exact .single .notify trivial
  · next ho =>
    obtain rfl : own = none := ho
    split at h
    · cases h
    · next c rest hc =>
      split at h
      · next hd => exact run_of_goOn hc .first hd h
      · next hd => exact run_of_goOn hc (.poll _) hd h
      · exact run_of_step? h

end

end Ensemble

theorem Waker.Fits.of_refs {x y : Executor B} {w : Waker} (hw : w.Fits x) (h : y.refs = x.refs) :
    w.Fits y := by
  obtain ⟨hq, hp⟩ := Prod.mk.inj h
  rw [Fits, hq, hp]
  exact hw

/-! ### Tasks that have come to their ends -/

/-- The task has been resolved, or has failed. -/
def Phase.ended : Phase V → Bool
  | resolved _ => true
  | failed => true
  | _ => false

/-- The ids of tasks that have not come to their ends. -/
def unspent (h : List (Note V)) (ids : List TaskId) : List TaskId :=
  ids.filter fun id ↦ !(phase id h).ended

section

variable {id : TaskId} {h n : List (Note V)} {t : TaskId → Prop} {f : List (TaskId × Bool)}

theorem Phase.after_of_ended {s : Phase V} (hs : s.ended = true) (hn : s.after id n ≠ spoilt) :
    (s.after id n).ended = true := by
  induction n with
  | nil => exact hs
  | cons k n ih =>
    rw [after] at hn ⊢
    split at hn
    · -- Nothing that is told about the task makes sense any more.
      have hspoilt : s.next k = spoilt := by
        cases s with
        | resolved v => cases k <;> rfl
        | failed => cases k <;> rfl
        | _ => cases hs
      rw [hspoilt, after_spoilt] at hn
      exact absurd rfl hn
    · next hk =>
      rw [if_neg hk]
      exact ih hn

/-- A task that has come to its end is at its end from then on. -/
theorem Books.ended (hb : Books t f (h ++ n)) (hid : (phase id h).ended = true) :
    (phase id (h ++ n)).ended = true := by
  rw [phase_append]
  refine Phase.after_of_ended hid ?_
  rw [← phase_append]
  exact (hb.sound id).1

theorem Books.not_tabled_of_ended (hb : Books t f h) (hid : (phase id h).ended = true) :
    ¬ t id := by
  intro ht
  rw [(hb.waiting id).2 ht] at hid
  cases hid

theorem Machine.get?_of_not_tabled {m : Machine W B V} (ht : ¬ m.Tabled id) :
    m.site.executor.tasks.get? id = none := by
  rwa [Machine.Tabled, Table.contains, Option.not_isSome_iff_eq_none] at ht

/-- **A task has come to its end** if its id has been given out, and it is neither in the table nor
being polled. -/
theorem Books.ended_iff (hb : Books t f h) :
    (phase id h).ended = true ↔ .issued id ∈ h ∧ ¬ t id ∧ ∀ inPlace, (id, inPlace) ∉ f := by
  constructor
  · refine fun hid ↦ ⟨?_, hb.not_tabled_of_ended hid, fun ip hmem ↦ ?_⟩
    · by_contra hi
      rw [hb.unborn hi] at hid
      cases hid
    · rw [(hb.polling id ip).2 hmem] at hid
      cases hid
  · rintro ⟨hi, ht, hf⟩
    cases hs : phase id h with
    | unborn =>
      have htells := phase_tells id h
      rw [hs] at htells
      exact absurd rfl (htells _ hi)
    | named => exact absurd hs (hb.sound id).2
    | waiting => exact absurd ((hb.waiting id).1 hs) ht
    | polling ip => exact absurd ((hb.polling id ip).1 hs) (hf ip)
    | resolved v => rfl
    | failed => rfl
    | spoilt => exact absurd hs (hb.sound id).1

end

/-! ### What is seen, and what is not -/

/-- A request by which a program does not learn of parkings: it neither asks the executor about
itself, nor lets the thread sleep. -/
def Act.Seemly : Act W B V R → Prop
  | .parkFor _ => False
  | .figures _ => False
  | _ => True

/-- What a call does next in a poll is seemly. -/
def Doing.Seemly : Doing W B V → Prop
  | first p => p.Seemly
  | poll _ p => p.Seemly
  | _ => True

/-- A call is in the scheduling loop, and not about to find that no task is left. -/
inductive Doing.Looping (σ : Surroundings W B V) (tasks : Table TaskId B) : Doing W B V → Prop
  /-- It is about to pop. -/
  | pop : Looping σ tasks .pop
  /-- It has found no id. -/
  | check (ht : tasks.isEmpty = false) : Looping σ tasks .check
  /-- It announces that the thread will park. -/
  | announce (n : Nat) (ht : tasks.isEmpty = false) : Looping σ tasks (.announce (σ.announce n))
  /-- It lets others act. -/
  | asleep (ht : tasks.isEmpty = false) : Looping σ tasks (.asleep σ.asleep)
  /-- It parks. -/
  | park (ht : tasks.isEmpty = false) : Looping σ tasks .park

/-- What others do. -/
inductive Outside (W B : Type)
  /-- They wake. -/
  | wake (w : Waker)
  /-- They change the world. -/
  | change (f : W → W)
  /-- Between the runs, they spawn. -/
  | spawn (b : B)
  /-- They begin a run to completion. -/
  | blockOn (b : B)

namespace Ensemble

/-- The next step of the executor is seemly. -/
def Seemly (s : Ensemble W B V) : Prop :=
  s.own = none → ∀ c ∈ s.machine.calls.head?, c.doing.Seemly

/-- A pop takes nothing off the queue that could be polled, and does not find the table empty. -/
def Skips (h : List (Note V)) (s : Ensemble W B V) : Prop :=
  match s.machine.site.ready with
  | [] => s.machine.site.executor.tasks.isEmpty = false
  | id :: _ => (phase id h).ended = true

theorem skips_of_nil {s : Ensemble W B V} {h : List (Note V)} (hr : s.machine.site.ready = []) :
    s.Skips h ↔ s.machine.site.executor.tasks.isEmpty = false := by rw [Skips, hr]

theorem skips_of_cons {s : Ensemble W B V} {h : List (Note V)} {id : TaskId} {ids : List TaskId}
    (hr : s.machine.site.ready = id :: ids) : s.Skips h ↔ (phase id h).ended = true := by
  rw [Skips, hr]

/-- **The loop goes round**: the active call is in it, and finds nothing to do. -/
def Rounds (σ : Surroundings W B V) (h : List (Note V)) (s : Ensemble W B V) : Prop :=
  s.own = none ∧ ∃ c rest, s.machine.calls = c :: rest ∧
    c.doing.Looping σ s.machine.site.executor.tasks ∧ (c.doing = .pop → s.Skips h)

/-- **What is seen of a step**: what others have done, if it is a step of theirs, the notes it
leaves, and the table before it. -/
structure Sight (W B V : Type) where
  /-- What others have done. -/
  outside : Option (Outside W B)
  /-- The notes that the step has left. -/
  notes : List (Note V)
  /-- The table before the step. -/
  tasks : Table TaskId B

/-- The notes that have been seen. -/
def notes (t : List (Sight W B V)) : List (Note V) := t.flatMap Sight.notes

@[simp] theorem notes_append (t u : List (Sight W B V)) :
    notes (t ++ u) = notes t ++ notes u :=
  List.flatMap_append

@[simp] theorem notes_singleton (a : Sight W B V) : notes [a] = a.notes := by simp [notes]

/-- **A step that is seen**, after the notes `h`. -/
inductive Seen (β : Behaviour W B V) (σ : Surroundings W B V) (ω : Setoid W) (h : List (Note V)) :
    Ensemble W B V → Sight W B V → Ensemble W B V → Prop
  /-- The executor does something. -/
  | own {s n s'} (hq : s.Seemly) (hi : ¬ s.Rounds σ h) (hn : s.next? β σ = some (n, s'))
      (hw : ∀ w, .woke w ∈ n → w.Fits s.machine.site.executor) :
      Seen β σ ω h s ⟨none, n, s.machine.site.executor.tasks⟩ s'
  /-- Others push for a wake. -/
  | wake {m fl own} (w : Waker) (hw : w.Fits m.site.executor) :
      Seen β σ ω h ⟨m, fl, own⟩ ⟨some (.wake w), [.woke w], m.site.executor.tasks⟩
        ⟨m.onSignals (·.pushFor w), w :: fl, own⟩
  /-- Others change the world, in a way that does not depend on what tasks cannot tell. -/
  | change {m fl own} (f : W → W) (hf : ∀ w w', ω w w' → ω (f w) (f w')) :
      Seen β σ ω h ⟨m, fl, own⟩ ⟨some (.change f), [], m.site.executor.tasks⟩
        ⟨{ m with site := { m.site with world := f m.site.world } }, fl, own⟩
  /-- Between the runs, a task is spawned. -/
  | spawn {m n site id fl} (b : B) (hc : m.calls = []) (hs : m.site.spawn β b = (id, n, site)) :
      Seen β σ ω h ⟨m, fl, none⟩ ⟨some (.spawn b), n, m.site.executor.tasks⟩
        ⟨{ m with site }, fl, none⟩
  /-- A run to completion begins. -/
  | blockOn {m m' n fl} (b : B) (hc : m.calls = [])
      (he : Machine.enter β m.site [] b = (n, m')) :
      Seen β σ ω h ⟨m, fl, none⟩ ⟨some (.blockOn b), n, m.site.executor.tasks⟩ ⟨m', fl, none⟩

/-- **A step that is not seen**, after the notes `h`. -/
inductive Unseen (β : Behaviour W B V) (σ : Surroundings W B V) (h : List (Note V)) :
    Ensemble W B V → Ensemble W B V → Prop
  /-- The loop goes round. -/
  | round {s n s'} (hi : s.Rounds σ h) (hn : s.next? β σ = some (n, s')) : Unseen β σ h s s'
  /-- Others notify the thread for a wake. -/
  | notified {m fl own w} (hw : w ∈ fl) :
      Unseen β σ h ⟨m, fl, own⟩ ⟨m.onSignals (·.unparkFor w), fl.erase w, own⟩
  /-- Others make queues and parkers, and use those that are not the executor's. -/
  | elsewhere {m fl own signals}
      (hs : m.site.signals.Spares signals m.site.executor.queue m.site.executor.parker) :
      Unseen β σ h ⟨m, fl, own⟩ ⟨m.onSignals fun _ ↦ signals, fl, own⟩
  /-- Between the runs, the thread sleeps for a limited time. -/
  | slept {m fl} (hc : m.calls = []) :
      Unseen β σ h ⟨m, fl, none⟩
        ⟨m.onSignals fun s ↦ (s.parkFor m.site.executor.parker).2, fl, none⟩

/-- A task has come to its end: its id has been given out, and it is neither in the table nor being
polled. It has been resolved or has failed, perhaps without ever entering the table. -/
def Spent (h : List (Note V)) (m : Machine W B V) (id : TaskId) : Prop :=
  .issued id ∈ h ∧ ¬ m.Tabled id ∧ ∀ inPlace, (id, inPlace) ∉ m.polled

/-- **Noise**, after the notes `h`. A park that returns for no reason is a notification just before
it; the notification for a wake comes at any later time, as for all wakes. -/
inductive Noise (h : List (Note V)) : Ensemble W B V → Ensemble W B V → Prop
  /-- Somebody notifies a thread for no reason. -/
  | unpark {m fl own} (r : ParkerRef) : Noise h ⟨m, fl, own⟩ ⟨m.onSignals (·.unpark r), fl, own⟩
  /-- Somebody pushes for a wake of a task of another executor, or of one that has come to its end.
  -/
  | wake {m fl own} (w : Waker) (hw : w.Fits m.site.executor)
      (hs : w.queue = some m.site.executor.queue → Spent h m w.id) :
      Noise h ⟨m, fl, own⟩ ⟨m.onSignals (·.pushFor w), w :: fl, own⟩

/-- **Any number of steps, with or without noise**, from the sights `t₀` on, and all that has been
seen at the end. -/
inductive Observed (β : Behaviour W B V) (σ : Surroundings W B V) (ω : Setoid W) (noisy : Prop)
    (t₀ : List (Sight W B V)) (s₀ : Ensemble W B V) :
    List (Sight W B V) → Ensemble W B V → Prop
  /-- No step. -/
  | refl : Observed β σ ω noisy t₀ s₀ t₀ s₀
  /-- One more step that is seen. -/
  | seen {t s a s'} (hr : Observed β σ ω noisy t₀ s₀ t s) (hs : Seen β σ ω (notes t) s a s') :
      Observed β σ ω noisy t₀ s₀ (t ++ [a]) s'
  /-- One more step that is not seen. -/
  | unseen {t s s'} (hr : Observed β σ ω noisy t₀ s₀ t s) (hs : Unseen β σ (notes t) s s') :
      Observed β σ ω noisy t₀ s₀ t s'
  /-- Noise. -/
  | noise {t s s'} (hn : noisy) (hr : Observed β σ ω noisy t₀ s₀ t s)
      (hs : Noise (notes t) s s') : Observed β σ ω noisy t₀ s₀ t s'

/-! ### What going round does -/

end Ensemble

namespace Signals

variable {u u' : Signals} {q : QueueRef} {id : TaskId}

theorem pop?_eq_none_iff : u.pop? q = none ↔ (u.queue q).ids = [] := by
  rw [pop?, Option.map_eq_none_iff, ReadyQueue.pop?]
  split <;> simp_all

theorem exists_pop? {ids : List TaskId} (h : (u.queue q).ids = id :: ids) :
    ∃ u', u.pop? q = some (id, u') := by
  rw [pop?, ReadyQueue.pop?, h]
  exact ⟨_, rfl⟩

theorem Queue.ids_of_pop? (hq : u.Queue q) (hp : u.pop? q = some (id, u')) :
    (u.queue q).ids = id :: (u'.queue q).ids := by
  obtain ⟨r, hr, rfl⟩ := pop?_eq_some hp
  rw [queue_setQueue _ _ _ _ hq.lt, if_pos rfl]
  exact ReadyQueue.ids_of_pop? hr

/-- Notified, and parking at once, is sleeping for no time. -/
theorem park?_unpark {p : ParkerRef} (h : p.index < u.parkers.length) :
    (u.unpark p).park? p = some (u.parkFor p).2 := by
  rw [park?, unpark, parker_setParker _ h, if_pos rfl]
  simp [Parker.park?, Parker.unpark, parkFor, Parker.parkFor, setParker]

end Signals

namespace Ensemble

/-- **The loop has gone round** by one step: some call is elsewhere in the loop, parkings and stale
ids have been counted, and ids of tasks that have come to their ends may have been popped. -/
inductive Rounded (σ : Surroundings W B V) (ω : Setoid W) (h : List (Note V)) :
    Ensemble W B V → List (Note V) → Ensemble W B V → Prop
  | mk {x : Executor B} {u u' : Signals} {w w' : W} {c : Call W B V} {rest : List (Call W B V)}
      {o : Option (Except Failure (Option V))} {fl : List Waker} {n : List (Note V)}
      {d : Doing W B V} {k l : Nat} (hd : c.doing.Looping σ x.tasks)
      (hd' : d.Looping σ x.tasks)
      (hq : u.Queue x.queue → u'.Queue x.queue ∧
        unspent h (u'.queue x.queue).ids = unspent h (u.queue x.queue).ids) (hw : ω w w')
      (hn : ∀ m ∈ n, m.subject? = none ∧ ∀ v, m ≠ .woke v) :
      Rounded σ ω h ⟨⟨⟨x, u, w⟩, c :: rest, o⟩, fl, none⟩ n
        ⟨⟨⟨{ x with parks := k, stale := l }, u', w'⟩, { c with doing := d } :: rest, none⟩, fl,
          none⟩

variable {β : Behaviour W B V} {σ : Surroundings W B V} {ω : Setoid W} {s s' : Ensemble W B V}
  {h n : List (Note V)}

theorem unspent_cons_of_ended {id : TaskId} {ids : List TaskId}
    (hid : (phase id h).ended = true) : unspent h (id :: ids) = unspent h ids := by
  simp [unspent, hid]

/-- Nothing but position and counters has changed. -/
theorem Rounded.of_same {x : Executor B} {u : Signals} {w w' : W} {c : Call W B V}
    {rest : List (Call W B V)} {o : Option (Except Failure (Option V))} {fl : List Waker}
    {d : Doing W B V} {k l : Nat} (hd : c.doing.Looping σ x.tasks)
    (hd' : d.Looping σ x.tasks) (hw : ω w w')
    (hn : ∀ m ∈ n, m.subject? = none ∧ ∀ v, m ≠ .woke v) :
    Rounded σ ω h ⟨⟨⟨x, u, w⟩, c :: rest, o⟩, fl, none⟩ n
      ⟨⟨⟨{ x with parks := k, stale := l }, u, w'⟩, { c with doing := d } :: rest, none⟩, fl,
        none⟩ :=
  .mk hd hd' (fun hq ↦ ⟨hq, rfl⟩) hw hn

/-- **What the loop does when it goes round.** -/
theorem Rounds.rounded (hi : s.Rounds σ h) (hσ : σ.Discreet β ω)
    (ht : ∀ id, (phase id h).ended = true → ¬ s.machine.Tabled id)
    (hn : s.next? β σ = some (n, s')) : Rounded σ ω h s n s' := by
  obtain ⟨⟨⟨x, u, w⟩, calls, o⟩, fl, own⟩ := s
  obtain ⟨rfl, ⟨id, held, slot, doing⟩, rest, rfl, hd, hpop⟩ := hi
  have hlooping := hd
  have hparked : ∀ k ∈ [(.parked : Note V)], k.subject? = none ∧ ∀ v, k ≠ .woke v := by
    simp [Note.subject?]
  cases hd with
  | pop =>
    have hskips := hpop rfl
    simp only [next?, Machine.step?, Machine.stepPop, Option.map_some, Option.some.injEq] at hn
    cases hp : u.pop? x.queue with
    | none =>
      rw [skips_of_nil (Signals.pop?_eq_none_iff.1 hp)] at hskips
      simp only [hp] at hn
      obtain ⟨rfl, rfl⟩ := Prod.mk.inj hn
      exact .of_same (k := x.parks) (l := x.stale) .pop (.check hskips) (ω.refl w) (by simp)
    | some r =>
      obtain ⟨i, u'⟩ := r
      -- The popped id is that of a task that has come to its end.
      have hi : (phase i h).ended = true := by
        obtain ⟨r, hr, -⟩ := Signals.pop?_eq_some hp
        rwa [skips_of_cons (ReadyQueue.ids_of_pop? hr)] at hskips
      have hget : x.tasks.get? i = none := Machine.get?_of_not_tabled (ht i hi)
      simp only [hp, hget] at hn
      obtain ⟨rfl, rfl⟩ := Prod.mk.inj hn
      refine .mk (k := x.parks) (d := .pop) .pop .pop (fun hq ↦ ⟨hq.pop hp, ?_⟩) (ω.refl w) ?_
      · rw [hq.ids_of_pop? hp, unspent_cons_of_ended hi]
      · simp [Note.subject?]
  | check hx =>
    have hx' : x.tasks.isEmpty = false := hx
    simp only [next?, Machine.step?, Machine.stepCheck, hx', Bool.false_eq_true, if_false,
      Option.map_some, Option.some.injEq] at hn
    split at hn
    · split at hn
      · obtain ⟨rfl, rfl⟩ := Prod.mk.inj hn
        exact .of_same (k := x.parks) (l := x.stale) hlooping (.announce _ hx) (ω.refl w)
          (by simp)
      · obtain ⟨rfl, rfl⟩ := Prod.mk.inj hn
        exact .of_same (l := x.stale) hlooping (.asleep hx) (ω.refl w) hparked
    · obtain ⟨rfl, rfl⟩ := Prod.mk.inj hn
      exact .of_same (k := x.parks) (l := x.stale) hlooping .pop (ω.refl w) (by simp)
  | announce k hx =>
    obtain ⟨w', hw, hrun⟩ := hσ.announce k ⟨x, u, w⟩
    simp only [next?, Machine.step?, Machine.stepAct, hrun, Option.map_some] at hn
    obtain ⟨rfl, rfl⟩ := Prod.mk.inj (Option.some.inj hn)
    exact .of_same (l := x.stale) hlooping (.asleep hx) hw hparked
  | asleep hx =>
    obtain ⟨w', hw, hrun⟩ := hσ.asleep ⟨x, u, w⟩
    simp only [next?, Machine.step?, Machine.stepAct, hrun, Option.map_some] at hn
    obtain ⟨rfl, rfl⟩ := Prod.mk.inj (Option.some.inj hn)
    exact .of_same (k := x.parks) (l := x.stale) hlooping (.park hx) hw (by simp)
  | park hx =>
    simp only [next?, Machine.step?, Option.map_map, Option.map_eq_some_iff] at hn
    obtain ⟨u', hp, he⟩ := hn
    obtain ⟨rfl, rfl⟩ := Prod.mk.inj he
    obtain ⟨p, -, rfl⟩ := Option.map_eq_some_iff.1 hp
    exact .mk (k := x.parks) (l := x.stale) hlooping .pop
      (fun hq ↦ ⟨⟨hq.lt, hq.synced⟩, rfl⟩) (ω.refl w) (by simp)

/-! ### An observed run is a run -/

/-- What is told about the lives of tasks. -/
def lives (h : List (Note V)) : List (Note V) := h.filter fun k ↦ k.subject?.isSome

@[simp] theorem lives_append (h n : List (Note V)) : lives (h ++ n) = lives h ++ lives n :=
  List.filter_append ..

theorem lives_of_silent (hn : ∀ k ∈ n, k.subject? = none) : lives n = [] :=
  List.filter_eq_nil_iff.2 fun k hk ↦ by simp [hn k hk]

/-- A phase depends on what is told about lives alone. -/
theorem phase_lives (id : TaskId) (h : List (Note V)) : phase id (lives h) = phase id h := by
  have hafter (s : Phase V) : s.after id (lives h) = s.after id h := by
    induction h generalizing s with
    | nil => rfl
    | cons k h ih =>
      rw [lives, List.filter_cons]
      split
      · exact ih _
      · next hk =>
        have hne : k.subject? ≠ some id := fun he ↦ hk (by rw [he]; rfl)
        rw [Phase.after, if_neg hne]
        exact ih s
  exact hafter .unborn

theorem issuedIds_lives (h : List (Note V)) : issuedIds (lives h) = issuedIds h := by
  rw [issuedIds, lives, List.filterMap_filter]
  exact List.filterMap_congr fun k _ ↦ by cases k <;> rfl

theorem phase_of_lives {h' : List (Note V)} (he : lives h = lives h') (id : TaskId) :
    phase id h = phase id h' := by
  rw [← phase_lives, he, phase_lives]

variable {noisy : Prop} {site : Site W B} {t : List (Sight W B V)} {a : Sight W B V}

/-- A step that is seen is a run. -/
theorem Seen.run (hs : Seen β σ ω h s a s') : Run β σ (fun _ ↦ True) s a.notes s' := by
  cases hs with
  | own _ _ hn => exact run_of_next? hn
  | wake w => exact .single (.otherPush w) trivial
  | change f => exact .single (.world _) trivial
  | spawn b hc hs => exact .single (.spawn b hc hs) trivial
  | blockOn b hc he => exact .single (.blockOn b hc he) trivial

/-- Nobody wakes through an odd waker. -/
theorem Seen.fits {w : Waker} (hs : Seen β σ ω h s a s') (hw : .woke w ∈ a.notes) :
    w.Fits s.machine.site.executor := by
  cases hs with
  | own _ _ _ hfit => exact hfit w hw
  | wake v hv =>
    obtain rfl : w = v := by simpa using hw
    exact hv
  | change => cases hw
  | spawn b hc hs =>
    obtain ⟨-, ds, _, _, rfl, hds, -⟩ := Site.spawn_spec hs
    have hwds : .woke w ∈ ds := by simpa using hw
    cases hds _ hwds
  | blockOn b hc he =>
    obtain ⟨rfl, rfl⟩ := Prod.mk.inj he
    simp at hw

/-- A step that is not seen is a run, too, and tells nothing about the lives of tasks. -/
theorem Unseen.run (hs : Unseen β σ h s s') (hσ : σ.Discreet β ω)
    (ht : ∀ id, (phase id h).ended = true → ¬ s.machine.Tabled id) :
    ∃ n, Run β σ (fun _ ↦ True) s n s' ∧ ∀ k ∈ n, k.subject? = none ∧ ∀ w, k ≠ .woke w := by
  cases hs with
  | @round s n s' hi hn =>
    refine ⟨n, run_of_next? hn, ?_⟩
    obtain ⟨-, -, -, -, hnotes⟩ := hi.rounded hσ ht hn
    exact hnotes
  | notified hw => exact ⟨[], .single (.otherNotify hw) trivial, nofun⟩
  | elsewhere hs => exact ⟨[], .single (.elsewhere hs) trivial, nofun⟩
  | slept hc => exact ⟨[], .single (.sleep hc) trivial, nofun⟩

/-- Noise is a run, too, and tells nothing about the lives of tasks. -/
theorem Noise.run (hs : Noise h s s') :
    ∃ n, Run β σ (fun _ ↦ True) s n s' ∧
      ∀ k ∈ n, k.subject? = none ∧ ∀ w, k = .woke w → w.Fits s.machine.site.executor := by
  cases hs with
  | unpark r => exact ⟨[], .single (.stray r) trivial, nofun⟩
  | wake w hw =>
    refine ⟨_, .single (.otherPush w) trivial, fun k hk ↦ ?_⟩
    obtain rfl := List.mem_singleton.1 hk
    exact ⟨rfl, fun v hv ↦ Note.woke.inj hv ▸ hw⟩

/-- **What an observed run keeps**, for the notes that have been seen. -/
structure Kept (site : Site W B) (h : List (Note V)) (s : Ensemble W B V) : Prop where
  /-- Ready queue and parker are those of the beginning. -/
  refs : s.machine.site.executor.refs = site.executor.refs
  /-- The ready queue is in order. -/
  queue : s.machine.site.signals.Queue s.machine.site.executor.queue
  /-- Phases and places agree. -/
  books : Books s.machine.Tabled s.machine.polled h
  /-- The thread is watchful. -/
  watchful : s.Watchful

/-- What runs of the ensemble keep. -/
theorem Kept.of_run {h' : List (Note V)} (hσ : σ.Quiet) (hs : site.Fresh)
    (hr : Run β σ (fun _ ↦ True) (.start site) h' s) (he : lives h' = lives h)
    (hf : ∀ w, .woke w ∈ h' → w.Fits site.executor)
    (hlen : (issuedIds h).length ≤ UInt64.size) : Kept site h s where
  refs := hr.refs
  queue := (hr.law (Signals.Law.fresh hs)).queue
  books := by
    have hphase := phase_of_lives he
    have hb := hr.books hs (by rwa [← issuedIds_lives h', he, issuedIds_lives])
    exact ⟨fun id ↦ by rw [← hphase, hb.waiting], fun id ip ↦ by rw [← hphase, hb.polling],
      hb.nodup, fun id ↦ by rw [← hphase]; exact hb.sound id⟩
  watchful := hr.watchful hs hσ hf

/-- **An observed run is a run**, whose history tells the same about the lives of tasks as the notes
that have been seen. -/
theorem Observed.history (hσ : σ.Discreet β ω) (hs : site.Fresh)
    (hr : Observed β σ ω noisy [] (.start site) t s)
    (hlen : (issuedIds (notes t)).length ≤ UInt64.size) :
    ∃ h, Run β σ (fun _ ↦ True) (.start site) h s ∧ lives h = lives (notes t) ∧
      ∀ w, .woke w ∈ h → w.Fits site.executor := by
  induction hr with
  | refl => exact ⟨[], .refl, rfl, nofun⟩
  | @seen t s a s' hr hstep ih =>
    rw [notes_append] at hlen
    obtain ⟨h, hrun, hlives, hf⟩ := ih (length_issuedIds_le hlen)
    refine ⟨h ++ a.notes, hrun.trans hstep.run, by simp [hlives], fun w hw ↦ ?_⟩
    rcases List.mem_append.1 hw with hw | hw
    · exact hf w hw
    · exact (hstep.fits hw).of_refs hrun.refs.symm
  | @unseen t s s' hr hstep ih =>
    obtain ⟨h, hrun, hlives, hf⟩ := ih hlen
    have hkept := Kept.of_run hσ.quiet hs hrun hlives hf hlen
    obtain ⟨n, hn, hnotes⟩ := hstep.run hσ fun _ ↦ hkept.books.not_tabled_of_ended
    refine ⟨h ++ n, hrun.trans hn, ?_, fun w hw ↦ ?_⟩
    · rw [lives_append, lives_of_silent fun k hk ↦ (hnotes k hk).1, List.append_nil, hlives]
    · rcases List.mem_append.1 hw with hw | hw
      · exact hf w hw
      · exact absurd rfl ((hnotes _ hw).2 w)
  | @noise t s s' _ hr hstep ih =>
    obtain ⟨h, hrun, hlives, hf⟩ := ih hlen
    obtain ⟨n, hn, hnotes⟩ := hstep.run (β := β) (σ := σ)
    refine ⟨h ++ n, hrun.trans hn, ?_, fun w hw ↦ ?_⟩
    · rw [lives_append, lives_of_silent fun k hk ↦ (hnotes k hk).1, List.append_nil, hlives]
    · rcases List.mem_append.1 hw with hw | hw
      · exact hf w hw
      · exact ((hnotes _ hw).2 w rfl).of_refs hrun.refs.symm

/-- **What an observed run keeps.** -/
theorem Observed.kept (hσ : σ.Discreet β ω) (hs : site.Fresh)
    (hr : Observed β σ ω noisy [] (.start site) t s)
    (hlen : (issuedIds (notes t)).length ≤ UInt64.size) :
    Kept site (notes t) s := by
  obtain ⟨h, hrun, hlives, hf⟩ := hr.history hσ hs hlen
  exact .of_run hσ.quiet hs hrun hlives hf hlen

end Ensemble

end TaskRuntime
