import TaskRuntime.Proofs.Exchange
import TaskRuntime.Task.Behaviour

/-!
# What is shown on the stage

Tasks show things on the stage for those who look at it after the run. During the run nobody reads
them: neither the tasks (`Task.respects_behaviour`) nor what happens around the loop
(`World.respects_surroundings`). So worlds that differ in nothing else cannot be told apart.

## Tasks and their chains

The continuations of tasks make no request of the executor: those that do anything besides giving a
value do no more than to show something. So every task may be exchanged for the chain of it with a
continuation that does not fail (`Task.sound_exchange_future`), whatever its destruction does. That
of a read takes its registration back and closes its descriptor.

The destruction of a script does no more than to show it. So nobody else can tell a script from its
chain (`Script.unseen_exchange`).
-/

namespace TaskRuntime

variable {W B V R S : Type}

/-! ### Programs that heed less than their worlds -/

/-- **A program does not heed** in which of the worlds it runs that cannot be told apart. -/
def Act.Heedless (ω : Setoid W) (p : Act W B V R) : Prop := p.Like (.plain ω) Eq p

namespace Act.Heedless

variable {ω : Setoid W} {p : Act W B V R} {f : R → Act W B V S}

theorem done (r : R) : (Act.done r : Act W B V R).Heedless ω := Act.Like.done rfl

theorem bind (hp : p.Heedless ω) (hf : ∀ r, (f r).Heedless ω) : (p.bind f).Heedless ω :=
  Act.Like.bind hp fun r _ hr ↦ hr ▸ hf r

theorem change {c : W → W} (hc : ∀ w w', ω w w' → ω (c w) (c w')) :
    (Act.change c : Act W B V Unit).Heedless ω :=
  .look fun w w' hw ↦ .put (hc w w' hw) (.done rfl)

theorem wake (x : Waker) (hp : p.Heedless ω) : (Act.wake x p).Heedless ω := by
  have h := Act.Like.wake (w := x) hp
  rwa [Likeness.plain_waker] at h

theorem spawn (b : B) {k : Except Failure TaskId → Act W B V R} (hk : ∀ r, (k r).Heedless ω) :
    (Act.spawn b k).Heedless ω :=
  Act.Like.spawn rfl (fun _ ↦ hk _) fun _ ↦ hk _

end Act.Heedless

/-! ### The stage -/

section Stage

variable {K : Type}

/-- Worlds that differ in nothing but in what has been shown. -/
def World.unshown (K : Type) : Setoid (World K) where
  r w w' := ∃ h, w' = { w with stage := { w.stage with trace := h } }
  iseqv := by
    refine ⟨fun w ↦ ⟨w.stage.trace, rfl⟩, ?_, ?_⟩
    · rintro w _ ⟨h, rfl⟩
      exact ⟨w.stage.trace, rfl⟩
    · rintro w _ _ ⟨h, rfl⟩ ⟨h', rfl⟩
      exact ⟨h', rfl⟩

/-- What is shown, nobody has to heed. -/
theorem Action.heedless_show (x : Shown) :
    (Action.show x : TaskAct K Unit).Heedless (World.unshown K) :=
  .change fun w _ ⟨h, hw⟩ ↦ ⟨h ++ [x], by rw [hw]; rfl⟩

/-- Something is shown at the end. -/
theorem Action.heedless_showing (x : Shown) (r : R) :
    ((Action.show x : TaskAct K Unit).bind fun _ ↦ .done r).Heedless (World.unshown K) :=
  (Action.heedless_show x).bind fun _ ↦ .done r

theorem Action.heedless_run (u : Waker) (a : Action) :
    (a.run u : TaskAct K (Except Failure Unit)).Heedless (World.unshown K) := by
  cases a with
  | log text => exact heedless_showing _ _
  | wake => exact .wake u (.done _)
  | save slot =>
    refine (Act.Heedless.change ?_).bind fun _ ↦ .done _
    rintro w _ ⟨h, rfl⟩
    exact ⟨h, rfl⟩
  | fire slot =>
    refine .look ?_
    rintro w _ ⟨h, rfl⟩
    dsimp only
    split
    · exact Act.Heedless.done _
    · exact Act.Heedless.wake _ (.done _)
  | clear slot =>
    refine (Act.Heedless.change ?_).bind fun _ ↦ .done _
    rintro w _ ⟨h, rfl⟩
    exact ⟨h, rfl⟩
  | unpark => exact .unpark (.done rfl)
  | willWake slot =>
    refine .look ?_
    rintro w _ ⟨h, rfl⟩
    exact heedless_showing _ _
  | spawn t =>
    refine .spawn t ?_
    rintro (e | id)
    · exact .done _
    · exact heedless_showing _ _
  | blockOn t =>
    refine .blockOn rfl ?_
    rintro (e | v)
    · exact .done rfl
    · exact heedless_showing _ _
  | figures => exact .figures fun x ↦ heedless_showing _ _

theorem Action.heedless_runAll (u : Waker) (actions : List Action) :
    (runAll u actions : TaskAct K (Except Failure Unit)).Heedless (World.unshown K) := by
  induction actions with
  | nil => exact .done _
  | cons a rest ih =>
    refine (a.heedless_run u).bind ?_
    rintro (e | _)
    · exact .done _
    · exact ih

theorem Script.heedless_poll (s : Script) (u : Waker) :
    (s.poll u : TaskAct K (Polled Value × Script)).Heedless (World.unshown K) := by
  refine (Action.heedless_show _).bind fun _ ↦ (Action.heedless_runAll u s.entry.actions).bind ?_
  rintro (e | _)
  · exact .done _
  · dsimp only
    split <;> exact .done _

/-- A continuation that does not fail gives a value, and does no more than to show something. -/
theorem Continuation.discreet_run {k : Continuation} (hk : ∀ e, k ≠ .throw e) (v : Value)
    (w : World K) : (k.run v : TaskAct K (Except Failure Value)).Discreet (World.unshown K)
      (fun r ↦ ∃ u, r = .ok u) w := by
  have hshow (x : Shown) :
      ((Action.show x : TaskAct K Unit).bind fun _ ↦ .done (.ok .unit)).Discreet
        (World.unshown K) (fun r : Except Failure Value ↦ ∃ u, r = .ok u) w :=
    .change (fun u ↦ ⟨_, rfl⟩) fun _ ↦ .done ⟨_, rfl⟩
  cases k with
  | throw e => exact absurd rfl (hk e)
  | sink => exact hshow _
  | mark => exact hshow _
  | record name => exact hshow _
  | _ => exact .done ⟨_, rfl⟩

theorem Continuation.heedless_run (k : Continuation) (v : Value) :
    (k.run v : TaskAct K (Except Failure Value)).Heedless (World.unshown K) := by
  cases k with
  | sink => exact Action.heedless_showing _ _
  | mark => exact Action.heedless_showing _ _
  | record name => exact Action.heedless_showing _ _
  | _ => exact .done _

theorem Demo.heedless_spawnAll (fetches : List Fetch) :
    (spawnAll fetches : TaskAct K (Except Failure Unit)).Heedless (World.unshown K) := by
  induction fetches with
  | nil => exact .done _
  | cons f rest ih =>
    refine .spawn _ ?_
    rintro (e | _)
    · exact .done _
    · exact ih

namespace Task

theorem heedless_pollFanOut (m : Demo.FanOut) :
    (pollFanOut m : TaskAct K (Polled Value × Task)).Heedless (World.unshown K) := by
  unfold pollFanOut
  split
  · exact .done _
  · refine (Act.Heedless.change ?_).bind fun _ ↦ (Demo.heedless_spawnAll m.fetches).bind ?_
    · rintro w _ ⟨h, rfl⟩
      exact ⟨h, rfl⟩
    · rintro (e | _) <;> exact .done _

/-- A leaf is polled in its environment, and what has been shown is not part of it. -/
theorem heedless_leafPoll {S : Type} (poll : Environment K → Polled Value × S × Environment K)
    (wrap : S → Task) :
    (leafPoll poll wrap : TaskAct K (Polled Value × Task)).Heedless (World.unshown K) := by
  refine .look ?_
  rintro w _ ⟨h, rfl⟩
  exact .put ⟨h, rfl⟩ (.done rfl)

variable [Kernel K]

theorem unshown_drop (t : Task) {w w' : World K} (hw : World.unshown K w w') :
    World.unshown K (t.drop w) (t.drop w') := by
  obtain ⟨h, rfl⟩ := hw
  match t with
  | chain first k => exact unshown_drop first ⟨h, rfl⟩
  | script s => exact ⟨_, rfl⟩
  | guarded s b => exact ⟨_, rfl⟩
  | read f => exact ⟨h, rfl⟩
  | get g => exact ⟨h, rfl⟩
  | fetch f => exact ⟨h, rfl⟩
  | ready v => exact ⟨h, rfl⟩
  | consumed => exact ⟨h, rfl⟩
  | fanOut m => exact ⟨h, rfl⟩

theorem heedless_poll (t : Task) (u : Waker) :
    (t.poll u : TaskAct K (Polled Value × Task)).Heedless (World.unshown K) := by
  match t with
  | ready (some v) => exact .done _
  | ready none => exact .done _
  | script s => exact (s.heedless_poll u).bind fun _ ↦ .done _
  | guarded s true => exact .done _
  | guarded s false =>
    exact ((s.heedless_poll u).bind fun _ ↦ .done _).bind fun _ ↦ .done _
  | chain first k =>
    refine ((heedless_poll first u).bind ?_).bind ?_
    · rintro ⟨e | _ | v, first⟩
      · exact .done _
      · exact .done _
      · exact (k.heedless_run v).bind fun r ↦
          (Act.Heedless.change fun _ _ ↦ unshown_drop first).bind fun _ ↦ .done _
    · rintro ⟨r, _ | first⟩ <;> exact .done _
  | consumed => exact .done _
  | read f => exact heedless_leafPoll _ _
  | get g => exact heedless_leafPoll _ _
  | fetch f => exact heedless_leafPoll _ _
  | fanOut m => exact heedless_pollFanOut m

/-- **No task heeds what has been shown.** -/
theorem respects_behaviour : (behaviour (K := K)).Respects (.plain (World.unshown K)) where
  poll t _ u ht := by
    obtain rfl := ht
    rw [Likeness.plain_waker]
    exact Act.Like.mono (heedless_poll t u) fun _ _ hr ↦ Likeness.ends_plain.2 hr
  drop t _ w w' ht hw := by
    obtain rfl := ht
    exact unshown_drop t hw

end Task

/-- **Nor does what happens around the loop.** -/
theorem World.respects_surroundings :
    (surroundings (K := K)).Respects (.plain (World.unshown K)) where
  finished := by
    rintro w _ ⟨h, rfl⟩
    exact ⟨h, rfl⟩
  announce n := by
    refine .look ?_
    rintro w _ ⟨h, rfl⟩
    refine .put ⟨h, rfl⟩ ?_
    dsimp only
    split
    · exact .done rfl
    · refine .look ?_
      rintro ⟨e, trace, slots, parks, _⟩ _ ⟨h, rfl⟩
      cases parks with
      | nil => exact .done rfl
      | cons actions parks =>
        refine .put ⟨h, rfl⟩ (Act.Heedless.bind (Action.heedless_runAll _ actions) ?_)
        rintro (e | _)
        · exact .done _
        · exact Act.Like.unpark (.done rfl)
  asleep := by
    refine .look ?_
    rintro ⟨e, trace, slots, parks, quiet, _⟩ _ ⟨h, rfl⟩
    cases quiet with
    | false => exact .done rfl
    | true =>
      cases parks with
      | nil => exact .done rfl
      | cons actions parks =>
        exact .put ⟨h, rfl⟩ (Act.Heedless.bind (Action.heedless_runAll _ actions) fun _ ↦ .done _)

/-! ### Tasks and their chains -/

namespace Task

variable [Kernel K] {S : Type}

/-- A future that tasks hold, and the chain of it with a continuation, as a task with the given id.
-/
def exchange (f : Future (World K) Task Value S Value) (wrap : S → Task) (id : TaskId)
    (k : Continuation) : Exchange (World K) Task Value S where
  id := id
  future := f
  next := k.run
  plain := wrap
  chained
    | some s => .chain (wrap s) k
    | none => .consumed

/-- A chain of a task is the chain of the future that the task holds. -/
theorem hosts_chained {f : Future (World K) Task Value S Value} {wrap : S → Task}
    (hf : behaviour.Hosts f wrap) (id : TaskId) (k : Continuation) :
    behaviour.Hosts ((exchange f wrap id k).future.andThen (exchange f wrap id k).next)
      (exchange f wrap id k).chained where
  poll
    | none, _ => rfl
    | some s, u => by
      have hpoll : (wrap s).poll u = (f.poll s u).bind fun r ↦ .done (r.1, wrap r.2) := hf.poll s u
      have hdrop (s : S) : (wrap s).drop = f.drop s := hf.drop s
      show (Future.chainPoll ((wrap s).poll u) _ _).bind _ =
        (Future.chainPoll (f.poll s u) _ _).bind _
      rw [hpoll]
      simp only [Future.chainPoll, Act.bind_assoc]
      refine congrArg (f.poll s u).bind (funext ?_)
      rintro ⟨e | _ | v, s⟩
      · rfl
      · rfl
      · simp only [Act.bind, Future.chainRest, Act.bind_assoc, hdrop]
        rfl
  drop
    | none => rfl
    | some s => hf.drop s

/-- A future that tasks hold may be exchanged for its chain with a continuation that does not fail.
-/
theorem sound_exchange {f : Future (World K) Task Value S Value} {wrap : S → Task}
    (hf : behaviour.Hosts f wrap) (id : TaskId) {k : Continuation} (hk : ∀ e, k ≠ .throw e) :
    (exchange f wrap id k).Sound behaviour where
  plain := hf
  chained := hosts_chained hf id k
  next v w := (Continuation.discreet_run hk v w).of_le le_top

/-- Tasks as futures. -/
def future : Future (World K) Task Value Task Value := ⟨poll, drop⟩

/-- Every task holds itself. -/
theorem hosts_future : (behaviour (K := K)).Hosts future fun t ↦ t where
  poll t u := ((t.poll u).bind_done).symm
  drop _ := rfl

/-- **Any task may be exchanged for its chain** with a continuation that does not fail. -/
theorem sound_exchange_future (id : TaskId) {k : Continuation} (hk : ∀ e, k ≠ .throw e) :
    (exchange (K := K) future (fun t ↦ t) id k).Sound behaviour :=
  sound_exchange hosts_future id hk

end Task

/-! ### Scripts and their chains -/

namespace Script

variable [Kernel K]

/-- Scripts as futures. -/
def future : Future (World K) Task Value Script Value where
  poll s u := s.poll u
  drop s w := w.record (.drop s.name)

/-- Scripts are tasks. -/
theorem hosts_future : (Task.behaviour (K := K)).Hosts future .script :=
  ⟨fun _ _ ↦ rfl, fun _ ↦ rfl⟩

/-- **A script may be exchanged for its chain** with a continuation that does not fail. -/
theorem sound_exchange_future (id : TaskId) {k : Continuation} (hk : ∀ e, k ≠ .throw e) :
    (Task.exchange (K := K) future .script id k).Sound Task.behaviour :=
  Task.sound_exchange hosts_future id hk

/-- **Nobody else can tell a script from its chain** with a continuation that does not fail. -/
theorem unseen_exchange (id : TaskId) {k : Continuation} (hk : ∀ e, k ≠ .throw e) :
    (Task.exchange (K := K) future .script id k).Unseen (fun _ ↦ True) (World.unshown K)
      Task.behaviour World.surroundings where
  poll _ _ := Exchange.like_among_bot (fun _ ↦ rfl) _
  next v w := (Continuation.discreet_run hk v w).mono fun _ _ ↦ trivial
  drop _ _ _ _ _ _ := ⟨_, rfl⟩
  behaviour := by
    rw [Likeness.among_true]
    exact Task.respects_behaviour
  surroundings := by
    rw [Likeness.among_true]
    exact World.respects_surroundings

end Script

end Stage

end TaskRuntime
