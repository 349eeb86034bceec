import TaskRuntime.Proofs.HostEdges
import TaskRuntime.Proofs.Scene
import TaskRuntime.Proofs.Trees

/-!
# No waker is left behind

An executor whose tasks are trees of futures, the loop of the reactor, and others take turns in any
order: a grove (`Grove.Step`). Whatever the system makes of the calls of the futures, and whether or
not the loop of the reactor fails on the way, each waker that is stored belongs to the future of a
task that is in the table or being polled (`Grove.Run.no_leak`). A future whose task is over has no
waker stored, be it that the task has resulted in a value, that its poll has failed, or that it has
been destroyed with the executor.

* Polls are made one atomic step after the other, as in a `Scene`, but here of all tasks: when the
  executor begins to poll a task, its leaf is polled step by step, and when that has come to an end,
  the task does what comes after it (`Future.Tree.resume`).
* Nobody else stores wakers. This is said of each step apart from those of the leaves.
* A future whose poll has failed is not polled again: the executor destroys the task at once, and
  this takes back what the future owes.
* Who answers for a token is a task (`Grove.Charge`). Each step leaves every waker that is stored
  with someone who answers for it (`Grove.Step.sound`).
-/

namespace TaskRuntime

/-- A body that is found in a table is one of its values. -/
theorem Table.mem_values_of_get? {K A : Type} [DecidableEq K] {t : Table K A} {k : K} {v : A}
    (h : t.get? k = some v) : v ∈ t.values :=
  List.mem_map.2 ⟨(k, v), Table.mem_entries_of_get? h, rfl⟩

/-! ### Steps that end a poll or destroy a body -/

namespace Machine

variable {W B V : Type} {β : Behaviour W B V} {σ : Surroundings W B V} {m m' : Machine W B V}
  {n : List (Note V)} {es : List (Deed B)} {id : TaskId} {r : Polled V} {b b' : B} {w w' : Waker}

/-- The world after bodies have been destroyed, one after the other. -/
def destroyed (β : Behaviour W B V) (bs : List B) (w : W) : W := bs.foldl (fun w b ↦ β.drop b w) w

/-- A call that ends destroys what it holds. -/
theorem world_of_leave {site : Site W B} {c : Call W B V} {rest : List (Call W B V)}
    {result : Except Failure (Option V)} (h : leave β site c rest result = (n, m')) :
    ∃ bs, m'.site.world = destroyed β bs site.world := by
  obtain ⟨rfl, rfl⟩ := Prod.mk.inj h
  obtain ⟨i, held, slot, doing⟩ := c
  cases held with
  | none => cases rest <;> exact ⟨[], rfl⟩
  | some b => cases rest <;> exact ⟨[b], rfl⟩

/-- What the executor makes of a body that a poll has left: a pending one goes into the table or is
destroyed, and so is that of a poll that has failed. -/
def Disposed (β : Behaviour W B V) (m : Machine W B V) (id : TaskId) (r : Polled V) (b : B)
    (m' : Machine W B V) : Prop :=
  (r = .ok .pending ∧ m'.body? id = some b) ∨ (∃ v, r = .ok (.ready v)) ∨
    ∃ bs, m'.site.world = destroyed β (b :: bs) m.site.world

theorem Turn.of_atEnd (hm : Turn β σ m n m') (he : m.AtEnd id r b) : m.Disposed β id r b m' := by
  obtain ⟨c, rest, inPlace, hcalls, hi, hp⟩ := he
  obtain ⟨site, calls, o⟩ := m
  obtain rfl : calls = c :: rest := hcalls
  have hdoing := Call.doing_of_polls hi hp
  have helse {q : Prop} (hd : c.polls? = none) : q := by
    rw [hd] at hi
    cases hi
  have hfirst {q : Act W B V (Polled V × B)} (hd : c.doing = .first q) :
      q = .done (r, b) ∧ c.id = id := by
    obtain ⟨hx, hd'⟩ | ⟨i, -, hd'⟩ := hdoing
    · exact ⟨Doing.first.inj (hd.symm.trans hd'), (Prod.mk.inj hx).1.symm⟩
    · cases hd'.symm.trans hd
  have hpoll {i : TaskId} {q : Act W B V (Polled V × B)} (hd : c.doing = .poll i q) :
      q = .done (r, b) ∧ i = id := by
    obtain ⟨-, hd'⟩ | ⟨j, hx, hd'⟩ := hdoing
    · cases hd'.symm.trans hd
    · obtain ⟨rfl, rfl⟩ := Doing.poll.inj (hd.symm.trans hd')
      exact ⟨rfl, (Prod.mk.inj hx).1.symm⟩
  cases hm with
  | entered hwait _ =>
    obtain ⟨R, wrap, k, hw, hd⟩ := hwait c rfl
    cases hw with
    | first => cases (hfirst hd).1
    | poll => cases (hpoll hd).1
    | announce => exact helse (by rw [Call.polls?, hd])
    | asleep => exact helse (by rw [Call.polls?, hd])
  | shifted hd =>
    exact helse (hd.polls?_eq _ _ _).1
  | firstFailed hd h =>
    obtain ⟨hr, rfl⟩ := hfirst hd
    obtain ⟨rfl, rfl⟩ := Prod.mk.inj (Act.done.inj hr)
    obtain ⟨bs, hw⟩ := world_of_leave h
    exact .inr (.inr ⟨bs, hw⟩)
  | firstPended hd h =>
    obtain ⟨hr, rfl⟩ := hfirst hd
    obtain ⟨rfl, rfl⟩ := Prod.mk.inj (Act.done.inj hr)
    by_cases ht : site.executor.tasks.contains c.id = true
    · refine .inr (.inr ⟨[], ?_⟩)
      rw [Site.enqueue, Site.insert, if_pos ht] at h
      obtain ⟨-, rfl⟩ := Prod.mk.inj h
      rfl
    · exact .inl ⟨rfl, (Site.get?_of_enqueue h).2 ht⟩
  | firstReturned hd =>
    obtain ⟨rfl, rfl⟩ := Prod.mk.inj (Act.done.inj (hfirst hd).1)
    exact .inr (.inl ⟨_, rfl⟩)
  | firstResolved hd =>
    obtain ⟨rfl, rfl⟩ := Prod.mk.inj (Act.done.inj (hfirst hd).1)
    exact .inr (.inl ⟨_, rfl⟩)
  | stale hd =>
    exact helse (by rw [Call.polls?, hd])
  | began hd =>
    exact helse (by rw [Call.polls?, hd])
  | pollFailed hd h =>
    obtain ⟨hr, rfl⟩ := hpoll hd
    obtain ⟨rfl, rfl⟩ := Prod.mk.inj (Act.done.inj hr)
    obtain ⟨bs, hw⟩ := world_of_leave h
    exact .inr (.inr ⟨bs, hw⟩)
  | @pollPended _ _ _ _ _ i _ _ hd h =>
    obtain ⟨hr, rfl⟩ := hpoll hd
    obtain ⟨rfl, rfl⟩ := Prod.mk.inj (Act.done.inj hr)
    by_cases ht : site.executor.tasks.contains i = true
    · refine .inr (.inr ⟨[], ?_⟩)
      rw [Site.insert, if_pos ht] at h
      obtain ⟨-, rfl⟩ := Prod.mk.inj h
      rfl
    · exact .inl ⟨rfl, (Site.get?_of_insert h).2 ht⟩
  | pollResolved hd =>
    obtain ⟨rfl, rfl⟩ := Prod.mk.inj (Act.done.inj (hpoll hd).1)
    exact .inr (.inl ⟨_, rfl⟩)
  | finished hd =>
    exact helse (by rw [Call.polls?, hd])
  | announceFailed hd =>
    exact helse (by rw [Call.polls?, hd])

/-- **A poll that has come to its end** stays there while others act, and then the executor disposes
of the body. -/
theorem Move.of_atEnd (hm : Move β σ m n m') (he : m.AtEnd id r b) :
    m'.AtEnd id r b ∨ m.Disposed β id r b m' := by
  have hstay {calls : List (Call W B V)} (ha : Call.Advance m.calls calls)
      (hc : m'.calls = calls) : m'.AtEnd id r b := by
    obtain ⟨c, rest, inPlace, hcalls, hi, hp⟩ := he
    rw [hcalls] at ha
    obtain rfl | ⟨p', hl, -⟩ := ha.of_polls hi hp
    · exact ⟨c, rest, inPlace, hc, hi, hp⟩
    · exact hl.elim
  cases hm with
  | quiet _ _ ha => exact .inl (hstay ha rfl)
  | woke _ ha => exact .inl (hstay ha rfl)
  | spawned _ ha => exact .inl (hstay ha rfl)
  | turned h => exact .inr (h.of_atEnd he)

/-- The loop begins to poll a task only when it is handed the body. -/
theorem Tells.body_of_began (ht : Tells β m n m' es) (hm : Move β σ m n m')
    (hb : m.body? id = some b) (hn : .began id false ∈ n) :
    ∃ w, .polled id b w ∈ es := by
  obtain ⟨b', c, rest, hb', -⟩ := hm.of_began hn
  obtain rfl := Option.some.inj (hb.symm.trans hb')
  cases ht with
  | nothing _ hno => exact absurd hn (hno id false)
  | spawned h =>
    obtain ⟨-, ds, -, -, rfl, hds, -⟩ := Site.spawn_spec h
    simp only [List.mem_cons, reduceCtorEq, false_or] at hn
    cases hds _ hn
  | entered h =>
    obtain ⟨rfl, -⟩ := Prod.mk.inj h
    simp at hn
  | began hb' =>
    obtain rfl : id = _ := by simpa using hn
    obtain rfl := Option.some.inj (hb.symm.trans hb')
    exact ⟨_, List.mem_singleton_self _⟩

/-- At most one poll begins. -/
theorem Tells.eq_of_polled {id' : TaskId} (ht : Tells β m n m' es) (hd : .polled id b w ∈ es)
    (hd' : .polled id' b' w' ∈ es) : id = id' ∧ b = b' := by
  cases ht with
  | nothing => cases hd
  | spawned => simp at hd
  | entered h =>
    obtain ⟨rfl, rfl, -⟩ : id = _ ∧ b = _ ∧ w = _ := by simpa using hd
    obtain ⟨rfl, rfl, -⟩ : id' = _ ∧ b' = _ ∧ w' = _ := by simpa using hd'
    exact ⟨rfl, rfl⟩
  | began =>
    obtain ⟨rfl, rfl, -⟩ : id = _ ∧ b = _ ∧ w = _ := by simpa using hd
    obtain ⟨rfl, rfl, -⟩ : id' = _ ∧ b' = _ ∧ w' = _ := by simpa using hd'
    exact ⟨rfl, rfl⟩

end Machine

/-! ### Groves -/

/-- **An executor whose tasks are trees**, the loop of the reactor, and what has happened so far. -/
structure Grove (K B V : Type) where
  /-- The executor, and all that its tasks can reach. -/
  ensemble : Ensemble (World K) B V
  /-- Where the loop of the reactor is. -/
  watch : Reactor.Watch := .testing
  /-- The leaf that is being polled: the task, its body, and how far the poll is. -/
  poll : Option (TaskId × B × ReadToEnd.Reading) := none
  /-- What is left of futures that have been moved. -/
  left : List ReadToEnd := []
  /-- Whether the executor has been destroyed. -/
  gone : Bool := false
  /-- What has happened. -/
  history : List (Note V) := []
  /-- What has been done with bodies. -/
  deeds : List (Deed B) := []

namespace Grove

variable {K B V : Type}

/-- The machine of the executor. -/
def machine (x : Grove K B V) : Machine (World K) B V := x.ensemble.machine

/-- System, configuration and reactor. -/
def environment (x : Grove K B V) : Environment K := x.machine.site.world.toEnvironment

/-- What the loop of the reactor works on. -/
def scope (x : Grove K B V) : Reactor.Scope K := ⟨x.environment, x.machine.site.signals, x.watch⟩

/-- The loop of the reactor, or a poll, has changed what it works on. -/
def withScope (x : Grove K B V) (s : Reactor.Scope K) : Grove K B V :=
  { x with
    ensemble :=
      { x.ensemble with
        machine := { x.machine with
          site := { x.machine.site with
            signals := s.signals
            world := { x.machine.site.world with toEnvironment := s.environment } } } }
    watch := s.watch }

/-- The environment has changed. -/
def withEnvironment (x : Grove K B V) (e : Environment K) : Grove K B V :=
  x.withScope { x.scope with environment := e }

/-- The calls have changed. -/
def withCalls (x : Grove K B V) (calls : List (Call (World K) B V)) : Grove K B V :=
  { x with ensemble := { x.ensemble with machine := { x.machine with calls } } }

/-- The executor is destroyed with its tasks. -/
def dispose (x : Grove K B V) (β : Behaviour (World K) B V) : Grove K B V :=
  { x with
    ensemble :=
      { x.ensemble with
        machine := { x.machine with
          site := { x.machine.site with
            executor := { x.machine.site.executor with tasks := .empty }
            world := Machine.destroyed β x.machine.site.executor.tasks.values
              x.machine.site.world } } }
    gone := true }

variable [Kernel K] {β : Behaviour (World K) B V} {σ : Surroundings (World K) B V}
  {T : Future.Tree β.future}

/-- A body that has just been made: nobody has polled its leaf. -/
def NewBody (T : Future.Tree β.future) (b : B) : Prop := ∃ f o, T.leaf b = some (f, o) ∧ f.New

/-- **One atomic step.** -/
inductive Step (T : Future.Tree β.future) (σ : Surroundings (World K) B V) (x : Grove K B V) :
    Grove K B V → Prop
  /-- The executor makes a step in which no poll begins, and stores no waker. -/
  | acted {n s es} (hp : x.poll = none) (hg : x.gone = false)
      (hs : Ensemble.Step β σ x.ensemble n s) (ht : Machine.Tells β x.machine n s.machine es)
      (hd : ∀ id b w, .polled id b w ∉ es) (hn : ∀ id b, .created id b ∈ es → NewBody T b)
      (he : x.environment.StoresNone s.machine.site.world.toEnvironment) :
      Step T σ x { x with ensemble := s, history := x.history ++ n, deeds := x.deeds ++ es }
  /-- The executor begins to poll a task. -/
  | began {n s es id b w f o} (hp : x.poll = none) (hg : x.gone = false)
      (hs : Ensemble.Step β σ x.ensemble n s) (ht : Machine.Tells β x.machine n s.machine es)
      (hd : .polled id b w ∈ es) (hn : ∀ id b, .created id b ∈ es → NewBody T b)
      (he : x.environment.StoresNone s.machine.site.world.toEnvironment)
      (hl : T.leaf b = some (f, o)) :
      Step T σ x
        { x with
          ensemble := s, poll := some (id, b, f.begin), history := x.history ++ n
          deeds := x.deeds ++ es }
  /-- The poll of a leaf makes a step. -/
  | ticked {id b p f o} (hp : x.poll = some (id, b, p)) (hl : T.leaf b = some (f, o)) :
      Step T σ x
        { x.withEnvironment
            (p.tick o (x.machine.site.executor.waker id) x.environment).2 with
          poll := some (id, b, (p.tick o (x.machine.site.executor.waker id) x.environment).1) }
  /-- The poll of a leaf has ended, and the task goes on with its result. -/
  | finished {id b f r c rest} (hp : x.poll = some (id, b, ⟨f, .complete r⟩))
      (hc : x.machine.calls = c :: rest) :
      Step T σ x { x.withCalls (c.proceed (T.resume b r f) :: rest) with poll := none }
  /-- Others do something, at any time, but store no waker. -/
  | others {n s} (hs : Ensemble.Step β σ x.ensemble n s)
      (hx : s.machine.site.executor = x.machine.site.executor)
      (hc : s.machine.calls = x.machine.calls)
      (he : x.environment.StoresNone s.machine.site.world.toEnvironment) :
      Step T σ x { x with ensemble := s, history := x.history ++ n }
  /-- The loop of the reactor makes a step. -/
  | looped : Step T σ x
      { x.withScope x.scope.tick with history := x.history ++ x.scope.rouses }
  /-- The future of a task is moved: the task has it in its new place, where it is the same as
  before, and something is left of it in the old one. -/
  | moved {id b f o} (hb : x.machine.body? id = some b) (hl : T.leaf b = some (f, o)) :
      Step T σ x { x with left := f.move.2 :: x.left }
  /-- What is left of a future that has been moved is destroyed. -/
  | dropped {f before after} (hf : x.left = before ++ f :: after) :
      Step T σ x { x.withEnvironment (f.drop x.environment) with left := before ++ after }
  /-- The executor is destroyed. -/
  | disposed (hp : x.poll = none) (hc : x.machine.calls = []) : Step T σ x (x.dispose β)

/-- **Any number of steps.** -/
inductive Run (T : Future.Tree β.future) (σ : Surroundings (World K) B V) (x₀ : Grove K B V) :
    Grove K B V → Prop
  /-- No step. -/
  | refl : Run T σ x₀ x₀
  /-- One more step. -/
  | step {x x' : Grove K B V} (hr : Run T σ x₀ x) (hm : Step T σ x x') : Run T σ x₀ x'

/-- An executor that has just been made, with a reactor that nobody has used. -/
structure Fresh (x : Grove K B V) : Prop where
  /-- The executor has just been made. -/
  site : x.machine.site.Fresh
  /-- Nothing runs on it. -/
  calls : x.machine.calls = []
  /-- No waker is stored. -/
  stored : ∀ t, ¬ x.environment.Stored t
  /-- No leaf is being polled. -/
  poll : x.poll = none
  /-- Nothing is left of futures. -/
  left : x.left = []
  /-- The executor has not been destroyed. -/
  gone : x.gone = false
  /-- Nothing has happened. -/
  history : x.history = []
  /-- Nothing has been done. -/
  deeds : x.deeds = []

/-! ### Who answers for a token -/

/-- A task has been created with a future under a token. -/
def Rooted (T : Future.Tree β.future) (ds : List (Deed B)) (id : TaskId) (t : Token) : Prop :=
  ∃ b f o, .created id b ∈ ds ∧ T.leaf b = some (f, o) ∧ f.token = t

/-- A body may be polled, and its future is the one with which its task has been created. -/
def Fit (T : Future.Tree β.future) (ds : List (Deed B)) (id : TaskId) (b : B) : Prop :=
  ∃ f o, T.leaf b = some (f, o) ∧ f.Poised ∧ Rooted T ds id f.token

/-- **What a poll leaves behind**: something that may be polled again if it is pending, and nothing
that owes anything if it has resulted in a value. -/
structure Outcome (T : Future.Tree β.future) (ds : List (Deed B)) (id : TaskId)
    (r : Polled V × B) : Prop where
  /-- A pending body may be polled again. -/
  pending : r.1 = .ok .pending → Fit T ds id r.2
  /-- What owes something has not resulted in a value, and is the future of the task. -/
  owed : ∀ {f o t}, T.leaf r.2 = some (f, o) → f.Owes t →
    (∀ v, r.1 ≠ .ok (.ready v)) ∧ f.started = true ∧ Rooted T ds id t

/-- **A task answers for a token**: its future owes what is stored under it. -/
inductive Charge (T : Future.Tree β.future) (x : Grove K B V) (id : TaskId) (t : Token) : Prop
  /-- The task is in the table. -/
  | tabled {b f o} (hb : x.machine.body? id = some b) (hl : T.leaf b = some (f, o))
      (ho : f.Owes t)
  /-- Its future is being polled. -/
  | polled {b p} (hp : x.poll = some (id, b, p)) (ho : p.Owes t)
  /-- The poll has come to its end, and the executor has yet to dispose of the body. -/
  | ended {r b f o} (hp : x.poll = none) (he : x.machine.AtEnd id r b)
      (hl : T.leaf b = some (f, o)) (ho : f.Owes t)

/-- The calls whose programs go on: all but the one whose leaf is being polled. -/
def waiting (x : Grove K B V) : List (Call (World K) B V) :=
  match x.poll with
  | none => x.machine.calls
  | some _ => x.machine.calls.tail

/-- What is known of the poll of a leaf. -/
structure Polling (T : Future.Tree β.future) (x : Grove K B V) (id : TaskId) (b : B)
    (p : ReadToEnd.Reading) : Prop where
  /-- The active call makes the poll. -/
  active : ∃ c rest inPlace, x.machine.calls = c :: rest ∧ c.polls? = some (id, inPlace)
  /-- The future is that of the body. -/
  leaf : ∃ f o, T.leaf b = some (f, o)
  /-- Its flags are those of the moment. -/
  flags : ReadToEnd.Flags p.future p.moment
  /-- It is the one with which the task has been created. -/
  rooted : Rooted T x.deeds id p.future.token

/-- **What is always true.** -/
structure Sound (T : Future.Tree β.future) (x : Grove K B V) : Prop where
  /-- Bodies in the table may be polled. -/
  tabled : ∀ id b, x.machine.body? id = some b → Fit T x.deeds id b
  /-- What polls leave behind is in order. -/
  waiting : Call.AllEnd (Outcome T x.deeds) x.waiting
  /-- The leaf that is being polled is in order. -/
  poll : ∀ id b p, x.poll = some (id, b, p) → Polling T x id b p
  /-- Somebody answers for each waker that is stored. -/
  stored : ∀ t, x.environment.Stored t → ∃ id, Charge T x id t
  /-- Nothing that is left of futures owes anything. -/
  left : ∀ f ∈ x.left, ∀ t, ¬ f.Owes t

section

variable {x x' x₀ : Grove K B V} {ds es : List (Deed B)} {id id' : TaskId} {t : Token} {b : B}
  {r : Polled V × B} {n : List (Note V)} {bs : List B} {w : World K}

/-! ### What is known stays known -/

theorem Rooted.append (h : Rooted T ds id t) (es : List (Deed B)) : Rooted T (ds ++ es) id t := by
  obtain ⟨b, f, o, hb, hl, ht⟩ := h
  exact ⟨b, f, o, List.mem_append_left _ hb, hl, ht⟩

theorem Fit.append (h : Fit T ds id b) (es : List (Deed B)) : Fit T (ds ++ es) id b := by
  obtain ⟨f, o, hl, hf, hr⟩ := h
  exact ⟨f, o, hl, hf, hr.append es⟩

theorem Outcome.append (h : Outcome T ds id r) (es : List (Deed B)) :
    Outcome T (ds ++ es) id r where
  pending hr := (h.pending hr).append es
  owed hl ho := (h.owed hl ho).imp_right (And.imp_right (·.append es))

/-- A body that has just been made is fit. -/
theorem NewBody.fit (h : NewBody T b) (hd : .created id b ∈ ds) : Fit T ds id b := by
  obtain ⟨f, o, hl, hf⟩ := h
  exact ⟨f, o, hl, .inl hf, b, f, o, hd, hl, rfl⟩

/-- **Bodies that are destroyed** leave nothing that they owe. -/
theorem stored_destroyed (T : Future.Tree β.future)
    (hs : (Machine.destroyed β bs w).toEnvironment.Stored t) :
    w.toEnvironment.Stored t ∧ ∀ b ∈ bs, ∀ f o, T.leaf b = some (f, o) → ¬ f.Owes t := by
  induction bs generalizing w with
  | nil => exact ⟨hs, nofun⟩
  | cons b bs ih =>
    obtain ⟨hb, hbs⟩ := ih hs
    rcases hl : T.leaf b with _ | ⟨f, o⟩
    · refine ⟨T.bare hl w t hb, fun c hc g o hg ↦ ?_⟩
      rcases List.mem_cons.1 hc with rfl | hc
      · rw [hl] at hg
        cases hg
      · exact hbs c hc g o hg
    · have hdrop : (β.drop b w).toEnvironment.Stored t := hb
      rw [show β.drop b w = _ from T.drop hl w] at hdrop
      obtain ⟨hw, hno⟩ := ReadToEnd.stored_drop hdrop
      refine ⟨hw, fun c hc g o hg ↦ ?_⟩
      rcases List.mem_cons.1 hc with rfl | hc
      · obtain rfl := (Prod.mk.inj (Option.some.inj (hl.symm.trans hg))).1
        exact hno
      · exact hbs c hc g o hg

/-- Who answers for a token is the task that has been created with it. -/
theorem Charge.rooted (hc : Charge T x id t) (hx : Sound T x) : Rooted T x.deeds id t := by
  cases hc with
  | tabled hb hl ho =>
    obtain ⟨f, o, hl', -, hr⟩ := hx.tabled _ _ hb
    obtain rfl := (Prod.mk.inj (Option.some.inj (hl.symm.trans hl'))).1
    exact ho.2 ▸ hr
  | polled hp ho => exact ho.1 ▸ (hx.poll _ _ _ hp).rooted
  | ended hp he hl ho =>
    have hw := hx.waiting
    rw [waiting, hp] at hw
    exact ((he.of_allEnd hw).owed hl ho).2.2

/-- Nothing happens to tasks and polls, and no waker is stored. -/
theorem Sound.still (hx : Sound T x) (he : x'.machine.site.executor = x.machine.site.executor)
    (hc : x'.machine.calls = x.machine.calls) (hp : x'.poll = x.poll) (hd : x'.deeds = x.deeds)
    (hs : x.environment.StoresNone x'.environment) (hl : ∀ f ∈ x'.left, ∀ t, ¬ f.Owes t) :
    Sound T x' where
  tabled id b hb := by
    rw [hd]
    refine hx.tabled id b ?_
    rwa [Machine.body?, he] at hb
  waiting := by
    have hw := hx.waiting
    rwa [Grove.waiting, hp, hc, hd]
  poll id b p h := by
    rw [hp] at h
    obtain ⟨hactive, hleaf, hflags, hrooted⟩ := hx.poll id b p h
    exact ⟨hc ▸ hactive, hleaf, hflags, hd ▸ hrooted⟩
  stored t ht := by
    obtain ⟨id, hcharge⟩ := hx.stored t (hs t ht)
    refine ⟨id, ?_⟩
    cases hcharge with
    | tabled hb hl ho => exact .tabled (by rwa [Machine.body?, he]) hl ho
    | polled h ho => exact .polled (hp.trans h) ho
    | ended h hend hl ho => exact .ended (hp.trans h) (by rwa [Machine.AtEnd, hc]) hl ho
  left := hl

/-! ### Steps of the executor -/

/-- A waker that is still stored after a step of the executor: the task that has answered for its
token is in the table, or about to be polled, or its poll has come to its end. -/
theorem Charge.move {m' : Machine (World K) B V} (hc : Charge T x id t) (hx : Sound T x)
    (hp : x.poll = none) (hm : Machine.Move β σ x.machine n m')
    (ht : Machine.Tells β x.machine n m' es) (hs : m'.site.world.toEnvironment.Stored t) :
    ∃ b f o, T.leaf b = some (f, o) ∧ f.Owes t ∧
      (m'.body? id = some b ∨ (∃ w, .polled id b w ∈ es) ∨ ∃ r, m'.AtEnd id r b) := by
  cases hc with
  | @tabled b f o hb hl ho =>
    refine ⟨b, f, o, hl, ho, ?_⟩
    by_cases hn : .began id false ∈ n
    · exact .inr (.inl (ht.body_of_began hm hb hn))
    · exact .inl (hm.body hb hn)
  | polled h =>
    rw [hp] at h
    cases h
  | @ended r b f o _ he hl ho =>
    refine ⟨b, f, o, hl, ho, ?_⟩
    rcases hm.of_atEnd he with he | ⟨-, hb⟩ | ⟨v, rfl⟩ | ⟨bs, hw⟩
    · exact .inr (.inr ⟨r, he⟩)
    · exact .inl hb
    · -- What has resulted in a value owes nothing.
      have hwait := hx.waiting
      rw [waiting, hp] at hwait
      exact absurd rfl (((he.of_allEnd hwait).owed hl ho).1 v)
    · rw [hw] at hs
      exact absurd ho ((stored_destroyed T hs).2 b List.mem_cons_self f o hl)

/-- Bodies in the table may be polled after a step of the executor. -/
theorem Sound.fit {m' : Machine (World K) B V} (hx : Sound T x) (hp : x.poll = none)
    (hm : Machine.Move β σ x.machine n m') (ht : Machine.Tells β x.machine n m' es)
    (hn : ∀ id b, .created id b ∈ es → NewBody T b) (hb : m'.body? id = some b) :
    Fit T (x.deeds ++ es) id b := by
  have hwait := hx.waiting
  rw [Grove.waiting, hp] at hwait
  rcases hm.source ht hb with hb | hb | he
  · exact (hx.tabled id b hb).append es
  · exact (hn id b hb).fit (List.mem_append_right _ hb)
  · exact ((he.of_allEnd hwait).pending rfl).append es

/-- A body that is handed to a poll may be polled. -/
theorem Sound.handed {m' : Machine (World K) B V} {u : Waker} (hx : Sound T x)
    (ht : Machine.Tells β x.machine n m' es) (hn : ∀ id b, .created id b ∈ es → NewBody T b)
    (hd : .polled id b u ∈ es) : Fit T (x.deeds ++ es) id b :=
  (ht.handed hd).elim (fun hb ↦ (hx.tabled id b hb).append es)
    fun hb ↦ (hn id b hb).fit (List.mem_append_right _ hb)

/-! ### All steps -/

/-- **What a task leaves behind** when its leaf has been polled. -/
theorem ends_resume {f f₀ : ReadToEnd} {o : ReadToEnd.Opening K} {q : Polled Bytes}
    (hl : T.leaf b = some (f₀, o)) (hf : ReadToEnd.Flags f (.complete q))
    (hr : Rooted T ds id f.token) : (T.resume b q f).Ends (Outcome T ds id) := by
  rcases q with x | _ | v
  · obtain ⟨b', hdone, hl'⟩ := T.failed hl x f
    rw [hdone]
    refine ⟨nofun, fun hg ho ↦ ⟨nofun, ?_⟩⟩
    obtain ⟨rfl, rfl⟩ := Prod.mk.inj (Option.some.inj (hl'.symm.trans hg))
    exact ⟨hf, ho.2 ▸ hr⟩
  · obtain ⟨b', hdone, hl'⟩ := T.pending hl f
    rw [hdone]
    refine ⟨fun _ ↦ ⟨f, o, hl', .inr hf, hr⟩, fun hg ho ↦ ⟨nofun, ?_⟩⟩
    obtain ⟨rfl, rfl⟩ := Prod.mk.inj (Option.some.inj (hl'.symm.trans hg))
    exact ⟨hf.started, ho.2 ▸ hr⟩
  · refine (T.ready hl v f).mono fun y hy ↦ ⟨fun h ↦ absurd h hy.1, fun hg ho ↦ ?_⟩
    -- The leaf has come to its end, and owes nothing.
    obtain rfl := hy.2 _ _ hg
    exact nomatch ho.1.symm.trans hf

/-- A leaf that owes something is left with its task at the end of the poll. -/
theorem resume_owes {f f₀ : ReadToEnd} {o : ReadToEnd.Opening K} {q : Polled Bytes}
    (hl : T.leaf b = some (f₀, o)) (hf : ReadToEnd.Flags f (.complete q)) (ho : f.Owes t) :
    ∃ r' b', T.resume b q f = .done (r', b') ∧ T.leaf b' = some (f, o) := by
  rcases q with x | _ | v
  · obtain ⟨b', hdone, hl'⟩ := T.failed hl x f
    exact ⟨_, b', hdone, hl'⟩
  · obtain ⟨b', hdone, hl'⟩ := T.pending hl f
    exact ⟨_, b', hdone, hl'⟩
  · exact nomatch ho.1.symm.trans hf

/-- **Every step keeps what is always true.** -/
theorem Step.sound (hm : Step T σ x x') (hx : Sound T x) : Sound T x' := by
  cases hm with
  | @acted n s es hp hg hs ht hd hn he =>
    have hwait := hx.waiting
    rw [Grove.waiting, hp] at hwait
    refine ⟨fun id b hb ↦ hx.fit hp hs.move ht hn hb, ?_, fun id b p h ↦ ?_, fun t hst ↦ ?_,
      hx.left⟩
    · rw [Grove.waiting, show (_ : Option (TaskId × B × ReadToEnd.Reading)) = none from hp]
      rcases hs.move.allEnd ht hwait with ⟨-, hc⟩ | ⟨id, b, c, rest, inPlace, hd', -⟩
      · exact hc.mono fun _ _ hr ↦ hr.append es
      · exact absurd hd' (hd _ _ _)
    · rw [show (_ : Option (TaskId × B × ReadToEnd.Reading)) = none from hp] at h
      cases h
    · obtain ⟨id, hcharge⟩ := hx.stored t (he t hst)
      obtain ⟨b, f, o, hl, ho, hb | ⟨w, hd'⟩ | ⟨r, hend⟩⟩ := hcharge.move hx hp hs.move ht hst
      · exact ⟨id, .tabled hb hl ho⟩
      · exact absurd hd' (hd _ _ _)
      · exact ⟨id, .ended hp hend hl ho⟩
  | @began n s es id b w f o hp hg hs ht hd hn he hl =>
    have hwait := hx.waiting
    rw [Grove.waiting, hp] at hwait
    -- The active call is the one that begins to poll.
    obtain ⟨hno, -⟩ | ⟨i, c, d, rest, inPlace, hd', hcalls, hi, hprog, hc⟩ :=
      hs.move.allEnd ht hwait
    · exact absurd hd (hno _ _ _)
    obtain ⟨rfl, rfl⟩ := ht.eq_of_polled hd hd'
    obtain ⟨f', o', hl', hf, hr⟩ := hx.handed ht hn hd
    obtain ⟨rfl, rfl⟩ := Prod.mk.inj (Option.some.inj (hl.symm.trans hl'))
    refine ⟨fun id b hb ↦ hx.fit hp hs.move ht hn hb, ?_, fun i c p h ↦ ?_, fun t hst ↦ ?_,
      hx.left⟩
    · show Call.AllEnd _ s.machine.calls.tail
      rw [hcalls]
      exact hc.mono fun _ _ hr ↦ hr.append es
    · obtain ⟨rfl, rfl, rfl⟩ : id = i ∧ b = c ∧ f.begin = p := by simpa using h
      exact ⟨⟨d, rest, inPlace, hcalls, hi⟩, ⟨f, o, hl⟩, hf.flags, hr⟩
    · obtain ⟨i, hcharge⟩ := hx.stored t (he t hst)
      obtain ⟨c, g, o', hl', ho, hb | ⟨w', hd'⟩ | ⟨r, hend⟩⟩ := hcharge.move hx hp hs.move ht hst
      · exact ⟨i, .tabled hb hl' ho⟩
      · obtain ⟨rfl, rfl⟩ := ht.eq_of_polled hd hd'
        obtain rfl := (Prod.mk.inj (Option.some.inj (hl.symm.trans hl'))).1
        exact ⟨id, .polled rfl ho.begin⟩
      · -- A poll that begins has not come to its end.
        obtain ⟨d', rest', inPlace', hcalls', hi', hprog'⟩ := hend
        obtain ⟨rfl, rfl⟩ := List.cons.inj (hcalls.symm.trans hcalls')
        rw [show β.poll b _ = _ from T.poll hl _] at hprog
        cases hprog.symm.trans hprog'
  | @ticked id b p f o hp hl =>
    obtain ⟨hactive, hleaf, hflags, hrooted⟩ := hx.poll id b p hp
    obtain ⟨g, m⟩ := p
    refine ⟨fun i c hb ↦ hx.tabled i c hb, ?_, fun i c q h ↦ ?_, fun t hst ↦ ?_, hx.left⟩
    · have hwait := hx.waiting
      rw [Grove.waiting, hp] at hwait
      exact hwait
    · obtain ⟨rfl, rfl, rfl⟩ := by simpa using h
      refine ⟨hactive, hleaf, ReadToEnd.Reading.flags_tick hflags, ?_⟩
      rw [ReadToEnd.Reading.token_tick]
      exact hrooted
    · rcases ReadToEnd.Reading.stored_tick hflags hst with ho | ⟨hst, hno⟩
      · exact ⟨id, .polled rfl ho⟩
      · obtain ⟨i, hcharge⟩ := hx.stored t hst
        cases hcharge with
        | tabled hb hl ho => exact ⟨i, .tabled hb hl ho⟩
        | polled h ho =>
          obtain ⟨-, -, rfl⟩ : id = i ∧ b = _ ∧ (⟨g, m⟩ : ReadToEnd.Reading) = _ := by
            simpa using hp.symm.trans h
          exact absurd ho hno
        | ended h =>
          rw [hp] at h
          cases h
  | @finished id b f r c rest hp hc =>
    obtain ⟨⟨d, rest', inPlace, hcalls, hi⟩, ⟨f₀, o, hl⟩, hflags, hrooted⟩ := hx.poll _ _ _ hp
    obtain ⟨rfl, rfl⟩ := List.cons.inj (hc.symm.trans hcalls)
    have hwait := hx.waiting
    rw [Grove.waiting, hp, hc] at hwait
    refine ⟨fun i c hb ↦ hx.tabled i c hb, ?_, nofun, fun t hst ↦ ?_, hx.left⟩
    · show Call.AllEnd _ (c.proceed (T.resume b r f) :: rest)
      refine Call.AllEnd.cons hwait fun y p hy hyp ↦ ?_
      obtain rfl := Option.some.inj (hy.symm.trans ((Call.polls?_proceed _ _).trans hi))
      obtain rfl := Option.some.inj (hyp.symm.trans (Call.program?_proceed hi))
      exact ends_resume hl hflags hrooted
    · obtain ⟨i, hcharge⟩ := hx.stored t hst
      cases hcharge with
      | tabled hb hl ho => exact ⟨i, .tabled hb hl ho⟩
      | polled h ho =>
        obtain ⟨rfl, rfl, rfl⟩ : id = i ∧ b = _ ∧ (⟨f, .complete r⟩ : ReadToEnd.Reading) = _ := by
          simpa using hp.symm.trans h
        obtain ⟨r', b', hdone, hl'⟩ := resume_owes hl hflags ho.of_complete
        have hprog : (c.proceed (T.resume b r f)).program? = some (.done (r', b')) := by
          rw [Call.program?_proceed hi]
          exact congrArg some hdone
        have hpolls := (Call.polls?_proceed c (T.resume b r f)).trans hi
        exact ⟨id, .ended rfl ⟨_, rest, inPlace, rfl, hpolls, hprog⟩ hl' ho.of_complete⟩
      | ended h =>
        rw [hp] at h
        cases h
  | others hs hxe hc he => exact hx.still hxe hc rfl rfl he hx.left
  | looped =>
    refine hx.still rfl rfl rfl rfl (fun t ht ↦ ?_) hx.left
    show x.environment.reactor.wakers.contains t = true
    rw [show x.environment.reactor.wakers = _ from (Reactor.Scope.reactor_tick x.scope).2.symm]
    exact ht
  | @moved id b f o hb hl =>
    refine hx.still rfl rfl rfl rfl (fun _ h ↦ h) fun g hg t ↦ ?_
    rcases List.mem_cons.1 hg with rfl | hg
    · exact (f.owes_move t).2
    · exact hx.left g hg t
  | @dropped f before after hf =>
    refine hx.still rfl rfl rfl rfl (fun t h ↦ (ReadToEnd.stored_drop h).1) fun g hg t ↦ ?_
    refine hx.left g ?_ t
    rw [hf]
    rcases List.mem_append.1 hg with hg | hg
    · exact List.mem_append_left _ hg
    · exact List.mem_append_right _ (List.mem_cons_of_mem _ hg)
  | disposed hp hc =>
    refine ⟨nofun, ?_, fun i c p h ↦ ?_, fun t hst ↦ ?_, hx.left⟩
    · have hwait := hx.waiting
      rw [Grove.waiting, hp] at hwait
      show Call.AllEnd _ (Grove.waiting (x.dispose β))
      rw [Grove.waiting, show (x.dispose β).poll = none from hp]
      exact hwait
    · rw [show (x.dispose β).poll = none from hp] at h
      cases h
    · obtain ⟨hst, hno⟩ := stored_destroyed T hst
      obtain ⟨i, hcharge⟩ := hx.stored t hst
      cases hcharge with
      | tabled hb hl ho => exact absurd ho (hno _ (Table.mem_values_of_get? hb) _ _ hl)
      | polled h =>
        rw [hp] at h
        cases h
      | ended _ he =>
        obtain ⟨c, rest, _, hcalls, -⟩ := he
        rw [hc] at hcalls
        cases hcalls

/-! ### All runs -/

/-- In the beginning nothing is stored. -/
theorem Fresh.sound (h : x.Fresh) (T : Future.Tree β.future) : Sound T x where
  tabled id b hb := by
    rw [Machine.body?, h.site.tasks] at hb
    cases hb
  waiting := by
    rw [waiting, h.poll]
    intro c hc
    rw [show x.machine.calls = [] from h.calls] at hc
    cases hc
  poll id b p hp := by
    rw [h.poll] at hp
    cases hp
  stored t ht := absurd ht (h.stored t)
  left f hf := by
    rw [h.left] at hf
    cases hf

theorem Run.sound (hr : Run T σ x₀ x) (h₀ : x₀.Fresh) : Sound T x := by
  induction hr with
  | refl => exact h₀.sound T
  | step _ hm ih => exact hm.sound ih

/-- **Every step keeps order**, until the executor is destroyed. -/
theorem Step.upkeep (hm : Step T σ x x') (hg : x'.gone = false) :
    x.gone = false ∧ ∃ n, x'.history = x.history ++ n ∧ x.machine.Upkeep n x'.machine := by
  have hstill (hx : x'.machine.site.executor = x.machine.site.executor)
      (hs : x'.machine.site.signals = x.machine.site.signals)
      (hp : x'.machine.polled = x.machine.polled) : x.machine.Upkeep [] x'.machine :=
    .of_still hx hp (.silent (by rw [hs]) (Nat.le_of_eq (by rw [hs])) nofun) nofun
  cases hm with
  | acted _ _ hs => exact ⟨hg, _, rfl, hs.move.upkeep⟩
  | began _ _ hs => exact ⟨hg, _, rfl, hs.move.upkeep⟩
  | others hs => exact ⟨hg, _, rfl, hs.move.upkeep⟩
  | looped =>
    exact ⟨hg, _, rfl, .of_still rfl rfl (x.scope.change_tick _)
      fun k ↦ Reactor.Scope.woke_of_rouses⟩
  | disposed => cases hg
  | @finished _ b f r c rest _ hc =>
    refine ⟨hg, [], (List.append_nil _).symm, hstill rfl rfl ?_⟩
    show List.filterMap Call.polls? (c.proceed (T.resume b r f) :: rest) = x.machine.polled
    rw [Machine.polled, hc, List.filterMap_cons, List.filterMap_cons, Call.polls?_proceed]
  | _ => exact ⟨hg, [], (List.append_nil _).symm, hstill rfl rfl rfl⟩

/-- **Order**, as long as the executor is there and not more than `UInt64.size` ids are given
out. -/
theorem Run.ordered (hr : Run T σ x₀ x) (h₀ : x₀.Fresh) (hg : x.gone = false)
    (hlen : (issuedIds x.history).length ≤ UInt64.size) : x.machine.Ordered x.history := by
  induction hr with
  | refl =>
    rw [h₀.history]
    refine ⟨.fresh h₀.site, ⟨rfl, h₀.site.nextId⟩, ?_⟩
    have hbooks := (Ensemble.Run.refl : Ensemble.Run β σ (fun _ ↦ True)
      (.start x₀.machine.site) [] _).books h₀.site (Nat.zero_le _)
    rw [Machine.polled, show x₀.machine.calls = [] from h₀.calls]
    exact hbooks
  | step _ hm ih =>
    obtain ⟨hg', n, hh, hk⟩ := hm.upkeep hg
    rw [hh] at hlen ⊢
    exact hk.ordered (ih hg' (length_issuedIds_le hlen)) hlen

/-! ### No waker is left behind -/

/-- The token of a future with which a task is created. -/
def token? (T : Future.Tree β.future) : Deed B → Option Token
  | .created _ b => (T.leaf b).map (·.1.token)
  | .polled _ _ _ => none

/-- **No two tasks have been created with the same token.** -/
def Distinct (T : Future.Tree β.future) (ds : List (Deed B)) : Prop :=
  (ds.filterMap (token? T)).Nodup

theorem Distinct.eq (hd : Distinct T ds) (h : Rooted T ds id t) (h' : Rooted T ds id' t) :
    id = id' := by
  obtain ⟨b, f, o, hb, hl, ht⟩ := h
  obtain ⟨b', f', o', hb', hl', ht'⟩ := h'
  have htoken : token? T (.created id b) = some t := by rw [token?, hl, ← ht]; rfl
  have htoken' : token? T (.created id' b') = some t := by rw [token?, hl', ← ht']; rfl
  exact (Deed.created.inj (eq_of_nodup_filterMap hd hb hb' htoken htoken')).1

/-- **No waker is left behind.** -/
structure NoneLeft (T : Future.Tree β.future) (x : Grove K B V) : Prop where
  /-- At any time, some task answers for each waker that is stored. -/
  answered : ∀ t, x.environment.Stored t → ∃ id, Charge T x id t
  /-- While no leaf is being polled, it is the future of a task in the table, which has been polled
  and has been left pending. -/
  tabled : x.poll = none → (∀ id r b, ¬ x.machine.AtEnd id r b) → ∀ t, x.environment.Stored t →
    ∃ id b f o, x.machine.body? id = some b ∧ T.leaf b = some (f, o) ∧ f.token = t ∧ f.Begun true
  /-- No two tasks answer for the same token. -/
  single : Distinct T x.deeds → ∀ {id id' t}, Charge T x id t → Charge T x id' t → id = id'
  /-- Nothing is stored for a task that has resulted in a value or failed. -/
  settled : Distinct T x.deeds → (issuedIds x.history).length ≤ UInt64.size →
    ∀ {id b f o inPlace r}, .created id b ∈ x.deeds → T.leaf b = some (f, o) →
      .ended id inPlace r ∈ x.history → r ≠ .ok .pending → ¬ x.environment.Stored f.token
  /-- Nothing is stored for a task whose leaf has resulted in a value, while what comes after the
  leaf is being done. -/
  resumed : Distinct T x.deeds → (issuedIds x.history).length ≤ UInt64.size → x.gone = false →
    ∀ {id b f o inPlace}, .created id b ∈ x.deeds → T.leaf b = some (f, o) →
      (id, inPlace) ∈ x.machine.polled → (∀ b p, x.poll ≠ some (id, b, p)) →
      (∀ r b, ¬ x.machine.AtEnd id r b) → ¬ x.environment.Stored f.token
  /-- Nothing is stored once the executor has been destroyed. -/
  gone : x.gone = true → ∀ t, ¬ x.environment.Stored t
  /-- What is left of a future that has been moved owes nothing. -/
  left : ∀ f ∈ x.left, ∀ t, ¬ f.Owes t

/-- Nothing is left of an executor that has been destroyed. -/
structure Emptied (x : Grove K B V) : Prop where
  /-- No task is in the table. -/
  tasks : x.machine.site.executor.tasks = .empty
  /-- Nothing runs on it. -/
  calls : x.machine.calls = []
  /-- No leaf is being polled. -/
  poll : x.poll = none

theorem Step.emptied (hm : Step T σ x x') (hx : x.gone = true → Emptied x)
    (hg : x'.gone = true) : Emptied x' := by
  have hnever {p : Prop} (hg' : x.gone = false) (h : x.gone = true) : p := by
    rw [hg'] at h
    cases h
  cases hm with
  | acted _ hg' => exact hnever hg' hg
  | began _ hg' => exact hnever hg' hg
  | ticked hp =>
    rw [(hx hg).poll] at hp
    cases hp
  | finished hp =>
    rw [(hx hg).poll] at hp
    cases hp
  | others _ he hc =>
    exact ⟨(congrArg _ he).trans (hx hg).tasks, hc.trans (hx hg).calls, (hx hg).poll⟩
  | disposed hp hc => exact ⟨rfl, hc, hp⟩
  | _ => exact ⟨(hx hg).tasks, (hx hg).calls, (hx hg).poll⟩

theorem Run.emptied (hr : Run T σ x₀ x) (h₀ : x₀.Fresh) (hg : x.gone = true) : Emptied x := by
  induction hr with
  | refl =>
    rw [h₀.gone] at hg
    cases hg
  | step _ hm ih => exact hm.emptied ih hg

theorem Emptied.not_charge (hx : Emptied x) : ¬ Charge T x id t := by
  rintro (⟨hb, -, -⟩ | ⟨hp, -⟩ | ⟨-, ⟨c, rest, inPlace, hc, -⟩, -, -⟩)
  · rw [Machine.body?, hx.tasks] at hb
    cases hb
  · rw [hx.poll] at hp
    cases hp
  · rw [hx.calls] at hc
    cases hc

/-- A task that answers for a token is in the table or being polled. -/
theorem Charge.place (hc : Charge T x id t) (hx : Sound T x) :
    x.machine.Tabled id ∨ ∃ inPlace, (id, inPlace) ∈ x.machine.polled := by
  have hactive {c : Call (World K) B V} {rest : List (Call (World K) B V)} {inPlace : Bool}
      (hcalls : x.machine.calls = c :: rest) (hi : c.polls? = some (id, inPlace)) :
      (id, inPlace) ∈ x.machine.polled := by
    rw [Machine.polled, hcalls, List.filterMap_cons_some hi]
    exact List.mem_cons_self
  cases hc with
  | tabled hb => exact .inl (Machine.tabled_of_body? hb)
  | polled hp =>
    obtain ⟨c, rest, inPlace, hcalls, hi⟩ := (hx.poll _ _ _ hp).active
    exact .inr ⟨inPlace, hactive hcalls hi⟩
  | ended _ he =>
    obtain ⟨c, rest, inPlace, hcalls, hi, -⟩ := he
    exact .inr ⟨inPlace, hactive hcalls hi⟩

/-- Who answers for the token with which a task has been created is that task. -/
theorem Sound.charge (hx : Sound T x) (hd : Distinct T x.deeds) {f : ReadToEnd}
    {o : ReadToEnd.Opening K} (hb : .created id b ∈ x.deeds) (hl : T.leaf b = some (f, o))
    (hs : x.environment.Stored f.token) : Charge T x id f.token := by
  obtain ⟨i, hc⟩ := hx.stored _ hs
  obtain rfl := hd.eq (hc.rooted hx) ⟨b, f, o, hb, hl, rfl⟩
  exact hc

/-- **No waker is left behind**, whatever the outcomes of the system calls, and whether or not the
reactor fails on the way. A future that is moved hands on what it owes, and what is left of it is
inert. A future that is destroyed takes back what it owes, and never fails at that. -/
theorem Run.no_waker_left (hr : Run T σ x₀ x) (h₀ : x₀.Fresh) :
    NoneLeft T x ∧
      (∀ (f : ReadToEnd) (opening : ReadToEnd.Opening K) (w : Waker) (e : Environment K),
        (∀ t, (f.move.1.Owes t ↔ f.Owes t) ∧ ¬ f.move.2.Owes t) ∧
          (∃ err, f.move.2.poll opening w e = (.error err, f.move.2, e)) ∧ f.move.2.drop e = e) ∧
      ∀ (f : ReadToEnd) (e : Environment K), f.destroy e = (.ok (), f.drop e) ∧
        ∀ t, (f.drop e).Stored t → e.Stored t ∧ ¬ f.Owes t := by
  have hx := hr.sound h₀
  have hgone (hg : x.gone = true) (t : Token) : ¬ x.environment.Stored t := fun hs ↦ by
    obtain ⟨id, hc⟩ := hx.stored t hs
    exact (hr.emptied h₀ hg).not_charge hc
  refine ⟨⟨hx.stored, fun hp he t hs ↦ ?_,
    fun hd _ _ _ hc hc' ↦ hd.eq (hc.rooted hx) (hc'.rooted hx),
    fun hd hlen id b f o inPlace r hb hl hh hne hs ↦ ?_,
    fun hd hlen hg id b f o inPlace hb hl hi hp he hs ↦ ?_, hgone, hx.left⟩,
    fun f opening w e ↦ ⟨f.owes_move, f.left_move opening w e⟩,
    fun f e ↦ ⟨f.destroy_eq e, fun t ↦ ReadToEnd.stored_drop⟩⟩
  · obtain ⟨id, hc⟩ := hx.stored t hs
    cases hc with
    | @tabled b f o hb hl ho =>
      obtain ⟨f', o', hl', hf, -⟩ := hx.tabled id b hb
      obtain rfl := (Prod.mk.inj (Option.some.inj (hl.symm.trans hl'))).1
      exact ⟨id, b, f, o, hb, hl, ho.2, hf.begun ho⟩
    | polled h =>
      rw [hp] at h
      cases h
    | ended _ hend => exact absurd hend (he _ _ _)
  · rcases hg : x.gone with _ | _
    · -- A task that is over is neither in the table nor being polled.
      obtain ⟨htabled, hpolled⟩ := (hr.ordered h₀ hg hlen).books.gone_of_settled hne hh
      rcases (hx.charge hd hb hl hs).place hx with ht | ⟨ip, hi⟩
      · exact htabled ht
      · exact hpolled ip hi
    · exact hgone hg _ hs
  · have hbooks := (hr.ordered h₀ hg hlen).books
    cases hx.charge hd hb hl hs with
    | tabled hb' => exact hbooks.not_tabled_of_polled hi (Machine.tabled_of_body? hb')
    | polled h => exact hp _ _ h
    | ended _ hend => exact he _ _ hend

end

/-! ### A task that reads a pipe -/

/-- An executor and a reactor that nobody has used, and a pipe that nobody has written to. -/
def planted : Grove Host Task Value where
  ensemble := .start (.blank
    { kernel := (Host.createPoller (Host.openPipe default).2).2, reactor := { poller := 102 } })

/-- A task that reads the pipe, and counts what it has read. -/
def seedling : Task := .chain (.read { owned := ⟨100⟩, token := 1, chunk := 4 }) .length

theorem fresh_planted : planted.Fresh where
  site := Site.fresh_blank _
  calls := rfl
  stored _ := nofun
  poll := rfl
  left := rfl
  gone := rfl
  history := rfl
  deeds := rfl

/-- The task is polled in place, finds nothing to read, and enters the table. Its waker is stored,
and the task answers for it. -/
theorem no_waker_left_planted :
    ∃ x : Grove Host Task Value, Run Task.tree .still planted x ∧ x.environment.Stored 1 ∧
      ∃ id b f o, x.machine.body? id = some b ∧ (Task.tree (K := Host)).leaf b = some (f, o) ∧
        f.token = 1 ∧ f.Begun true := by
  have hstart : Run Task.tree .still planted planted := .refl
  have hbegan := hstart.step (.began rfl rfl (.blockOn seedling rfl rfl) (.entered rfl)
    (List.mem_cons_of_mem _ List.mem_cons_self)
    (by
      rintro id b hb
      obtain ⟨rfl, rfl⟩ : id = _ ∧ b = _ := by simpa using hb
      exact ⟨_, _, rfl, rfl, rfl, rfl⟩)
    (fun _ h ↦ h) rfl)
  have hopened := hbegan.step (.ticked rfl rfl)
  have hunblocked := hopened.step (.ticked rfl rfl)
  have hchecked := hunblocked.step (.ticked rfl rfl)
  have hadded := hchecked.step (.ticked rfl rfl)
  have harmed := hadded.step (.ticked rfl rfl)
  have hread := harmed.step (.ticked rfl rfl)
  have hleft := hread.step (.ticked rfl rfl)
  have hpending := hleft.step (.finished rfl rfl)
  have hnone : ∀ id inPlace, .began id inPlace ∉
      ([.ended 1 true (.ok .pending), .entered 1] : List (Note Value)) := by simp
  have htabled := hpending.step (.acted rfl rfl
    (.turn (fun _ hc ↦ Option.mem_some.1 hc ▸ trivial) rfl) (.nothing rfl hnone) nofun nofun
    (fun _ h ↦ h))
  refine ⟨_, htabled, rfl, (htabled.no_waker_left fresh_planted).1.tabled rfl ?_ 1 rfl⟩
  rintro id r b ⟨c, rest, inPlace, hc, hi, -⟩
  obtain ⟨rfl, -⟩ := List.cons.inj hc
  cases hi

end Grove

end TaskRuntime
