import TaskRuntime.Proofs.Alone
import TaskRuntime.Proofs.Obligations
import TaskRuntime.Task.Serving

/-!
# What tasks leave as it is

A program is steady in something that can be told of the world if, from the world in which it is
started, each world that it puts in place of another tells the same (`Act.Steady`). Across a nested
run to completion nothing is taken for granted but the world that the program looks at afterwards.
So a call of a steady behaviour in steady surroundings changes nothing of what is told, however its
steps come between those of others (`Machine.steady_step?`).

Tasks are steady in the identity of the reactor (`Task.steady_behaviour`): they leave and drop
wakers, and get tokens, but the reactor stays the one that it is.
-/

namespace TaskRuntime

variable {W B V R S A : Type} {f : W → A}

/-! ### Steady programs -/

namespace Act

/-- **A program that is started in a world is steady**: what `f` tells does not change. -/
def Steady (f : W → A) : Act W B V R → W → Prop
  | .done _, _ => True
  | .look k, w => (k w).Steady f w
  | .put w' k, w => f w' = f w ∧ k.Steady f w'
  | .wake _ k, w => k.Steady f w
  | .unpark k, w => k.Steady f w
  | .parkFor k, w => ∀ b, (k b).Steady f w
  | .spawn _ k, _ => ∀ r w, (k r).Steady f w
  | .blockOn _ k, _ => ∀ r w, (k r).Steady f w
  | .figures k, w => ∀ x, (k x).Steady f w

theorem Steady.bind {p : Act W B V R} {g : R → Act W B V S} {w : W} (hp : p.Steady f w)
    (hg : ∀ r w, (g r).Steady f w) : (p.bind g).Steady f w := by
  induction p generalizing w with
  | done r => exact hg r w
  | look k ih => exact ih w hp
  | put w' k ih => exact ⟨hp.1, ih hp.2⟩
  | wake u k ih => exact ih hp
  | unpark k ih => exact ih hp
  | parkFor k ih => exact fun b ↦ ih b (hp b)
  | spawn b k ih => exact fun r w ↦ ih r (hp r w)
  | blockOn b k ih => exact fun r w ↦ ih r (hp r w)
  | figures k ih => exact fun x ↦ ih x (hp x)

theorem steady_lift {g : W → R × W} (hg : ∀ w, f (g w).2 = f w) (w : W) :
    (lift g : Act W B V R).Steady f w := ⟨hg w, trivial⟩

theorem steady_change {g : W → W} (hg : ∀ w, f (g w) = f w) (w : W) :
    (change g : Act W B V Unit).Steady f w := ⟨hg w, trivial⟩

theorem steady_wakeAll (ws : List Waker) (w : W) : (wakeAll ws : Act W B V Unit).Steady f w := by
  induction ws with
  | nil => trivial
  | cons u rest ih => exact ih

end Act

/-- Bodies that leave alone what `f` tells. -/
structure Behaviour.Steady (β : Behaviour W B V) (f : W → A) : Prop where
  /-- Polls are steady. -/
  poll : ∀ b u w, (β.poll b u).Steady f w
  /-- Destroying changes nothing. -/
  drop : ∀ b w, f (β.drop b w) = f w

/-- Surroundings that leave alone what `f` tells. -/
structure Surroundings.Steady (σ : Surroundings W B V) (f : W → A) : Prop where
  /-- The end of a run changes nothing. -/
  finished : ∀ w, f (σ.finished w) = f w
  /-- Announcements are steady. -/
  announce : ∀ n w, (σ.announce n).Steady f w
  /-- So is what happens to a sleeping thread. -/
  asleep : ∀ w, σ.asleep.Steady f w

/-! ### Steady calls -/

/-- The program of a call is steady, in whatever world it goes on. -/
def Doing.Steady (f : W → A) : Doing W B V → Prop
  | first p => ∀ w, p.Steady f w
  | poll _ p => ∀ w, p.Steady f w
  | announce p => ∀ w, p.Steady f w
  | asleep p => ∀ w, p.Steady f w
  | _ => True

section

variable {β : Behaviour W B V} {σ : Surroundings W B V}

theorem Doing.Runs.steady_iff {wrap : Act W B V R → Doing W B V} (hw : Runs wrap)
    {p : Act W B V R} : (wrap p).Steady f ↔ ∀ w, p.Steady f w := by
  cases hw <;> exact Iff.rfl

/-- A program that gets the result of a nested run is steady as before. -/
theorem Doing.Steady.resume {d : Doing W B V} (hd : d.Steady f)
    (result : Except Failure (Option V)) : (d.resume result).Steady f := by
  have hanswered {R : Type} {p : Act W B V R} (hp : ∀ w, p.Steady f w) (w : W) :
      (Doing.answered result p).Steady f w := by
    cases p with
    | blockOn b k => exact hp w result w
    | _ => exact hp w
  cases d with
  | first p => exact hanswered hd
  | poll id p => exact hanswered hd
  | announce p => exact hanswered hd
  | asleep p => exact hanswered hd
  | _ => trivial

theorem Site.steady_insert (hβ : β.Steady f) (s : Site W B) (id : TaskId) (b : B) :
    f (s.insert (V := V) β id b).2.world = f s.world := by
  unfold insert
  split
  · exact hβ.drop b s.world
  · rfl

theorem Site.steady_enqueue (hβ : β.Steady f) (s : Site W B) (id : TaskId) (b : B) :
    f (s.enqueue (V := V) β id b).2.world = f s.world :=
  s.steady_insert hβ id b

theorem Site.steady_spawn (hβ : β.Steady f) (s : Site W B) (b : B) :
    f (s.spawn (V := V) β b).2.2.world = f s.world :=
  steady_enqueue hβ _ _ b

/-- **A steady program** is steady as far as it gets by itself, and in what is left of it. -/
theorem Act.Steady.run (hβ : β.Steady f) {p : Act W B V R} {s : Site W B}
    (hp : p.Steady f s.world) :
    f (p.run β s).2.2.world = f s.world ∧
      ∀ b k, (p.run β s).1 = .calls b k → ∀ r w, (k r).Steady f w := by
  induction p generalizing s with
  | done r => exact ⟨rfl, nofun⟩
  | look k ih => exact ih s.world hp
  | put w k ih =>
    obtain ⟨hworld, hrest⟩ := ih (s := { s with world := w }) hp.2
    exact ⟨hworld.trans hp.1, hrest⟩
  | wake u k ih => exact ih (s := { s with signals := s.signals.wake u }) hp
  | unpark k ih => exact ih (s := { s with signals := s.signals.unpark s.executor.parker }) hp
  | parkFor k ih =>
    exact ih (s.signals.parkFor s.executor.parker).1
      (s := { s with signals := (s.signals.parkFor s.executor.parker).2 }) (hp _)
  | spawn b k ih =>
    obtain ⟨hworld, hrest⟩ := ih (.ok (s.spawn β b).1) (s := (s.spawn β b).2.2) (hp _ _)
    exact ⟨hworld.trans (s.steady_spawn hβ b), hrest⟩
  | blockOn b k =>
    refine ⟨rfl, fun b' k' h ↦ ?_⟩
    cases h
    exact hp
  | figures k ih => exact ih s.figures (hp _)

namespace Machine

/-- What `f` tells is still the same, and so it will be. -/
def Steady (f : W → A) (w : W) (m : Machine W B V) : Prop :=
  f m.site.world = f w ∧ ∀ c ∈ m.calls, c.doing.Steady f

variable {w : W} {site : Site W B} {c : Call W B V} {rest : List (Call W B V)}

theorem steady_enter (hβ : β.Steady f) (hw : f site.world = f w)
    (hr : ∀ c ∈ rest, c.doing.Steady f) (b : B) : (enter β site rest b).2.Steady f w :=
  ⟨hw, List.forall_mem_cons.2 ⟨hβ.poll b _, hr⟩⟩

theorem steady_leave (hβ : β.Steady f) (hw : f site.world = f w)
    (hr : ∀ c ∈ rest, c.doing.Steady f) (c : Call W B V) (result : Except Failure (Option V)) :
    (leave β site c rest result).2.Steady f w := by
  have hdestroy : f (c.held.elim ([], site) (site.destroy (V := V) β c.id)).2.world = f w := by
    cases c.held with
    | none => exact hw
    | some b => exact (hβ.drop b site.world).trans hw
  refine ⟨?_, ?_⟩
  · cases rest <;> exact hdestroy
  · cases rest with
    | nil => exact nofun
    | cons d rest =>
      obtain ⟨hd, hr⟩ := List.forall_mem_cons.1 hr
      exact List.forall_mem_cons.2 ⟨hd.resume result, hr⟩

theorem steady_fill (id : TaskId) (v : V) (hr : ∀ c ∈ rest, c.doing.Steady f) :
    ∀ c ∈ fill id v rest, c.doing.Steady f := by
  intro c hc
  obtain ⟨d, hd, rfl⟩ := List.mem_map.1 hc
  split
  · exact hr d hd
  · exact hr d hd

theorem steady_afterFirst (hβ : β.Steady f) (hw : f site.world = f w)
    (hr : ∀ c ∈ rest, c.doing.Steady f) (c : Call W B V) (b : B) (result : Polled V) :
    (afterFirst β site c rest b result).2.Steady f w := by
  match result with
  | .error e => exact steady_leave hβ ((hβ.drop b site.world).trans hw) hr c _
  | .ok .pending =>
    exact ⟨(site.steady_enqueue hβ c.id b).trans hw, List.forall_mem_cons.2 ⟨trivial, hr⟩⟩
  | .ok (.ready v) =>
    rw [afterFirst]
    dsimp only
    split
    · exact steady_leave hβ hw hr _ _
    · exact ⟨hw, List.forall_mem_cons.2 ⟨trivial, hr⟩⟩

theorem steady_afterPoll (hβ : β.Steady f) (hw : f site.world = f w)
    (hr : ∀ c ∈ rest, c.doing.Steady f) (c : Call W B V) (id : TaskId) (b : B)
    (result : Polled V) : (afterPoll β site c rest id b result).2.Steady f w := by
  match result with
  | .error e => exact steady_leave hβ ((hβ.drop b site.world).trans hw) hr c _
  | .ok .pending =>
    exact ⟨(site.steady_insert hβ id b).trans hw, List.forall_mem_cons.2 ⟨trivial, hr⟩⟩
  | .ok (.ready v) =>
    exact ⟨(hβ.drop b site.world).trans hw,
      steady_fill id v (List.forall_mem_cons.2 ⟨trivial, hr⟩)⟩

theorem steady_stepPop (hβ : β.Steady f) (hw : f site.world = f w)
    (hr : ∀ d ∈ c :: rest, d.doing.Steady f) : (stepPop β site c rest).2.Steady f w := by
  have hrest := (List.forall_mem_cons.1 hr).2
  unfold stepPop
  split
  · exact ⟨hw, List.forall_mem_cons.2 ⟨trivial, hrest⟩⟩
  · dsimp only
    split
    · exact ⟨hw, hr⟩
    · exact ⟨hw, List.forall_mem_cons.2 ⟨hβ.poll _ _, hrest⟩⟩

theorem steady_countPark (hσ : σ.Steady f) (hw : f site.world = f w)
    (hr : ∀ c ∈ rest, c.doing.Steady f) (c : Call W B V) :
    (countPark σ site c rest).2.Steady f w :=
  ⟨hw, List.forall_mem_cons.2 ⟨hσ.asleep, hr⟩⟩

theorem steady_stepCheck (hβ : β.Steady f) (hσ : σ.Steady f) (hw : f site.world = f w)
    (hr : ∀ c ∈ rest, c.doing.Steady f) (c : Call W B V) :
    (stepCheck β σ site c rest).2.Steady f w := by
  unfold stepCheck
  split
  · exact steady_leave hβ ((hσ.finished site.world).trans hw) hr c _
  split
  · split
    · exact ⟨hw, List.forall_mem_cons.2 ⟨hσ.announce _, hr⟩⟩
    · exact steady_countPark hσ hw hr c
  · exact ⟨hw, List.forall_mem_cons.2 ⟨trivial, hr⟩⟩

/-- A program is run as far as it gets, and what follows is steady, too. -/
theorem steady_stepAct (hβ : β.Steady f) {p : Act W B V R} {wait : Act W B V R → Doing W B V}
    {after : Site W B → R → List (Note V) × Machine W B V} (hp : p.Steady f site.world)
    (hr : ∀ c ∈ rest, c.doing.Steady f)
    (hwait : Doing.Runs wait)
    (hafter : ∀ s r, f s.world = f site.world → (after s r).2.Steady f site.world)
    (c : Call W B V) : (stepAct β site c rest p wait after).2.Steady f site.world := by
  obtain ⟨hworld, hcalls⟩ := hp.run hβ
  unfold stepAct
  generalize p.run β site = run at hworld hcalls ⊢
  obtain ⟨stop, notes, s⟩ := run
  cases stop with
  | calls b k =>
    have hsteady : (wait (.blockOn b k)).Steady f :=
      hwait.steady_iff.2 fun _ ↦ hcalls b k rfl
    exact steady_enter hβ hworld
      (List.forall_mem_cons.2 ⟨hsteady, hr⟩) b
  | finished r => exact hafter s r hworld

/-- **A step of a call** of steady bodies in steady surroundings changes nothing of what is told. -/
theorem steady_step? {m m' : Machine W B V} {n : List (Note V)} (hβ : β.Steady f)
    (hσ : σ.Steady f) (hm : ∀ c ∈ m.calls, c.doing.Steady f)
    (h : m.step? β σ = some (n, m')) : m'.Steady f m.site.world := by
  obtain ⟨site, calls, o⟩ := m
  cases calls with
  | nil => cases h
  | cons c rest =>
    obtain ⟨hc, hr⟩ := List.forall_mem_cons.1 hm
    have hstep {r : List (Note V) × Machine W B V} (hr : r.2.Steady f site.world)
        (h : some r = some (n, m')) : m'.Steady f site.world := by
      rw [Option.some.inj h] at hr
      exact hr
    rw [step?] at h
    dsimp only at h hc
    cases hd : c.doing with
    | first p =>
      rw [hd] at h hc
      refine hstep ?_ h
      refine steady_stepAct hβ (hc _) hr .first (fun s r hs ↦ ?_) c
      exact steady_afterFirst hβ hs hr c r.2 r.1
    | pop =>
      rw [hd] at h
      exact hstep (steady_stepPop hβ rfl hm) h
    | poll id p =>
      rw [hd] at h hc
      refine hstep ?_ h
      refine steady_stepAct hβ (hc _) hr (.poll id) (fun s r hs ↦ ?_) c
      exact steady_afterPoll hβ hs hr c id r.2 r.1
    | check =>
      rw [hd] at h
      exact hstep (steady_stepCheck hβ hσ rfl hr c) h
    | announce p =>
      rw [hd] at h hc
      refine hstep ?_ h
      refine steady_stepAct hβ (hc _) hr .announce (fun s r hs ↦ ?_) c
      cases r with
      | error e => exact steady_leave hβ hs hr c _
      | ok u => exact steady_countPark hσ hs hr c
    | asleep p =>
      rw [hd] at h hc
      refine hstep ?_ h
      exact steady_stepAct hβ (hc _) hr .asleep
        (fun s r hs ↦ ⟨hs, List.forall_mem_cons.2 ⟨trivial, hr⟩⟩) c
    | park =>
      rw [hd] at h
      obtain ⟨s, -, hs⟩ := Option.map_eq_some_iff.1 h
      cases hs
      exact ⟨rfl, List.forall_mem_cons.2 ⟨trivial, hr⟩⟩

end Machine

end

/-! ### The identity of the reactor -/

/-- Which reactor a reactor is: its poller, its notifier, and how many events it takes at once. -/
def Reactor.identity (r : Reactor) : Descriptor × Descriptor × Nat :=
  (r.poller, r.notifier, r.capacity)

/-- Which reactor is that of a world. -/
def World.reactorIdentity {K : Type} (w : World K) : Descriptor × Descriptor × Nat :=
  w.reactor.identity

section

variable {K : Type}

theorem ReadToEnd.identity_create (owned : Owned) (requested : Nat) (e : Environment K) :
    (create owned requested e).2.reactor.identity = e.reactor.identity := by
  unfold create
  dsimp only
  split <;> rfl

theorem Environment.identity_setWaker (e : Environment K) (t : Token) (w : Waker) :
    (e.setWaker t w).2.reactor.identity = e.reactor.identity := by
  unfold setWaker Reactor.setWaker
  cases e.reactor.check <;> rfl

variable [Kernel K]

/-! ### Rounds of the loop -/

namespace Reactor

theorem identity_turn (r : Reactor) (s : System K) : (r.turn s).2.1.identity = r.identity := by
  unfold turn
  rcases Poller.wait s r.poller r.buffer none with ⟨x | u, buffer, t⟩
  · cases x with
    | os errno doing =>
      dsimp only
      split <;> rfl
    | _ => rfl
  · rfl

theorem identity_turns (n : Nat) (r : Reactor) (s : System K) :
    (turns n r s).2.1.identity = r.identity := by
  induction n generalizing r s with
  | zero => rfl
  | succ n ih =>
    rw [turns]
    split
    · exact (ih _ _).trans (r.identity_turn s)
    · rfl

end Reactor

/-! ### Futures that read -/

namespace ReadToEnd

variable (f : ReadToEnd) (opening : Opening K) (w : Waker) (e : Environment K)

/-- Each step of a poll leaves the reactor the one that it is. -/
theorem identity_tick (p : Reading) :
    (p.tick opening w e).2.reactor.identity = e.reactor.identity := by
  obtain ⟨f, m⟩ := p
  have handThen (g : ReadToEnd) (next : ReadToEnd × Moment)
      (r : Except Failure Unit × Environment K) :
      (Reading.andThen g next r).2.reactor.identity = r.2.reactor.identity := by
    rw [Reading.andThen_snd]
  cases m with
  | opening =>
    dsimp only [Reading.tick, Environment.onSystem]
    rcases opening f.owned _ with ⟨x | owned, s⟩ <;> rfl
  | arming => exact (handThen _ _ _).trans (e.identity_setWaker f.token w)
  | rearming => exact (handThen _ _ _).trans (e.identity_setWaker f.token w)
  | reading => exact congrArg Reactor.identity Reading.reactor_read
  | forgetting => rfl
  | complete r => rfl
  | _ => exact handThen _ _ _

/-- So does a poll. -/
theorem identity_poll : (f.poll opening w e).2.2.reactor.identity = e.reactor.identity := by
  have hplay (n : Nat) (x : Reading × Environment K) :
      (play opening w n x).2.reactor.identity = x.2.reactor.identity := by
    induction n generalizing x with
    | zero => rfl
    | succ n ih => exact (ih _).trans (identity_tick opening w x.2 x.1)
  obtain ⟨n, hn⟩ := plays_poll f opening w e
  have hpoll := hplay n (f.begin, e)
  rwa [hn] at hpoll

theorem identity_drop : (f.drop e).reactor.identity = e.reactor.identity := by
  have hforget : (e.deregister f.owned.number f.token).2.reactor.identity = e.reactor.identity :=
    rfl
  unfold drop
  split
  · generalize e.deregister f.owned.number f.token = r at hforget ⊢
    rcases r with ⟨x | u, e'⟩ <;> exact hforget
  · rfl

end ReadToEnd

/-! ### Requests -/

namespace Demo.Fetch

variable (f : Fetch) (g : Get) (w : Waker) (e : Environment K)

theorem identity_await : (f.await g w e).2.2.reactor.identity = e.reactor.identity := by
  have hpoll : (g.poll w e).2.2.reactor.identity = e.reactor.identity :=
    g.answer.identity_poll _ w e
  unfold await
  generalize g.poll w e = r at hpoll ⊢
  rcases r with ⟨x | _ | text, g', e'⟩
  · exact hpoll
  · exact hpoll
  · exact (g'.answer.identity_drop _).trans hpoll

theorem identity_poll : (f.poll w e).2.2.reactor.identity = e.reactor.identity := by
  unfold poll
  split
  · refine (f.identity_await _ w _).trans ?_
    exact ReadToEnd.identity_create .nothing 0 _
  · exact f.identity_await _ w e
  · rfl

theorem identity_drop : (f.drop e).reactor.identity = e.reactor.identity := by
  unfold drop
  split
  · next g _ => exact g.answer.identity_drop e
  · rfl

end Demo.Fetch

end

/-! ### Tasks -/

section

variable {K : Type}

/-- Actions leave the reactor the one that it is. -/
theorem Action.steady_run (u : Waker) (a : Action) (w : World K) :
    (a.run u : TaskAct K (Except Failure Unit)).Steady World.reactorIdentity w := by
  have hshow (x : Shown) (w : World K) :
      ((Action.show x : TaskAct K Unit).bind fun _ ↦ .done (.ok ())).Steady
        World.reactorIdentity w (R := Except Failure Unit) := ⟨rfl, trivial⟩
  cases a with
  | fire slot =>
    unfold run
    simp only [Act.Steady]
    split <;> trivial
  | wake => trivial
  | unpark => trivial
  | spawn t =>
    intro r w
    cases r with
    | error e => trivial
    | ok id => exact hshow _ w
  | blockOn t =>
    intro r w
    cases r with
    | error e => trivial
    | ok v => exact hshow _ w
  | figures => exact fun x ↦ hshow _ w
  | _ => exact ⟨rfl, trivial⟩

theorem Action.steady_runAll (u : Waker) (actions : List Action) (w : World K) :
    (runAll u actions : TaskAct K (Except Failure Unit)).Steady World.reactorIdentity w := by
  induction actions generalizing w with
  | nil => trivial
  | cons a rest ih =>
    refine (a.steady_run u w).bind fun r w ↦ ?_
    cases r with
    | error e => trivial
    | ok _ => exact ih w

theorem Script.steady_poll (s : Script) (u : Waker) (w : World K) :
    (s.poll u : TaskAct K (Polled Value × Script)).Steady World.reactorIdentity w := by
  refine ⟨rfl, (Action.steady_runAll u s.entry.actions _).bind fun r w ↦ ?_⟩
  cases r with
  | error e => trivial
  | ok _ =>
    dsimp only
    split <;> trivial

theorem Continuation.steady_run (k : Continuation) (v : Value) (w : World K) :
    (k.run v : TaskAct K (Except Failure Value)).Steady World.reactorIdentity w := by
  unfold run
  split <;> trivial

theorem Demo.steady_spawnAll (fetches : List Fetch) (w : World K) :
    (spawnAll fetches : TaskAct K (Except Failure Unit)).Steady World.reactorIdentity w := by
  induction fetches generalizing w with
  | nil => trivial
  | cons f rest ih =>
    intro r w
    cases r with
    | error e => trivial
    | ok _ => exact ih w

variable [Kernel K]

namespace Task

theorem identity_drop (t : Task) (w : World K) :
    (t.drop w).reactorIdentity = w.reactorIdentity := by
  match t with
  | chain first k => exact identity_drop first w
  | read f => exact f.identity_drop w.toEnvironment
  | get g => exact g.answer.identity_drop w.toEnvironment
  | fetch f => exact f.identity_drop w.toEnvironment
  | script s => rfl
  | guarded s b => rfl
  | ready v => rfl
  | consumed => rfl
  | fanOut m => rfl

omit [Kernel K] in
/-- A poll of a leaf leaves the reactor the one that it is, if the leaf does. -/
theorem steady_leafPoll {S : Type} {poll : Environment K → Polled Value × S × Environment K}
    (hp : ∀ e, (poll e).2.2.reactor.identity = e.reactor.identity) (wrap : S → Task)
    (w : World K) :
    (leafPoll poll wrap : TaskAct K (Polled Value × Task)).Steady World.reactorIdentity w :=
  Act.steady_lift (fun w ↦ hp w.toEnvironment) w

/-- A poll of a task leaves the reactor the one that it is. -/
theorem steady_poll (t : Task) (u : Waker) (w : World K) :
    (t.poll u : TaskAct K (Polled Value × Task)).Steady World.reactorIdentity w := by
  match t with
  | ready (some v) => trivial
  | ready none => trivial
  | script s => exact (s.steady_poll u w).bind fun _ _ ↦ trivial
  | guarded s true => trivial
  | guarded s false =>
    have hguard : (Future.guardPoll (s.poll u) : TaskAct K _).Steady World.reactorIdentity w :=
      (s.steady_poll u w).bind fun _ _ ↦ trivial
    exact hguard.bind fun _ _ ↦ trivial
  | chain first k =>
    refine ((steady_poll first u w).bind fun r w ↦ ?_).bind fun r w ↦ ?_
    · obtain ⟨_ | _ | v, first⟩ := r
      · trivial
      · trivial
      · exact (k.steady_run v w).bind fun r w ↦
          (Act.steady_change (fun w ↦ identity_drop first w) w).bind fun _ _ ↦ trivial
    · obtain ⟨r, _ | first⟩ := r <;> trivial
  | consumed => trivial
  | read f => exact steady_leafPoll (fun e ↦ f.identity_poll _ u e) _ w
  | get g => exact steady_leafPoll (fun e ↦ g.answer.identity_poll _ u e) _ w
  | fetch f => exact steady_leafPoll (fun e ↦ f.identity_poll u e) _ w
  | fanOut m =>
    show Act.Steady _ (pollFanOut m) w
    unfold pollFanOut
    split
    · trivial
    · refine ⟨rfl, (Demo.steady_spawnAll m.fetches _).bind fun r w ↦ ?_⟩
      cases r <;> trivial

/-- **Tasks leave the reactor the one that it is.** -/
theorem steady_behaviour : (behaviour (K := K)).Steady World.reactorIdentity where
  poll := steady_poll
  drop := identity_drop

end Task

/-! ### Surroundings -/

/-- So does the loop of the reactor, which makes its rounds while the thread sleeps. -/
theorem World.steady_serving : (serving (K := K)).Steady World.reactorIdentity where
  finished _ := rfl
  announce _ _ := ⟨rfl, trivial⟩
  asleep w := ⟨w.reactor.identity_turns 1 w.toSystem, Act.steady_wakeAll _ _⟩

omit [Kernel K] in
theorem World.identity_nextPark (w : World K) :
    w.nextPark.2.reactorIdentity = w.reactorIdentity := by
  unfold nextPark
  split <;> rfl

omit [Kernel K] in
/-- So does whatever happens on the stage. -/
theorem World.steady_surroundings : (surroundings (K := K)).Steady World.reactorIdentity where
  finished _ := rfl
  announce n w := by
    refine ⟨rfl, ?_⟩
    split
    · trivial
    · have hpark := identity_nextPark (w.noteDebug (parkMessage n))
      simp only [Act.Steady]
      generalize (w.noteDebug (parkMessage n)).nextPark = next at hpark ⊢
      obtain ⟨_ | actions, w'⟩ := next
      · trivial
      · refine ⟨hpark, (Action.steady_runAll _ actions w').bind fun r w ↦ ?_⟩
        cases r <;> trivial
  asleep w := by
    simp only [surroundings, asleep, Act.Steady]
    split
    · have hpark := identity_nextPark w
      generalize w.nextPark = next at hpark ⊢
      obtain ⟨_ | actions, w'⟩ := next
      · trivial
      · exact ⟨hpark, (Action.steady_runAll _ actions w').bind fun _ _ ↦ trivial⟩
    · trivial

end

end TaskRuntime
