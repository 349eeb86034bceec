import TaskRuntime.Proofs.Alone
import TaskRuntime.Proofs.HostEdges
import TaskRuntime.Proofs.Scene

/-!
# No read gets stuck

The kernel reports a change of a descriptor once. The report may come before the future has left its
waker, between the read that finds nothing and the second time the waker is left, or while the task
is being polled, and the wake that follows may come before the task is back in the table. Still, as
long as the task is pending and nobody polls it, what there is to read is on its way to the task: an
event is pending or to be dispatched, a wake is in flight, or the task is queued
(`Scene.no_stuck_read`).

The invariant is a case distinction by where the task is (`Scene.Place`), and each case says what is
known of its future there. Nothing is known but `ReadToEnd.Holds`, which the steps of the poll keep;
all other steps keep it because they do not concern the future, and the steps of the loop because
its waker is stored from before the first read to the end.
-/

namespace TaskRuntime

namespace Machine

variable {W B V : Type} {β : Behaviour W B V} {σ : Surroundings W B V} {m m' : Machine W B V}
  {n : List (Note V)} {id : TaskId}

/-- A task that is in the table, or while the active call is polling, is taken off the ready queue
by nothing but the beginning of its poll. -/
theorem Move.not_takes (hm : Move β σ m n m') (hn : .began id false ∉ n)
    (hs : m.Tabled id ∨ ∃ c rest x, m.calls = c :: rest ∧ c.polls? = some x) :
    ∀ k ∈ n, ¬ k.Takes id := by
  intro k hk ht
  obtain ⟨⟨c, rest, hc, hd⟩, -, hpop⟩ := hm.popped hk ht
  cases hpop with
  | began _ => exact hn List.mem_cons_self
  | stale hno =>
    rcases hs with htabled | ⟨c', rest', x, hc', hx⟩
    · exact hno htabled
    · obtain ⟨rfl, rfl⟩ := List.cons.inj (hc.symm.trans hc')
      rw [Call.polls?, hd] at hx
      cases hx

end Machine

namespace Scene

variable {K : Type} [Kernel K]

/-- What holds of the future of a task at a moment of a poll. Between the polls it is what holds
when the future is about to leave its waker again. -/
def Holds (rule : EdgeRule K) (x : Scene K) (id : TaskId) (f : ReadToEnd) (m : ReadToEnd.Moment) :
    Prop :=
  f.Holds rule x.environment (x.waker id) (x.News f.token id) m

/-- **Where a task with a future under a token is**, and what is known of the future. -/
inductive Place (rule : EdgeRule K) (id : TaskId) (t : Token) (x : Scene K)
    (h : List (Note Value)) : Prop
  /-- The task is in the table. Either it has not been polled, or its future is armed and covered.
  -/
  | waiting {b f opening} (hp : x.poll = none) (hb : x.machine.body? id = some b)
      (hf : b.reader? (K := K) = some (f, opening)) (ht : f.token = t)
      (hw : f.started = false ∧ ¬ Paused id h ∨ x.Holds rule id f .rearming)
  /-- The active call polls the task, and the task polls its future. -/
  | reading {b p f opening c rest inPlace} (hp : x.poll = some (b, p))
      (hf : b.reader? (K := K) = some (f, opening)) (hc : x.machine.calls = c :: rest)
      (hi : c.polls? = some (id, inPlace)) (ht : p.future.token = t)
      (hh : x.Holds rule id p.future p.moment)
  /-- The active call has polled the task, and is about to put it into the table. -/
  | pended {b f opening c rest inPlace} (hp : x.poll = none) (hc : x.machine.calls = c :: rest)
      (hi : c.polls? = some (id, inPlace)) (hd : c.program? = some (.done (.ok .pending, b)))
      (hf : b.reader? (K := K) = some (f, opening)) (ht : f.token = t)
      (hh : x.Holds rule id f .rearming)
  /-- The active call polls the task, and the future has been resolved. -/
  | ending {c rest inPlace p} (hp : x.poll = none) (hc : x.machine.calls = c :: rest)
      (hi : c.polls? = some (id, inPlace)) (hd : c.program? = some p) (he : p.Ends Task.Settles)
      (hl : p.Flat)
  /-- The task has been resolved. -/
  | ended {inPlace r} (hp : x.poll = none) (hr : r ≠ .ok .pending) (hh : .ended id inPlace r ∈ h)

variable {rule : EdgeRule K} {σ : Surroundings (World K) Task Value} {id : TaskId} {t : Token}
  {x₀ x x' : Scene K} {h h₁ n : List (Note Value)} {f : ReadToEnd} {m : ReadToEnd.Moment}

/-! ### What holds of the future -/

omit [Kernel K] in
theorem waker_eq (hk : x.machine.Upkeep n x'.machine) : x'.waker id = x.waker id := by
  obtain ⟨hqueue, hparker⟩ := Prod.mk.inj hk.refs
  show Waker.mk (some x'.machine.site.executor.parker) id (some x'.machine.site.executor.queue) = _
  rw [hparker, hqueue]
  rfl

omit [Kernel K] in
/-- News stay on their way until the loop of the reactor goes on or the id of the task is taken off
the ready queue. -/
theorem News.upkeep (hn : x.News t id) (hk : x.machine.Upkeep n x'.machine)
    (ho : x.machine.Ordered h) (hw : x'.watch = x.watch) (htakes : ∀ k ∈ n, ¬ k.Takes id) :
    x'.News t id := by
  rcases hn with hn | hn | hn
  · exact .inl (by rwa [scope, hw])
  · refine .inr (.inl ?_)
    rwa [waker_eq hk, scope, hw]
  · exact .inr (.inr (hk.ready ho htakes hn))

/-- What holds of a future holds whatever others do. -/
theorem Holds.others (hh : x.Holds rule id f m)
    (hs : x.environment.Spares rule f.token x'.environment) (hk : x.machine.Upkeep n x'.machine)
    (ho : x.machine.Ordered h) (hw : x'.watch = x.watch) (htakes : ∀ k ∈ n, ¬ k.Takes id) :
    x'.Holds rule id f m := by
  rw [Holds, waker_eq hk]
  exact ReadToEnd.Holds.spares hh hs fun hn ↦ hn.upkeep hk ho hw htakes

/-- What holds of a future holds after a step of the loop of the reactor. -/
theorem Holds.loop (hh : x.Holds rule id f m) (hs : rule.sound x.environment.kernel)
    (ho : x.machine.Ordered h) (ht : f.token ≠ Reactor.notifyToken) :
    (x.withScope x.scope.tick).Holds rule id f m :=
  x.scope.holds_tick hs hh ht ho.law.queue ⟨rfl, Option.some_ne_none _⟩

/-- The active call polls a task. -/
theorem mem_polled {W B V : Type} {m : Machine W B V} {c : Call W B V} {rest : List (Call W B V)}
    {p : TaskId × Bool} (hc : m.calls = c :: rest) (hi : c.polls? = some p) : p ∈ m.polled := by
  rw [Machine.polled, hc, List.filterMap_cons, hi]
  exact List.mem_cons_self

/-! ### Steps -/

/-- A step that leaves the task where it is. -/
theorem Place.still (hpl : Place rule id t x h) (hp : x'.poll = x.poll)
    (hc : x'.machine.calls = x.machine.calls)
    (hb : ∀ b, x.machine.body? id = some b → x'.machine.body? id = some b)
    (hpaused : x.machine.Tabled id → Paused id (h ++ n) → Paused id h)
    (hh : x.Engaged id → ∀ f m, f.token = t → x.Holds rule id f m → x'.Holds rule id f m) :
    Place rule id t x' (h ++ n) := by
  cases hpl with
  | waiting hp₀ hb₀ hf ht hw =>
    have htabled := Machine.tabled_of_body? hb₀
    refine .waiting (hp.trans hp₀) (hb _ hb₀) hf ht (hw.imp ?_ ?_)
    · exact fun hw ↦ ⟨hw.1, fun hpa ↦ hw.2 (hpaused htabled hpa)⟩
    · exact hh (.inl htabled) _ _ ht
  | reading hp₀ hf hc₀ hi ht hh₀ =>
    have hpoll : x.poll ≠ none := by
      rw [hp₀]
      exact Option.some_ne_none _
    exact .reading (hp.trans hp₀) hf (hc.trans hc₀) hi ht (hh (.inr (.inl hpoll)) _ _ ht hh₀)
  | pended hp₀ hc₀ hi hd hf ht hh₀ =>
    have hengaged : x.Engaged id := .inr (.inr ⟨_, _, _, _, hc₀, hi, hd⟩)
    exact .pended (hp.trans hp₀) (hc.trans hc₀) hi hd hf ht (hh hengaged _ _ ht hh₀)
  | ending hp₀ hc₀ hi hd he hl => exact .ending (hp.trans hp₀) (hc.trans hc₀) hi hd he hl
  | ended hp₀ hr hh₀ => exact .ended (hp.trans hp₀) hr (List.mem_append_left _ hh₀)

/-- A change of the environment that is of no concern to the future. -/
theorem Place.environment (hpl : Place rule id t x h) (ho : x.machine.Ordered h) {e : Environment K}
    (hs : x.environment.Spares rule t e) : Place rule id t (x.withEnvironment e) (h ++ []) := by
  refine hpl.still rfl rfl (fun b hb ↦ hb) (fun _ hpa ↦ by simpa using hpa) fun _ f m ht hh ↦ ?_
  exact hh.others (by rwa [ht]) (upkeep_withEnvironment x e) ho rfl nofun

/-- The executor makes a step that does not begin a poll of the task, or others do. -/
theorem Place.machine (hpl : Place rule id t x h) (ho : x.machine.Ordered h)
    {s : Ensemble (World K) Task Value} (hs : Ensemble.Step Task.behaviour σ x.ensemble n s)
    (hn : .began id false ∉ n) (hp : x.poll ≠ none → s.machine.calls = x.machine.calls)
    (he : x.Engaged id → x.environment.Spares rule t s.machine.site.world.toEnvironment) :
    Place rule id t { x with ensemble := s } (h ++ n) := by
  have hm := hs.move
  have hk : x.machine.Upkeep n s.machine := hm.upkeep
  have hbody (b : Task) (hb : x.machine.body? id = some b) : s.machine.body? id = some b :=
    hm.body hb hn
  have hothers (htakes : ∀ k ∈ n, ¬ k.Takes id) (hengaged : x.Engaged id) (f : ReadToEnd)
      (m : ReadToEnd.Moment) (ht : f.token = t) (hh : x.Holds rule id f m) :
      ({ x with ensemble := s } : Scene K).Holds rule id f m :=
    hh.others (by rw [ht]; exact he hengaged) hk ho rfl htakes
  -- While the active call polls the task, nobody takes its id off the ready queue.
  have hpolls {c : Call (World K) Task Value} {rest inPlace}
      (hc : x.machine.calls = c :: rest) (hi : c.polls? = some (id, inPlace)) :
      ∀ k ∈ n, ¬ k.Takes id := hm.not_takes hn (.inr ⟨c, rest, _, hc, hi⟩)
  have hstill (htakes : ∀ k ∈ n, ¬ k.Takes id) (hc : s.machine.calls = x.machine.calls) :
      Place rule id t { x with ensemble := s } (h ++ n) :=
    hpl.still rfl hc hbody (fun ht hpa ↦ hk.passage.paused ho.books ht hpa) (hothers htakes)
  cases hpl with
  | waiting hp₀ hb₀ hf ht hw =>
    have htabled := Machine.tabled_of_body? hb₀
    have htakes := hm.not_takes hn (.inl htabled)
    refine .waiting hp₀ (hbody _ hb₀) hf ht (hw.imp ?_ ?_)
    · exact fun hw ↦ ⟨hw.1, fun hpa ↦ hw.2 (hk.passage.paused ho.books htabled hpa)⟩
    · exact hothers htakes (.inl htabled) _ _ ht
  | reading hp₀ hf hc₀ hi ht hh₀ =>
    refine hstill (hpolls hc₀ hi) (hp ?_)
    rw [hp₀]
    exact Option.some_ne_none _
  | pended hp₀ hc₀ hi hd hf ht hh₀ =>
    have htakes := hpolls hc₀ hi
    rcases hm.of_polls hc₀ hi hd with hc | ⟨p', hl, -⟩ | ⟨r, b, hdone, hn', hb⟩ | ⟨b, k, hblock⟩
    · exact hstill htakes (hc.trans hc₀.symm)
    · exact hl.elim
    · -- The poll ends, and the task is in the table.
      obtain ⟨rfl, rfl⟩ := Prod.mk.inj (Act.done.inj hdone)
      have hengaged : x.Engaged id := .inr (.inr ⟨_, _, _, _, hc₀, hi, hd⟩)
      exact .waiting hp₀ (hb rfl (ho.books.not_tabled_of_polled (mem_polled hc₀ hi))) hf ht
        (.inr (hothers htakes hengaged _ _ ht hh₀))
    · cases hblock
  | ending hp₀ hc₀ hi hd he' hl =>
    have htakes := hpolls hc₀ hi
    rcases hm.of_polls hc₀ hi hd with hc | ⟨p', hleads, hc⟩ | ⟨r, b, hdone, hn', -⟩ |
      ⟨b, k, hblock⟩
    · exact hstill htakes (hc.trans hc₀.symm)
    · exact .ending hp₀ hc (by rw [Call.polls?_proceed]; exact hi) (Call.program?_proceed hi)
        (he'.leads hleads) (hl.leads hleads)
    · obtain rfl := hdone
      exact .ended hp₀ he' (List.mem_append_right _ hn')
    · obtain rfl := hblock
      exact hl.elim
  | ended hp₀ hr hh₀ => exact .ended hp₀ hr (List.mem_append_left _ hh₀)

/-- The loop of the executor begins to poll the task. -/
theorem Place.begin (hpl : Place rule id t x h) (ho : x.machine.Ordered h)
    {s : Ensemble (World K) Task Value} (hs : Ensemble.Step Task.behaviour σ x.ensemble n s)
    (hn : .began id false ∈ n) (hp : x.poll = none) {b : Task} {opening : ReadToEnd.Opening K}
    (hb : x.machine.body? id = some b) (hf : b.reader? = some (f, opening)) :
    Place rule id t { x with ensemble := s, poll := some (b, f.begin) } (h ++ n) := by
  have hm := hs.move
  have htabled := Machine.tabled_of_body? hb
  cases hpl with
  | waiting hp₀ hb₀ hf₀ ht hw =>
    obtain rfl := Option.some.inj (hb.symm.trans hb₀)
    obtain ⟨rfl, rfl⟩ := Prod.mk.inj (Option.some.inj (hf.symm.trans hf₀))
    obtain ⟨b', c, rest, -, hc, hd, hworld⟩ := hm.of_began hn
    refine .reading rfl hf hc (Call.polls?_poll hd) ht ?_
    have henv : ({ x with ensemble := s, poll := some (b, f.begin) } : Scene K).environment =
        x.environment := congrArg World.toEnvironment hworld
    have hk : x.machine.Upkeep n s.machine := hm.upkeep
    have hwaker : ({ x with ensemble := s, poll := some (b, f.begin) } : Scene K).waker id =
        x.waker id := waker_eq hk
    rw [Holds, henv, hwaker]
    -- A poll that begins needs the future armed, unless it is the first.
    rw [ReadToEnd.begin]
    dsimp only
    split
    · trivial
    · split
      · next hstarted =>
        rcases hw with ⟨hw, -⟩ | hw
        · rw [hw] at hstarted
          cases hstarted
        · exact hw.1
      · trivial
  | reading hp₀ =>
    rw [hp₀] at hp
    cases hp
  | pended hp₀ hc₀ hi =>
    exact absurd htabled (ho.books.not_tabled_of_polled (mem_polled hc₀ hi))
  | ending hp₀ hc₀ hi =>
    exact absurd htabled (ho.books.not_tabled_of_polled (mem_polled hc₀ hi))
  | ended hp₀ hr hh => exact absurd htabled (ho.books.gone_of_settled hr hh).1

/-- The poll makes a step. -/
theorem Place.tick (hpl : Place rule id t x h) (hs : rule.sound x.environment.kernel) {b : Task}
    {p : ReadToEnd.Reading} {opening : ReadToEnd.Opening K} (hp : x.poll = some (b, p))
    (hf : b.reader? = some (f, opening)) :
    Place rule id t { x.withEnvironment (p.tick opening (x.waker id) x.environment).2 with
      poll := some (b, (p.tick opening (x.waker id) x.environment).1) } h := by
  cases hpl with
  | reading hp₀ hf₀ hc₀ hi ht hh =>
    obtain ⟨rfl, rfl⟩ := Prod.mk.inj (Option.some.inj (hp.symm.trans hp₀))
    obtain ⟨g, m⟩ := p
    refine .reading rfl hf hc₀ hi ((ReadToEnd.Reading.token_tick _ _).trans ht) ?_
    show ReadToEnd.Holds rule _ _ (x.News _ id) _ _
    rw [ReadToEnd.Reading.token_tick]
    exact ReadToEnd.Reading.holds_tick hs hh
  | _ hp₀ =>
    rw [hp₀] at hp
    cases hp

/-- The poll of the future has ended. -/
theorem Place.finish (hpl : Place rule id t x h) {b : Task} {r : Polled Bytes}
    {c : Call (World K) Task Value} {rest : List (Call (World K) Task Value)}
    (hp : x.poll = some (b, ⟨f, .complete r⟩)) (hc : x.machine.calls = c :: rest) :
    Place rule id t { x with
      ensemble := { x.ensemble with
        machine := { x.machine with calls := c.proceed (b.resume r f) :: rest } }
      poll := none } h := by
  cases hpl with
  | @reading _ _ _ _ _ _ inPlace hp₀ hf₀ hc₀ hi ht hh =>
    obtain ⟨rfl, rfl⟩ := Prod.mk.inj (Option.some.inj (hp.symm.trans hp₀))
    obtain ⟨rfl, rfl⟩ := List.cons.inj (hc.symm.trans hc₀)
    have hi' : (c.proceed (b.resume r f)).polls? = some (id, inPlace) := by
      rw [Call.polls?_proceed]
      exact hi
    by_cases hr : r = .ok .pending
    · obtain rfl := hr
      obtain ⟨b', hresume, hf'⟩ := Task.resume_pending b hf₀ f
      refine .pended rfl rfl hi' ?_ hf' ht hh
      rw [Call.program?_proceed hi, hresume]
    · exact .ending rfl rfl hi' (Call.program?_proceed hi) (Task.ends_resume b hf₀ hr f)
        (Task.flat_resume b r f)
  | _ hp₀ =>
    rw [hp₀] at hp
    cases hp

/-- **Every step** leaves the task at a place. -/
theorem Place.step (hpl : Place rule id t x h) (ho : x.machine.Ordered h)
    (hs : rule.sound x.environment.kernel) (ht : t ≠ Reactor.notifyToken)
    (hm : Step rule σ id t x n x') : Place rule id t x' (h ++ n) := by
  have hkernel {k : K} (hk : ∀ d, rule.watched x.environment.kernel
      ⟨x.environment.reactor.poller, d, t⟩ →
      rule.Spares ⟨x.environment.reactor.poller, d, t⟩ x.environment.kernel k) :
      x.environment.Spares rule t { x.environment with kernel := k } := ⟨rfl, rfl, hk⟩
  cases hm with
  | machine hstep hn hp he => exact hpl.machine ho hstep hn hp he
  | begin hstep hn hp hb hf => exact hpl.begin ho hstep hn hp hb hf
  | tick hp hf =>
    rw [List.append_nil]
    exact hpl.tick hs hp hf
  | finish hp hc =>
    rw [List.append_nil]
    exact hpl.finish hp hc
  | loop =>
    have hloop : Step rule σ id t x _ _ := .loop
    have hk := hloop.upkeep
    refine hpl.still rfl rfl (fun b hb ↦ hb) (fun ht hpa ↦ hk.passage.paused ho.books ht hpa) ?_
    exact fun _ f m hft hh ↦ hh.loop hs ho (by rwa [hft])
  | write d bytes => exact hpl.environment ho (hkernel fun _ hd ↦ rule.write d bytes hs hd)
  | close d hd hw =>
    refine hpl.environment ho (hkernel fun d' hd' ↦ rule.close ?_ hd hs hd')
    rintro rfl
    exact hw hd'

/-! ### Runs -/

/-- **A task has a future under a token that nobody has polled**: it is in the table, or it has just
been handed to a run to completion, which begins to poll it. -/
inductive Hosts (x : Scene K) (id : TaskId) (t : Token) : Prop
  /-- The task is in the table. -/
  | tabled {b f opening} (hp : x.poll = none) (hb : x.machine.body? id = some b)
      (hf : b.reader? (K := K) = some (f, opening)) (ht : f.token = t) (hs : f.started = false)
  /-- The active call begins to poll the task in place. -/
  | entered {b f opening c rest} (hp : x.poll = some (b, f.begin))
      (hf : b.reader? (K := K) = some (f, opening)) (hc : x.machine.calls = c :: rest)
      (hi : c.polls? = some (id, true)) (ht : f.token = t) (hs : f.started = false)

/-- A task that has not been polled is at a place. -/
theorem Hosts.place (hx : x.Hosts id t) (hnew : ∀ inPlace r, .ended id inPlace r ∉ h) :
    Place rule id t x h := by
  cases hx with
  | tabled hp hb hf ht hs =>
    refine .waiting hp hb hf ht (.inl ⟨hs, fun hpa ↦ ?_⟩)
    obtain ⟨k, hk, inPlace, rfl⟩ := hpa.exists_mem
    exact hnew inPlace _ hk
  | @entered _ f _ _ _ hp hf hc hi ht hs =>
    refine .reading hp hf hc hi ht ?_
    rw [ReadToEnd.begin, hs]
    dsimp only
    split <;> trivial

/-- **Every run** leaves the task at a place. -/
theorem Run.place (hr : Run rule σ id t x₀ h x) (hpl : Place rule id t x₀ h₁)
    (ho : x₀.machine.Ordered h₁) (ht : t ≠ Reactor.notifyToken)
    (hlen : (issuedIds (h₁ ++ h)).length ≤ UInt64.size) :
    Place rule id t x (h₁ ++ h) ∧ x.machine.Ordered (h₁ ++ h) := by
  induction hr with
  | refl =>
    rw [List.append_nil]
    exact ⟨hpl, ho⟩
  | @step h y n y' hr hm _ ih =>
    rw [← List.append_assoc] at hlen ⊢
    obtain ⟨hpl, ho⟩ := ih (length_issuedIds_le hlen)
    exact ⟨hpl.step ho hr.sound ht hm, hm.upkeep.ordered ho hlen⟩

/-- A task that is paused is in the table, and its future is covered. -/
theorem Place.covered (hpl : Place rule id t x h) (ho : x.machine.Ordered h) (hp : Paused id h) :
    ∃ b f opening, x.machine.body? id = some b ∧ b.reader? (K := K) = some (f, opening) ∧
      f.token = t ∧ f.Covered rule x.environment (x.News t id) := by
  have htabled := ho.books.tabled_of_paused hp
  cases hpl with
  | waiting _ hb hf ht hw =>
    obtain rfl := ht
    rcases hw with hw | hw
    · exact absurd hp hw.2
    · exact ⟨_, _, _, hb, hf, rfl, hw.2⟩
  | reading _ _ hc hi => exact absurd htabled (ho.books.not_tabled_of_polled (mem_polled hc hi))
  | pended _ hc hi => exact absurd htabled (ho.books.not_tabled_of_polled (mem_polled hc hi))
  | ending _ hc hi => exact absurd htabled (ho.books.not_tabled_of_polled (mem_polled hc hi))
  | ended _ hr hh => exact absurd htabled (ho.books.gone_of_settled hr hh).1

/-- **No read gets stuck.** A task has a future that nobody has polled; from then on, the executor,
the polls of the future, the loop of the reactor, the writer and everybody else take turns in any
order. Whenever the last poll has left the task pending and no other has begun, the task is in the
table, and if there is something to read, then an event is pending or waits to be dispatched, the
loop is about to push for the task, or the task is queued. -/
theorem no_stuck_read (rule : EdgeRule K) {site : Site (World K) Task} (hs : site.Fresh)
    {P : Ensemble (World K) Task Value → Prop}
    (hr₁ : Ensemble.Run Task.behaviour σ P (.start site) h₁ x₀.ensemble) (hx : x₀.Hosts id t)
    (hnew : ∀ inPlace r, .ended id inPlace r ∉ h₁) (ht : t ≠ Reactor.notifyToken)
    (hr : Run rule σ id t x₀ h x) (hlen : (issuedIds (h₁ ++ h)).length ≤ UInt64.size)
    (hp : Paused id (h₁ ++ h)) :
    ∃ b f opening, x.machine.body? id = some b ∧ b.reader? (K := K) = some (f, opening) ∧
      f.token = t ∧ (rule.readable x.environment.kernel f.owned.number →
        rule.pending x.environment.kernel (f.registration x.environment) ∨
          x.watch.Undispatched t ∨ x.watch.Pushes (x.waker id) ∨ id ∈ x.machine.site.ready) := by
  have hlaw := hr₁.law (Signals.Law.fresh hs)
  have ho : x₀.machine.Ordered h₁ :=
    ⟨hlaw, hr₁.numbered hs, hr₁.books hs (length_issuedIds_le hlen)⟩
  obtain ⟨hpl, ho⟩ := hr.place (hx.place hnew) ho ht hlen
  exact hpl.covered ho hp

/-! ### A byte for a task that is pending -/

/-- A host with a poller and a pipe. -/
def pipedHost : Host := (Host.openPipe (Host.createPoller default).2).2

/-- A future for the pipe. -/
def pipedReader : ReadToEnd := { owned := ⟨101⟩, token := 1, chunk := 4 }

/-- The poll of task `1` goes on if there is one, and else the machine; the poll begins when the
machine begins it. -/
def goOn (x : Scene Host) : Scene Host :=
  match x.poll, x.machine.calls with
  | some (b, ⟨f, .complete r⟩), c :: rest =>
    { x with
      ensemble := { x.ensemble with
        machine := { x.machine with calls := c.proceed (b.resume r f) :: rest } }
      poll := none }
  | some (b, p), _ =>
    { x.withEnvironment (p.tick .none (x.waker 1) x.environment).2 with
      poll := some (b, (p.tick .none (x.waker 1) x.environment).1) }
  | none, _ =>
    match x.machine.step? Task.behaviour .still, x.machine.body? 1 with
    | some ([.began 1 false], machine), some (.read f) =>
      { x with ensemble := { machine }, poll := some (.read f, f.begin) }
    | some (_, machine), _ => { x with ensemble := { machine } }
    | none, _ => x

/-- The future is handed to a run to completion: the scene after so many steps. -/
def piped : Nat → Scene Host
  | 0 =>
    { ensemble := { machine := (Machine.enter Task.behaviour (.blank
        { kernel := pipedHost, reactor := { poller := 100, running := true } }) []
          (.read pipedReader)).2 }
      poll := some (.read pipedReader, pipedReader.begin) }
  | n + 1 => goOn (piped n)

/-- The host is sound whatever happens to its one pipe, if both ends stay open. -/
theorem sound_piped {h : Host} (hf : h.files.entries.map (fun e ↦ (e.1, e.2.source)) =
      [(100, .poller 0), (101, .readEnd 0), (102, .writeEnd 0)])
    (hp : h.pollers.length = 1) (hr : (h.stream 0).reader = true) : h.Sound := by
  have hfind (d : Descriptor) (l : List (Descriptor × Host.OpenFile)) :
      (Table.find d l).map Host.OpenFile.source =
        Table.find d (l.map fun e ↦ (e.1, e.2.source)) := by
    induction l with
    | nil => rfl
    | cons e l ih =>
      rw [List.map_cons, Table.find, Table.find]
      split
      · rfl
      · exact ih
  have hsource (d : Descriptor) : h.source? d = if 100 = d then some (.poller 0)
      else if 101 = d then some (.readEnd 0) else if 102 = d then some (.writeEnd 0) else none := by
    rw [Host.source?, Table.get?, hfind, hf]
    rfl
  refine ⟨fun d n hd ↦ ?_, fun d i hd ↦ ?_, fun d i hd d' s hne hs hon ↦ ?_⟩
  · rw [hsource] at hd
    grind
  · rw [hsource] at hd
    grind
  · rw [hsource] at hd hs
    grind [Host.Source.On]

/-- What happens until the loop has polled the task once: it is pending each time. -/
def pipedNotes : List (Note Value) :=
  [.ended 1 true (.ok .pending), .entered 1, .began 1 false, .ended 1 false (.ok .pending)]

/-- So many steps lead to the first so many notes. -/
def PipedRun (steps notes : Nat) : Prop :=
  Run Host.edgeRule .still 1 1 (piped 0) (pipedNotes.take notes) (piped steps)

/-- The task is polled in place and by the loop, and finds nothing to read. -/
theorem run_piped : PipedRun 14 4 := by
  have hstart : PipedRun 0 0 := .refl (sound_piped rfl rfl rfl)
  have hopened : PipedRun 1 0 := hstart.step (.tick rfl rfl) (sound_piped rfl rfl rfl)
  have hunblocked : PipedRun 2 0 := hopened.step (.tick rfl rfl) (sound_piped rfl rfl rfl)
  have hchecked : PipedRun 3 0 := hunblocked.step (.tick rfl rfl) (sound_piped rfl rfl rfl)
  have hadded : PipedRun 4 0 := hchecked.step (.tick rfl rfl) (sound_piped rfl rfl rfl)
  have harmed : PipedRun 5 0 := hadded.step (.tick rfl rfl) (sound_piped rfl rfl rfl)
  have hread : PipedRun 6 0 := harmed.step (.tick rfl rfl) (sound_piped rfl rfl rfl)
  have hrearmed : PipedRun 7 0 := hread.step (.tick rfl rfl) (sound_piped rfl rfl rfl)
  have hpending : PipedRun 8 0 := hrearmed.step (.finish rfl rfl) (sound_piped rfl rfl rfl)
  have hentered : PipedRun 9 2 :=
    hpending.step (.machine (.turn (fun _ hc ↦ Option.mem_some.1 hc ▸ trivial) rfl) (by simp)
      (absurd rfl) fun _ ↦ ⟨rfl, rfl, fun _ hd ↦ .refl hd⟩) (sound_piped rfl rfl rfl)
  have hbegan : PipedRun 10 3 :=
    hentered.step (.begin (.turn (fun _ hc ↦ Option.mem_some.1 hc ▸ trivial) rfl)
      List.mem_cons_self rfl rfl rfl) (sound_piped rfl rfl rfl)
  have hreread : PipedRun 11 3 := hbegan.step (.tick rfl rfl) (sound_piped rfl rfl rfl)
  have hleft : PipedRun 12 3 := hreread.step (.tick rfl rfl) (sound_piped rfl rfl rfl)
  have hagain : PipedRun 13 3 := hleft.step (.finish rfl rfl) (sound_piped rfl rfl rfl)
  exact hagain.step (.machine (.turn (fun _ hc ↦ Option.mem_some.1 hc ▸ trivial) rfl) (by simp)
    (absurd rfl) fun _ ↦ ⟨rfl, rfl, fun _ hd ↦ .refl hd⟩) (sound_piped rfl rfl rfl)

/-- A byte is written while the task is pending and not queued: news of it are on their way. -/
theorem no_stuck_read_piped :
    ∃ x h, Run Host.edgeRule .still 1 1 (piped 0) h x ∧
      Paused 1 ([.issued 1, .began 1 true] ++ h) ∧ 1 ∉ x.machine.site.ready ∧
      Host.edges.readable x.environment.kernel 101 ∧
      (Host.edges.pending x.environment.kernel ⟨100, 101, 1⟩ ∨ x.watch.Undispatched 1 ∨
        x.watch.Pushes (x.waker 1)) := by
  have hwritten := run_piped.step (.write 102 [7]) (sound_piped rfl rfl rfl)
  have hbegan : Ensemble.Run (V := Value) Task.behaviour .still (fun _ ↦ True) (.start (.blank _))
      [.issued 1, .began 1 true] (piped 0).ensemble := .single (.blockOn _ rfl rfl) trivial
  have hpaused : Paused 1 ([.issued 1, .began 1 true] ++ (pipedNotes ++ [])) :=
    ⟨.issued 1 :: .began 1 true :: pipedNotes.take 3, _, [], rfl, ⟨false, rfl⟩, by simp⟩
  have hhosts : (piped 0).Hosts 1 1 := .entered rfl rfl rfl rfl rfl rfl
  obtain ⟨b, f, opening, hb, hf, -, hc⟩ := no_stuck_read Host.edgeRule (Site.fresh_blank _) hbegan
    hhosts (by simp) (by decide) hwritten (by decide) hpaused
  obtain rfl : _ = b := Option.some.inj hb
  obtain rfl : _ = f := (Prod.mk.inj (Option.some.inj hf)).1
  have hready : 1 ∉ ((piped 14).onKernel fun k ↦ (Kernel.write k 102 [7]).2).machine.site.ready :=
    List.not_mem_nil
  have hreadable : Host.edges.readable ((piped 14).onKernel fun k ↦
      (Kernel.write k 102 [7]).2).environment.kernel 101 := ⟨0, rfl, .inl nofun⟩
  refine ⟨_, _, hwritten, hpaused, hready, hreadable, ?_⟩
  rcases hc hreadable with hpending | hevent | hpush | hqueued
  · exact .inl hpending
  · exact .inr (.inl hevent)
  · exact .inr (.inr hpush)
  · exact absurd hqueued hready

end Scene

end TaskRuntime
