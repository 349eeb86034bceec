import Mathlib.Algebra.Group.Nat.Defs
import TaskRuntime.Proofs.Armed
import TaskRuntime.Proofs.HostEdges

/-!
# The capacity for events only cuts them into batches

The loop of the reactor asks for at most so many events at once as its buffer has room for. How many
that is comes from the requested capacity, through two limits and a buffer that each wait empties
and fills again.

`QueueRule` says what a kernel does with events that are waiting, to which none are added: a wait
hands over the first ones in order, as many as are asked for, and keeps the others; or it is
interrupted and keeps them all. With such a kernel, the loop handles the events in order, however it
is interrupted (`Reactor.rounds`). So two loops with the same wakers and the same events
waiting make the same wakes, whatever capacities have been requested for them
(`Reactor.same_wakes`). The number of events that is asked for is the same in all rounds of a loop,
with any kernel and after any failure (`Reactor.count_turns`).
-/

namespace TaskRuntime

/-- **The rule of the queue of events** that wait to be handed over. -/
structure QueueRule (K : Type) [Kernel K] where
  /-- These events wait at a poller, in this order, for a loop that has a certain notifier; none are
  added. -/
  waiting : K → Descriptor → Descriptor → List Event → Prop
  /-- A wait for some events is interrupted, or hands over the first ones. -/
  wait : ∀ {k : K} {p d : Descriptor} {l : List Event} {n : Nat}, waiting k p d l → 0 < n →
    (∃ k', Kernel.wait k p n none = (.error .interrupted, k') ∧ waiting k' p d l) ∨
      ∃ k', Kernel.wait k p n none = (.ok (l.take n), k') ∧ waiting k' p d (l.drop n)
  /-- Reading the notifier leaves them alone. -/
  read : ∀ {k : K} {p d : Descriptor} {l : List Event} (n : Nat), waiting k p d l →
    waiting (Kernel.read k d n).2 p d l

/-- Emptying the notifier leaves waiting events alone. -/
theorem QueueRule.drainNotifier {K : Type} [Kernel K] (rule : QueueRule K) {p d : Descriptor}
    {l : List Event} (k : K) (hw : rule.waiting k p d l) :
    rule.waiting (Reactor.drainNotifier d k) p d l := by
  fun_induction Reactor.drainNotifier d k with
  | case1 k b bs k' h ih =>
    have hread := rule.read 8 hw
    rw [h] at hread
    exact ih hread
  | case2 k x k' hne h =>
    have hread := rule.read 8 hw
    rwa [h] at hread

/-! ### How many events are asked for -/

/-- A capacity in use is at least one and at most the maximum. -/
theorem Config.clampCapacity_mem (requested : Nat) :
    1 ≤ clampCapacity requested ∧ clampCapacity requested ≤ maxEventCapacity := by
  unfold clampCapacity maxEventCapacity
  split <;> omega

/-- **A wait** leaves the number of events that the buffer asks for as it is, whether it fails or
not. -/
theorem EventBuffer.count_waited (b : EventBuffer) (events : List Event) :
    count ⟨max b.capacity b.count, events⟩ = b.count := by
  simp only [count, maxCount]
  omega

/-- A buffer with room for a capacity in use asks for that many events. -/
theorem EventBuffer.count_clampCapacity (requested : Nat) (events : List Event) :
    count ⟨Config.clampCapacity requested, events⟩ = Config.clampCapacity requested := by
  have hclamp := Config.clampCapacity_mem requested
  simp only [count, maxCount, Config.maxEventCapacity] at hclamp ⊢
  omega

namespace Reactor

variable {K : Type} [Kernel K]

/-- What a round does to the buffer does not depend on how the wait ends. -/
theorem buffer_turn (r : Reactor) (s : System K) :
    ∃ events, (r.turn s).2.1.buffer = ⟨max r.buffer.capacity r.buffer.count, events⟩ := by
  unfold turn Poller.wait
  dsimp only
  rcases s.call (Kernel.wait · r.poller r.buffer.count none) with ⟨e | events, s⟩
  · dsimp only
    split <;> exact ⟨[], rfl⟩
  · exact ⟨events, rfl⟩

/-- **The number of events that is asked for** is the same in all rounds. -/
theorem count_turns (n : Nat) (r : Reactor) (s : System K) :
    (turns n r s).2.1.buffer.count = r.buffer.count := by
  induction n generalizing r s with
  | zero => rfl
  | succ n ih =>
    rw [turns]
    split
    · obtain ⟨events, hbuffer⟩ := buffer_turn r s
      dsimp only
      rw [ih, hbuffer, EventBuffer.count_waited]
    · rfl

/-! ### Rounds -/

/-- The wakes for some events, in order. -/
def lookups (wakers : Table Token Waker) (events : List Event) : List Waker :=
  events.filterMap fun e ↦ if e.token = notifyToken then none else wakers.get? e.token

/-- **The events that are handled** in so many rounds: those of one batch after the other. -/
def handled : Nat → Reactor → System K → List Event
  | 0, _, _ => []
  | n + 1, r, s =>
    if r.running then
      let (_, r, s) := r.turn s
      r.buffer.events ++ handled n r s
    else []

/-- How many waits are interrupted in so many rounds. -/
def interruptions : Nat → Reactor → System K → Nat
  | 0, _, _ => 0
  | n + 1, r, s =>
    if r.running then
      let more := interruptions n (r.turn s).2.1 (r.turn s).2.2
      match (Kernel.wait s.kernel r.poller r.buffer.count none).1 with
      | .error e => if e = .interrupted then more + 1 else more
      | .ok _ => more
    else 0

/-- The wakes of a batch are those of its events. -/
theorem dispatchAll_fst (r : Reactor) (events : List Event) (s : System K) :
    (r.dispatchAll events s).1 = lookups r.wakers events := by
  induction events generalizing s with
  | nil => rfl
  | cons e rest ih =>
    rw [dispatchAll, lookups, List.filterMap_cons, ← dispatch_fst r s e]
    dsimp only
    rw [ih]
    cases (r.dispatch s e).1 <;> rfl

variable (rule : QueueRule K) {r : Reactor} {s : System K} {pending : List Event}

/-- Dispatching leaves waiting events alone. -/
theorem waiting_dispatchAll (events : List Event)
    (hw : rule.waiting s.kernel r.poller r.notifier pending) :
    rule.waiting (r.dispatchAll events s).2.kernel r.poller r.notifier pending := by
  induction events generalizing s with
  | nil => exact hw
  | cons e rest ih =>
    refine @ih (r.dispatch s e).2 ?_
    rw [dispatch_kernel]
    split
    · exact rule.drainNotifier s.kernel hw
    · exact hw

/-- What a round has come to: it has taken a batch, and left the rest. -/
structure Round (rule : QueueRule K) (r : Reactor) (batch rest : List Event) (ws : List Waker)
    (r' : Reactor) (s' : System K) : Prop where
  /-- Only the buffer of the loop has changed, and it asks for as many events as before. -/
  reactor : ∃ capacity, r' = { r with buffer := ⟨capacity, batch⟩ } ∧
    r'.buffer.count = r.buffer.count
  /-- The rest goes on waiting. -/
  waiting : rule.waiting s'.kernel r.poller r.notifier rest
  /-- The wakes are those of the batch. -/
  wakes : ws = lookups r.wakers batch

/-- **A round** is interrupted, or takes the first events, as many as are asked for. -/
theorem round_cases (hw : rule.waiting s.kernel r.poller r.notifier pending)
    (hc : 0 < r.buffer.count) :
    (Kernel.wait s.kernel r.poller r.buffer.count none).1 = .error .interrupted ∧
        Round rule r [] pending (r.turn s).1 (r.turn s).2.1 (r.turn s).2.2 ∨
      (∃ events, (Kernel.wait s.kernel r.poller r.buffer.count none).1 = .ok events) ∧
        Round rule r (pending.take r.buffer.count) (pending.drop r.buffer.count)
          (r.turn s).1 (r.turn s).2.1 (r.turn s).2.2 := by
  have hcount (events : List Event) := EventBuffer.count_waited r.buffer events
  rcases rule.wait hw hc with ⟨k, hk, hrest⟩ | ⟨k, hk, hrest⟩
  · have hturn : r.turn s =
        ([], { r with buffer := ⟨max r.buffer.capacity r.buffer.count, []⟩ },
          { s with kernel := k }) := by
      rw [turn, Poller.wait, System.call, hk]
      rfl
    rw [hturn]
    exact .inl ⟨by rw [hk], ⟨_, rfl, hcount _⟩, hrest, rfl⟩
  · have hturn : r.turn s =
        ((r.dispatchAll (pending.take r.buffer.count) { s with kernel := k }).1,
          { r with buffer := ⟨max r.buffer.capacity r.buffer.count,
            pending.take r.buffer.count⟩ },
          (r.dispatchAll (pending.take r.buffer.count) { s with kernel := k }).2) := by
      rw [turn, Poller.wait, System.call, hk]
    rw [hturn]
    exact .inr ⟨⟨_, by rw [hk]⟩, ⟨_, rfl, hcount _⟩, waiting_dispatchAll rule _ hrest,
      dispatchAll_fst r _ _⟩

/-- After a round the loop is ready for the next one. -/
theorem Round.next {batch rest : List Event} {ws : List Waker} {r' : Reactor} {s' : System K}
    (hround : Round rule r batch rest ws r' s') (hr : r.running = true)
    (hc : 0 < r.buffer.count) :
    r'.running = true ∧ 0 < r'.buffer.count ∧
      rule.waiting s'.kernel r'.poller r'.notifier rest := by
  obtain ⟨⟨capacity, rfl, hcount⟩, hwaiting, -⟩ := hround
  exact ⟨hr, hcount ▸ hc, hwaiting⟩

/-- **What some rounds have come to**, when events were waiting at the beginning. -/
structure Rounds (rule : QueueRule K) (r : Reactor) (s : System K) (pending : List Event)
    (n : Nat) : Prop where
  /-- No more waits have been interrupted than there were. -/
  interruptions_le : interruptions n r s ≤ n
  /-- The first events have been handled in order: as many for each wait that was not interrupted as
  are asked for. -/
  handled : handled n r s = pending.take ((n - interruptions n r s) * r.buffer.count)
  /-- The others go on waiting. -/
  waiting : rule.waiting (turns n r s).2.2.kernel r.poller r.notifier
    (pending.drop ((n - interruptions n r s) * r.buffer.count))
  /-- The wakes are those of the events that have been handled. -/
  wakes : (turns n r s).1 = lookups r.wakers (Reactor.handled n r s)
  /-- The loop goes on, with the same wakers. -/
  reactor : ∃ buffer, (turns n r s).2.1 = { r with buffer }

theorem turns_succ (n : Nat) (s : System K) (hr : r.running = true) :
    turns (n + 1) r s = ((r.turn s).1 ++ (turns n (r.turn s).2.1 (r.turn s).2.2).1,
      (turns n (r.turn s).2.1 (r.turn s).2.2).2) := by
  rw [turns, if_pos hr]

theorem handled_succ (n : Nat) (s : System K) (hr : r.running = true) :
    handled (n + 1) r s =
      (r.turn s).2.1.buffer.events ++ handled n (r.turn s).2.1 (r.turn s).2.2 := by
  rw [handled, if_pos hr]

/-- A round that is interrupted, and then some others. -/
theorem Rounds.interrupted {n : Nat} (hr : r.running = true)
    (hwait : (Kernel.wait s.kernel r.poller r.buffer.count none).1 = .error .interrupted)
    (hround : Round rule r [] pending (r.turn s).1 (r.turn s).2.1 (r.turn s).2.2)
    (hrest : Rounds rule (r.turn s).2.1 (r.turn s).2.2 pending n) :
    Rounds rule r s pending (n + 1) := by
  obtain ⟨capacity, hreactor, hcount⟩ := hround.reactor
  obtain ⟨hle, htake, hdrop, hwakes, buffer, hbuffer⟩ := hrest
  have hinterruptions : interruptions (n + 1) r s =
      interruptions n (r.turn s).2.1 (r.turn s).2.2 + 1 := by
    rw [interruptions, if_pos hr, hwait]
    exact if_pos rfl
  rw [hcount] at htake hdrop
  refine ⟨by omega, ?_, ?_, ?_, buffer, ?_⟩
  · rw [hinterruptions, Nat.add_sub_add_right, handled_succ n s hr, htake, hreactor,
      List.nil_append]
  · rw [hinterruptions, Nat.add_sub_add_right, turns_succ n s hr]
    rw [hreactor] at hdrop ⊢
    exact hdrop
  · rw [turns_succ n s hr, handled_succ n s hr, hround.wakes, hwakes, hreactor]
    rfl
  · rw [turns_succ n s hr, hbuffer, hreactor]

/-- A round that takes a batch, and then some others. -/
theorem Rounds.batch {n : Nat} {events : List Event} (hr : r.running = true)
    (hwait : (Kernel.wait s.kernel r.poller r.buffer.count none).1 = .ok events)
    (hround : Round rule r (pending.take r.buffer.count) (pending.drop r.buffer.count)
      (r.turn s).1 (r.turn s).2.1 (r.turn s).2.2)
    (hrest : Rounds rule (r.turn s).2.1 (r.turn s).2.2 (pending.drop r.buffer.count) n) :
    Rounds rule r s pending (n + 1) := by
  obtain ⟨capacity, hreactor, hcount⟩ := hround.reactor
  obtain ⟨hle, htake, hdrop, hwakes, buffer, hbuffer⟩ := hrest
  have hinterruptions : interruptions (n + 1) r s =
      interruptions n (r.turn s).2.1 (r.turn s).2.2 := by
    rw [interruptions, if_pos hr, hwait]
  have hmore : (n + 1 - interruptions (n + 1) r s) * r.buffer.count = r.buffer.count +
      (n - interruptions n (r.turn s).2.1 (r.turn s).2.2) * r.buffer.count := by
    rw [hinterruptions, Nat.succ_sub hle, Nat.succ_mul, Nat.add_comm]
  rw [hcount] at htake hdrop
  refine ⟨by omega, ?_, ?_, ?_, buffer, ?_⟩
  · rw [hmore, List.take_add, handled_succ n s hr, htake, hreactor]
  · rw [hmore, ← List.drop_drop, turns_succ n s hr]
    rw [hreactor] at hdrop ⊢
    exact hdrop
  · rw [turns_succ n s hr, handled_succ n s hr, hround.wakes, hwakes, hreactor]
    exact List.filterMap_append.symm
  · rw [turns_succ n s hr, hbuffer, hreactor]

/-- **Rounds** cut the waiting events into batches. -/
theorem rounds (n : Nat) (hr : r.running = true) (hc : 0 < r.buffer.count)
    (hw : rule.waiting s.kernel r.poller r.notifier pending) : Rounds rule r s pending n := by
  induction n generalizing r s pending with
  | zero => exact ⟨Nat.le_refl _, by simp [handled], by simpa [turns] using hw, rfl, r.buffer, rfl⟩
  | succ n ih =>
    rcases round_cases rule hw hc with ⟨hwait, hround⟩ | ⟨⟨events, hwait⟩, hround⟩
    · obtain ⟨hr', hc', hw'⟩ := hround.next rule hr hc
      exact .interrupted rule hr hwait hround (ih hr' hc' hw')
    · obtain ⟨hr', hc', hw'⟩ := hround.next rule hr hc
      exact .batch rule hr hwait hround (ih hr' hc' hw')

end Reactor

/-! ### The queue of a host -/

namespace Host

/-- The event that a poller has to hand over for a descriptor. -/
def owed (h : Host) (p : Poller) (d : Descriptor) : Event :=
  (p.interest? d).elim {} fun j ↦ ⟨h.report j, j.event.token⟩

/-- A descriptor that a poller has to report on, and that is registered for changes. -/
def Due (h : Host) (p : Poller) (d : Descriptor) : Prop :=
  ∃ j, p.interest? d = some j ∧ Interests.meets j.event.events Interests.edge = true ∧
    h.report j ≠ 0

/-- **Events of changes** wait at a poller of a host: one for each descriptor in its queue, and none
of these shares a stream with the notifier. -/
structure Queues (h : Host) (poller notifier : Descriptor) (l : List Event) (n i : Nat)
    (p : Poller) : Prop where
  /-- The poller is there. -/
  behind : h.Behind poller n p
  /-- So is the notifier. -/
  source : h.source? notifier = some (.notifier i)
  /-- All that is queued is to be reported. -/
  due : ∀ d ∈ p.queue, h.Due p d
  /-- The notifier has its stream for itself. -/
  apart : ∀ d ∈ p.queue, ∀ s, h.source? d = some s → ¬ s.On i
  /-- These are the events. -/
  events : p.queue.map (h.owed p) = l

section

variable {h : Host} {p : Poller} {poller d : Descriptor} {l : List Event} {n i : Nat}

/-- **Going through a queue** of descriptors that are all to be reported: the first ones are, and
none of them goes back to the tail. -/
theorem collect_of_due (count : Nat) (queue : List Descriptor) (hq : ∀ d ∈ queue, h.Due p d) :
    (h.collect p count queue).1 = (queue.take count).map (h.owed p) ∧
      (h.collect p count queue).2.1 = queue.drop count ∧
      ∀ j ∈ (h.collect p count queue).2.2,
        Interests.meets j.event.events Interests.edge = true := by
  fun_induction collect h p count queue with
  | case1 => simp
  | case2 queue => simp
  | case3 count d rest hnone =>
    obtain ⟨j, hj, -⟩ := hq d List.mem_cons_self
    cases hnone.symm.trans hj
  | case4 count d rest k hk events hzero =>
    obtain ⟨j, hj, -, hne⟩ := hq d List.mem_cons_self
    obtain rfl := Option.some.inj (hk.symm.trans hj)
    exact absurd hzero hne
  | case5 count d rest k hk events hne reported left again hrest ih =>
    obtain ⟨hreported, hleft, hagain⟩ := ih fun d hd ↦ hq d (List.mem_cons_of_mem _ hd)
    rw [hrest] at hreported hleft hagain
    obtain ⟨j, hj, hedge, -⟩ := hq d List.mem_cons_self
    obtain rfl := Option.some.inj (hk.symm.trans hj)
    refine ⟨?_, hleft, List.forall_mem_cons.2 ⟨hedge, hagain⟩⟩
    have howed : h.owed p d = ⟨events, k.event.token⟩ := by rw [owed, hj]; rfl
    rw [List.take_succ_cons, List.map_cons, howed, ← hreported]

/-- **A wait** takes the first events out of the queue. -/
theorem Queues.wait (hq : h.Queues poller d l n i p) (count : Nat) :
    ∃ h' q, h'.Queues poller d (l.drop count) n i q ∧
      (h.wait poller count none = (.ok (l.take count), h') ∨
        l.take count = [] ∧ h.wait poller count none = (.error .interrupted, h')) := by
  obtain ⟨hevents, hleft, hagain⟩ := collect_of_due count p.queue hq.due
  have hnone : (h.collect p count p.queue).2.2.filter
      (fun j ↦ !Interests.meets j.event.events Interests.edge) = [] :=
    List.filter_eq_nil_iff.2 fun j hj ↦ by simp [hagain j hj]
  rw [List.map_take, hq.events] at hevents
  unfold Host.wait
  rw [hq.behind.1, hq.behind.poller?]
  dsimp only
  rw [hnone, hleft, hevents, List.map_nil, List.append_nil]
  refine ⟨h.setPoller n { p with queue := p.queue.drop count }, _,
    ⟨hq.behind.setPoller _, hq.source, fun d hd ↦ hq.due d (List.mem_of_mem_drop hd),
      fun d hd ↦ hq.apart d (List.mem_of_mem_drop hd), ?_⟩, ?_⟩
  · rw [← hq.events, ← List.map_drop]
    rfl
  · split
    · next hinterrupted => exact .inr ⟨List.isEmpty_iff.1 hinterrupted.1, rfl⟩
    · exact .inl rfl

/-- What holds on a source is a matter of its own streams. -/
theorem conditions_setStream {s : Source} (hs : ¬ s.On i) (z : Stream) :
    (h.setStream i z).conditions s = h.conditions s := by
  have hne {j : Nat} (hj : ¬ j = i) : (h.setStream i z).stream j = h.stream j :=
    stream_setStream_of_ne h z (Ne.symm hj)
  cases s with
  | readEnd j => simp only [conditions, hne hs]
  | writeEnd j => simp only [conditions, hne hs]
  | notifier j => simp only [conditions, hne hs]
  | connection j k =>
    obtain ⟨hj, hk⟩ := not_or.1 hs
    simp only [conditions, hne hj, hne hk]
  | _ => rfl

/-- **Reading the notifier** leaves waiting events alone. -/
theorem Queues.read (hq : h.Queues poller d l n i p) (count : Nat) :
    (h.read d count).2.Queues poller d l n i p := by
  unfold Host.read
  rw [hq.source]
  dsimp only
  split
  · exact hq
  · have hreport {x : Descriptor} {j : Interest} (hx : x ∈ p.queue) (hj : p.interest? x = some j) :
        (h.setStream i { h.stream i with content := [] }).report j = h.report j := by
      have hfind : p.interests.find? (·.descriptor = x) = some j := hj
      have hdescriptor : j.descriptor = x := by simpa using List.find?_some hfind
      unfold report
      show (Option.elim (h.source? j.descriptor) 0 _) &&& _ = _
      rw [hdescriptor]
      cases hs : h.source? x with
      | none => rfl
      | some s =>
        show Host.conditions _ s &&& _ = _
        rw [conditions_setStream (hq.apart x hx s hs)]
        rfl
    refine ⟨hq.behind, hq.source, fun x hx ↦ ?_, hq.apart, ?_⟩
    · obtain ⟨j, hj, hedge, hne⟩ := hq.due x hx
      exact ⟨j, hj, hedge, by rwa [hreport hx hj]⟩
    · rw [← hq.events]
      refine List.map_congr_left fun x hx ↦ ?_
      obtain ⟨j, hj, -⟩ := hq.due x hx
      rw [owed, owed, hj]
      exact congrArg (Event.mk · j.event.token) (hreport hx hj)

end

/-- **A host keeps to the rule of the queue**, as far as changes are concerned. -/
def queueRule : QueueRule Host where
  waiting h poller notifier l := ∃ n i p, h.Queues poller notifier l n i p
  wait := by
    rintro h poller d l count ⟨n, i, p, hq⟩ hc
    obtain ⟨h', q, hq', hwait | ⟨hnone, hwait⟩⟩ := hq.wait count
    · exact .inr ⟨h', hwait, n, i, q, hq'⟩
    · obtain rfl : l = [] := by
        rcases List.take_eq_nil_iff.1 hnone with rfl | hl
        · exact absurd hc (Nat.lt_irrefl 0)
        · exact hl
      exact .inl ⟨h', hwait, n, i, q, by simpa using hq'⟩
  read := by
    rintro h poller d l count ⟨n, i, p, hq⟩
    exact ⟨n, i, p, hq.read count⟩

end Host

namespace Reactor

variable {K : Type} [Kernel K] {rule : QueueRule K} {r : Reactor} {s : System K}
  {pending : List Event}

/-! ### Two capacities -/

/-- A loop has been launched for which some capacity was requested; wakers have been left since, and
tokens issued. -/
def Launched (K : Type) [Kernel K] (requested : Nat) (wakers : Table Token Waker) (r : Reactor) :
    Prop :=
  ∃ (s₀ s₁ s₂ s₃ : System K) (r₀ r₁ : Reactor), create requested s₀ = (.ok r₀, s₁) ∧
    r₀.start s₂ = (.ok (), r₁, s₃) ∧ r = { r₁ with wakers, nextToken := r.nextToken }

variable {requested : Nat} {wakers : Table Token Waker}

/-- **A loop that has been launched** runs, and asks for as many events as the capacity in use. -/
theorem Launched.spec (h : Launched K requested wakers r) :
    r.running = true ∧ r.buffer.count = Config.clampCapacity requested ∧ r.wakers = wakers := by
  obtain ⟨s₀, s₁, s₂, s₃, r₀, r₁, hcreate, hstart, hr⟩ := h
  obtain ⟨poller, notifier, rfl⟩ := exists_of_create hcreate
  unfold start at hstart
  split at hstart
  · cases hstart
  · obtain ⟨-, hr₁⟩ := Prod.mk.inj hstart
    obtain ⟨rfl, -⟩ := Prod.mk.inj hr₁
    rw [hr]
    refine ⟨rfl, ?_, rfl⟩
    exact EventBuffer.count_clampCapacity requested []

/-- **What a loop makes of waiting events**, with some wakers and a requested capacity. -/
structure Handles (rule : QueueRule K) (requested : Nat) (wakers : Table Token Waker)
    (pending : List Event) (r : Reactor) (s : System K) : Prop where
  /-- Every wait asks for between one event and the maximum, and always for the same number, with
  whatever system and after whatever failures. -/
  count : ∀ (n : Nat) (s : System K),
    (turns n r s).2.1.buffer.count = Config.clampCapacity requested ∧
      1 ≤ Config.clampCapacity requested ∧ Config.clampCapacity requested ≤ 65536
  /-- At any time, the events that have been handled and those that wait are the events of the
  beginning, each of them once and in order, and the wakes are those of the events that have been
  handled. The loop goes on, with the same wakers. -/
  order : ∀ n, ∃ rest, handled n r s ++ rest = pending ∧
    rule.waiting (turns n r s).2.2.kernel r.poller r.notifier rest ∧
    (turns n r s).1 = lookups wakers (handled n r s) ∧
    (turns n r s).2.1.running = true ∧ (turns n r s).2.1.wakers = wakers
  /-- As soon as the waits that were not interrupted have had room for all events, none is left. -/
  finished : ∀ n, pending.length ≤ (n - interruptions n r s) * Config.clampCapacity requested →
    handled n r s = pending ∧
    rule.waiting (turns n r s).2.2.kernel r.poller r.notifier [] ∧
    (turns n r s).1 = lookups wakers pending
  /-- That is so after as many waits as there were events, and as many as are ever interrupted. -/
  soon : ∀ b, (∀ n, interruptions n r s ≤ b) → ∀ n, pending.length + b ≤ n →
    pending.length ≤ (n - interruptions n r s) * Config.clampCapacity requested

/-- **A loop that has been launched** handles all waiting events. -/
theorem Launched.handles (h : Launched K requested wakers r)
    (hw : rule.waiting s.kernel r.poller r.notifier pending) :
    Handles rule requested wakers pending r s := by
  obtain ⟨hr, hcount, rfl⟩ := h.spec
  have hclamp := Config.clampCapacity_mem requested
  have hrounds (n : Nat) := rounds rule n hr (by omega) hw
  refine ⟨fun n s ↦ ⟨(count_turns n r s).trans hcount, hclamp⟩, fun n ↦ ?_, fun n hn ↦ ?_,
    fun b hb n hn ↦ ?_⟩
  · obtain ⟨-, htake, hdrop, hwakes, buffer, hbuffer⟩ := hrounds n
    refine ⟨_, ?_, hdrop, hwakes, ?_, ?_⟩
    · rw [htake, List.take_append_drop]
    · rw [hbuffer]
      exact hr
    · rw [hbuffer]
  · obtain ⟨-, htake, hdrop, hwakes, -⟩ := hrounds n
    rw [hcount] at htake hdrop
    rw [List.take_of_length_le hn] at htake
    rw [List.drop_of_length_le hn] at hdrop
    rw [htake] at hwakes
    exact ⟨htake, hdrop, hwakes⟩
  · have hb := hb n
    exact Nat.le_trans (by omega) (Nat.le_mul_of_pos_right _ hclamp.1)

/-- **The capacity for events only cuts them into batches.** -/
theorem same_wakes {K₁ K₂ : Type} [Kernel K₁] [Kernel K₂] (rule₁ : QueueRule K₁)
    (rule₂ : QueueRule K₂) {requested₁ requested₂ : Nat} {wakers : Table Token Waker}
    {pending : List Event} {r₁ r₂ : Reactor} {s₁ : System K₁} {s₂ : System K₂}
    (h₁ : Launched K₁ requested₁ wakers r₁) (h₂ : Launched K₂ requested₂ wakers r₂)
    (hw₁ : rule₁.waiting s₁.kernel r₁.poller r₁.notifier pending)
    (hw₂ : rule₂.waiting s₂.kernel r₂.poller r₂.notifier pending) :
    Handles rule₁ requested₁ wakers pending r₁ s₁ ∧
      Handles rule₂ requested₂ wakers pending r₂ s₂ ∧
      ∀ n₁ n₂,
        pending.length ≤ (n₁ - interruptions n₁ r₁ s₁) * Config.clampCapacity requested₁ →
        pending.length ≤ (n₂ - interruptions n₂ r₂ s₂) * Config.clampCapacity requested₂ →
        (turns n₁ r₁ s₁).1 = (turns n₂ r₂ s₂).1 := by
  have hh₁ := h₁.handles hw₁
  have hh₂ := h₂.handles hw₂
  refine ⟨hh₁, hh₂, fun n₁ n₂ hn₁ hn₂ ↦ ?_⟩
  rw [(hh₁.finished n₁ hn₁).2.2, (hh₂.finished n₂ hn₂).2.2]

/-! ### An example -/

/-- The wakers of two tokens. -/
def bellringers : Table Token Waker :=
  (Table.empty.insert 5 ⟨some ⟨0⟩, 7, some ⟨0⟩⟩).insert 6 ⟨some ⟨0⟩, 8, some ⟨0⟩⟩

/-- A loop that has been launched on a new host. -/
def belfry (requested : Nat) : Reactor where
  poller := 100
  notifier := 101
  capacity := Config.clampCapacity requested
  started := true
  running := true
  wakers := bellringers
  buffer := ⟨Config.clampCapacity requested, []⟩

/-- The host with two pipes that have been registered for changes and then been written to. Signals
arrive, so a wait is interrupted when there is nothing left to hand over. -/
def ringing : System Host where
  kernel :=
    let h : Host := (create 0 { kernel := default }).2.kernel
    let h := (Host.openPipe (Host.openPipe h).2).2
    let h := (h.add 100 102 ⟨Interests.readable ||| Interests.edge, 5⟩).2
    let h := (h.add 100 104 ⟨Interests.readable ||| Interests.edge, 6⟩).2
    { ((h.write 105 [1]).2.write 103 [1]).2 with signalled := true }

theorem launched_belfry (requested : Nat) :
    Launched Host requested bellringers (belfry requested) :=
  ⟨{ kernel := default }, _, { kernel := default }, _, _, _, rfl, rfl, rfl⟩

theorem waiting_ringing : Host.queueRule.waiting ringing.kernel 100 101 [⟨1, 6⟩, ⟨1, 5⟩] := by
  have hqueue {d : Descriptor} (hd : d ∈ ([104, 102] : List Descriptor)) : d = 104 ∨ d = 102 := by
    simpa using hd
  refine ⟨0, 0, _, ⟨rfl, rfl⟩, rfl, fun d hd ↦ ?_, fun d hd s hs ↦ ?_, rfl⟩
  · obtain rfl | rfl := hqueue hd
    · exact ⟨_, rfl, by decide, by decide⟩
    · exact ⟨_, rfl, by decide, by decide⟩
  · obtain rfl | rfl := hqueue hd
    · obtain rfl : Host.Source.readEnd 2 = s := Option.some.inj hs
      simp [Host.Source.On]
    · obtain rfl : Host.Source.readEnd 1 = s := Option.some.inj hs
      simp [Host.Source.On]

/-- Two loops that fetch one event at once and as many as possible wake the same two wakers. -/
theorem same_wakes_ringing :
    Handles Host.queueRule 0 bellringers [⟨1, 6⟩, ⟨1, 5⟩] (belfry 0) ringing ∧
      Handles Host.queueRule (2 ^ 64 - 1) bellringers [⟨1, 6⟩, ⟨1, 5⟩] (belfry (2 ^ 64 - 1))
        ringing ∧
      (turns 2 (belfry 0) ringing).1 = (turns 3 (belfry (2 ^ 64 - 1)) ringing).1 := by
  obtain ⟨hleast, hmost, hsame⟩ := same_wakes Host.queueRule Host.queueRule (launched_belfry 0)
    (launched_belfry (2 ^ 64 - 1)) waiting_ringing waiting_ringing
  refine ⟨hleast, hmost, hsame 2 3 ?_ ?_⟩
  · decide
  · decide

end Reactor

end TaskRuntime
