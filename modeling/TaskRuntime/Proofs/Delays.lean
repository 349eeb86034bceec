import TaskRuntime.Kernel.Host
import TaskRuntime.Proofs.CommandLines
import TaskRuntime.Proofs.DuringPoll
import TaskRuntime.Proofs.Targets
import TaskRuntime.Task.Behaviour

/-!
# The delays that the demo asks for

Of `k` requests of the main task, request `i` is to ask for `k - i` units of delay
(`Demo.FanOut.due`), and the delay server is to hear just that (`Demo.Fetch.AsDocumented`). The
number of requests and the number of milliseconds in a unit are each at most what 32 bits can hold,
and their product is computed in 32 bits as well. So a request is as documented exactly when its
delay fits (`Demo.FanOut.asDocumented_fetch_iff`), and all are exactly when the longest delay does,
which is that of the first request (`Demo.FanOut.delays_as_documented_iff`). With two requests and
the longest unit it does not (`Demo.FanOut.first_delay_overflows`).

The requests are those that are in the table of the executor once the main task has been polled.
-/

namespace TaskRuntime

variable {K : Type}

/-! ### The requests that are spawned -/

/-- A program goes on where its first part has finished. -/
theorem Act.run_bind {W B V R S : Type} {β : Behaviour W B V} {p : Act W B V R}
    {f : R → Act W B V S} {s s₁ s₂ : Site W B} {r : R} {n n' : List (Note V)}
    {stop : Stop W B V S} (hp : p.run β s = (.finished r, n, s₁))
    (hf : (f r).run β s₁ = (stop, n', s₂)) : (p.bind f).run β s = (stop, n ++ n', s₂) := by
  -- What follows a request finishes likewise, with the notes of the request taken off.
  induction p generalizing s n with
  | done r =>
    simp only [run, Prod.mk.injEq, Stop.finished.injEq] at hp
    obtain ⟨rfl, rfl, rfl⟩ := hp
    exact hf
  | look k ih => exact ih _ hp
  | put w k ih => exact ih hp
  | wake w k ih =>
    rw [run] at hp
    rcases hk : k.run β { s with signals := s.signals.wake w } with ⟨_, n₁, s₃⟩
    rw [hk] at hp
    simp only [Prod.mk.injEq] at hp
    obtain ⟨rfl, rfl, rfl⟩ := hp
    rw [bind, run, ih hk]
    rfl
  | unpark k ih => exact ih hp
  | parkFor k ih => exact ih _ hp
  | spawn b k ih =>
    rw [run] at hp
    rcases hs : s.spawn β b with ⟨id, entered, s₃⟩
    rw [hs] at hp
    rcases hk : (k (.ok id)).run β s₃ with ⟨_, n₁, s₄⟩
    dsimp only at hp
    rw [hk] at hp
    simp only [Prod.mk.injEq] at hp
    obtain ⟨rfl, rfl, rfl⟩ := hp
    rw [bind, run, hs]
    dsimp only
    rw [ih _ hk, List.append_assoc]
  | blockOn b k ih =>
    rw [run] at hp
    cases congrArg Prod.fst hp
  | figures k ih => exact ih _ hp

/-- The executor has no task under any of the next ids. -/
def Site.Room {W B : Type} (s : Site W B) (count : Nat) : Prop :=
  ∀ i < count, s.executor.tasks.contains (s.executor.nextId + UInt64.ofNat i) = false

theorem add_one_add_ofNat (id : TaskId) (i : Nat) :
    id + 1 + UInt64.ofNat i = id + UInt64.ofNat (i + 1) := by
  rw [UInt64.ofNat_add, UInt64.add_assoc, UInt64.add_comm 1]
  rfl

/-- Fewer ids than there are do not come back to where they began. -/
theorem add_ofNat_succ_ne {i : Nat} (h : i + 1 < UInt64.size) (id : TaskId) :
    id + UInt64.ofNat (i + 1) ≠ id := by
  intro he
  have hzero : UInt64.ofNat (i + 1) = 0 := by simpa using he
  have hnat := congrArg UInt64.toNat hzero
  rw [UInt64.toNat_ofNat_of_lt' h] at hnat
  exact absurd hnat (Nat.succ_ne_zero i)

namespace Demo

section

variable [Kernel K] {s s' : Site (World K) Task}

/-- Where there is room, a new task enters the table. -/
theorem spawn_of_room (b : Task) (h : s.executor.tasks.contains s.executor.nextId = false) :
    ∃ notes s', s.spawn Task.behaviour b = (s.executor.nextId, notes, s') ∧
      s'.executor.nextId = s.executor.nextId + 1 ∧
      s'.executor.tasks = s.executor.tasks.insert s.executor.nextId b := by
  simp only [Site.spawn, Site.enqueue, Site.insert, Executor.allocate, h, Bool.false_eq_true,
    if_false]
  exact ⟨_, _, rfl, rfl, rfl⟩

omit [Kernel K] in
/-- A new task takes one of the ids for which there is room. -/
theorem room_of_insert {b : Task} {count : Nat} (hroom : s.Room (count + 1))
    (hcount : count < UInt64.size) (hnext : s'.executor.nextId = s.executor.nextId + 1)
    (htasks : s'.executor.tasks = s.executor.tasks.insert s.executor.nextId b) :
    s'.Room count := by
  intro i hi
  rw [hnext, htasks, add_one_add_ofNat, Bool.eq_false_iff, ne_eq, Table.contains_insert, not_or]
  exact ⟨add_ofNat_succ_ne (by omega) _, Bool.eq_false_iff.1 (hroom (i + 1) (by omega))⟩

/-- **The requests enter the table** in order, each under the next id. -/
theorem run_spawnAll (fs : List Fetch) (hroom : s.Room fs.length)
    (hlen : fs.length ≤ UInt64.size) : ∃ notes s',
      (spawnAll fs : TaskAct K (Except Failure Unit)).run Task.behaviour s =
        (.finished (.ok ()), notes, s') ∧
      (∀ id b, s.executor.tasks.get? id = some b → s'.executor.tasks.get? id = some b) ∧
      ∀ i (hi : i < fs.length),
        s'.executor.tasks.get? (s.executor.nextId + UInt64.ofNat i) = some (.fetch fs[i]) := by
  induction fs generalizing s with
  | nil => exact ⟨[], s, rfl, fun _ _ h ↦ h, nofun⟩
  | cons f rest ih =>
    have hfirst := hroom 0 (Nat.succ_pos _)
    rw [show s.executor.nextId + UInt64.ofNat 0 = s.executor.nextId from UInt64.add_zero _] at hfirst
    obtain ⟨entered, s₁, hspawn, hnext, htasks⟩ := spawn_of_room (.fetch f) hfirst
    obtain ⟨notes, s', hrun, hkept, hrest⟩ :=
      ih (room_of_insert hroom hlen hnext htasks) (Nat.le_of_succ_le hlen)
    refine ⟨entered ++ notes, s', ?_, fun id b hb ↦ hkept id b ?_, fun i hi ↦ ?_⟩
    · rw [spawnAll, Act.run, hspawn]
      dsimp only
      rw [hrun]
    · have hne : s.executor.nextId ≠ id := by
        rintro rfl
        simp [Table.contains, hb] at hfirst
      rw [htasks, Table.get?_insert, if_neg hne, hb]
    · cases i with
      | zero =>
        refine hkept _ _ ?_
        rw [htasks, show s.executor.nextId + UInt64.ofNat 0 = s.executor.nextId from
          UInt64.add_zero _, Table.get?_insert, if_pos rfl]
        rfl
      | succ i =>
        rw [← add_one_add_ofNat, ← hnext]
        exact hrest i (Nat.lt_of_succ_lt_succ hi)

/-- **The main task spawns its requests** on its first poll, and is resolved. -/
theorem run_pollFanOut (m : FanOut) (hm : m.resolved = false) (hroom : s.Room m.fetches.length)
    (hlen : m.fetches.length ≤ UInt64.size) : ∃ notes s',
      (Task.pollFanOut m : TaskAct K (Polled Value × Task)).run Task.behaviour s =
        (.finished (.ok (.ready .unit), .fanOut { m with resolved := true }), notes, s') ∧
      ∀ i < m.fetches.length, s'.executor.tasks.get?
        (s.executor.nextId + UInt64.ofNat i) = some (.fetch (m.fetch i)) := by
  let started : Site (World K) Task := { s with world := { s.world with
    toEnvironment := s.world.toEnvironment.note .info (Bytes.utf8 "Program starting") } }
  obtain ⟨notes, s', hrun, -, hids⟩ := run_spawnAll (s := started) m.fetches hroom hlen
  refine ⟨[] ++ (notes ++ []), s', ?_, fun i hi ↦ ?_⟩
  · rw [Task.pollFanOut, if_neg (by simp [hm])]
    exact Act.run_bind rfl (Act.run_bind hrun rfl)
  · have hfetch : m.fetches[i] = m.fetch i := by simp [FanOut.fetches]
    exact hfetch ▸ hids i hi

end

/-! ### What the requests ask for -/

/-- The delay that a request is to ask for. -/
def FanOut.due (m : FanOut) (i : Nat) : Int := (m.requests - i) * m.delay

/-- **A request is as documented**: it asks for its delay and for a message with its number, and the
delay server hears just that. -/
structure Fetch.AsDocumented (m : FanOut) (i : Nat) (f : Fetch) : Prop where
  /-- The path that the request asks for. -/
  path : f.path = Bytes.utf8 "/" ++ Numeral.ofInt (m.due i) ++ Bytes.utf8 "/HelloAsyncAwait" ++
    Numeral.ofInt i
  /-- What the server makes of the request. -/
  heard : DelayServer.Target.ofHead (Http.getRequest f.path) =
    ⟨some (m.due i), some (Bytes.utf8 "HelloAsyncAwait" ++ Numeral.ofInt i)⟩

/-- The server hears no delay that 32 bits do not hold. -/
theorem le_of_heard {head : Bytes} {delay : Int} {message : Option Bytes}
    (h : DelayServer.Target.ofHead head = ⟨some delay, message⟩) : delay ≤ maxNumber := by
  have haccepted : (DelayServer.Target.ofHead head).accepted? = some (delay, message.getD []) := by
    rw [h]
    rfl
  obtain ⟨target, segment, -, -, hgranted⟩ :=
    DelayServer.Target.accepted?_eq_some_iff.1 haccepted
  cases hgranted with
  | nothing => decide
  | number => exact DelayServer.wrap32_le _

/-- The path of a request is one that the delay server knows. -/
theorem Fetch.path_eq (f : Fetch) :
    f.path = DelayServer.path f.delay (Bytes.utf8 "HelloAsyncAwait" ++ Numeral.ofInt f.index) := by
  have hslash : Bytes.utf8 "/" = [Bytes.slash] := by decide
  have hmessage : Bytes.utf8 "/HelloAsyncAwait" = Bytes.slash :: Bytes.utf8 "HelloAsyncAwait" := by
    decide
  simp [path, DelayServer.path, hslash, hmessage]

namespace FanOut

variable {m : FanOut} {i j : Nat}

/-- A delay that fits into 32 bits is computed as it is due. -/
theorem delay_fetch (h : 0 ≤ m.due i) (hfits : m.due i ≤ maxNumber) :
    (m.fetch i).delay = m.due i := by
  have hsmall : m.due i ≤ 2147483647 := hfits
  show Numeral.wrap32 (m.due i) = m.due i
  rw [Numeral.wrap32]
  exact Int.bmod_eq_of_le (by omega) (by omega)

/-- **A request is as documented** exactly when its delay fits into 32 bits. -/
theorem asDocumented_fetch_iff (h : 0 ≤ m.due i) :
    (m.fetch i).AsDocumented m i ↔ m.due i ≤ maxNumber := by
  refine ⟨fun hf ↦ le_of_heard hf.heard, fun hfits ↦ ?_⟩
  have hdelay := delay_fetch h hfits
  have hspace : Bytes.space ∉ Bytes.utf8 "HelloAsyncAwait" ++ Numeral.ofInt i := by
    rw [List.mem_append, not_or]
    exact ⟨by decide, Numeral.notMem_ofNat (by decide) i⟩
  refine ⟨?_, ?_⟩
  · rw [Fetch.path, hdelay]
    rfl
  · rw [Fetch.path_eq, hdelay]
    exact DelayServer.ofHead_request_of_space h hfits hspace

/-- Each further request asks for less. -/
theorem due_lt_due (hd : 0 < m.delay) (hij : i < j) : m.due j < m.due i :=
  Int.mul_lt_mul_of_pos_right (by omega) hd

/-- All ask for something. -/
theorem due_pos (hd : 0 < m.delay) (hi : i < m.requests.toNat) : 0 < m.due i :=
  Int.mul_pos (by omega) hd

/-- All delays fit exactly when that of the first request does. -/
theorem forall_due_le_iff (hr : 0 < m.requests) (hd : 0 < m.delay) :
    (∀ i < m.requests.toNat, m.due i ≤ maxNumber) ↔ m.requests * m.delay ≤ maxNumber := by
  have hfirst : m.due 0 = m.requests * m.delay := by simp [due]
  constructor
  · intro h
    rw [← hfirst]
    exact h 0 (by omega)
  · intro h i _
    rcases Nat.eq_zero_or_pos i with rfl | hi
    · omega
    · have := due_lt_due (m := m) hd hi
      omega

variable {K : Type} [Kernel K]

/-- **The demo asks for the delays that it documents** exactly when the longest of them fits into 32
bits. The requests are spawned in any case; each by itself is as documented exactly when its own
delay fits, and when all are, their delays are positive and get shorter from one request to the
next. -/
theorem delays_as_documented_iff {requests delay : Bytes} {k unit : Int}
    (hk : readPositive requests = some k) (hunit : readPositive delay = some unit)
    (s : Site (World K) Task) (hroom : s.Room k.toNat) (w : Waker) :
    let m : FanOut := { requests := k, delay := unit }
    (∃ notes s', (Task.poll (.fanOut m) w).run Task.behaviour s =
        (.finished (.ok (.ready .unit), .fanOut { m with resolved := true }), notes, s') ∧
      ∀ i < k.toNat, s'.executor.tasks.get? (s.executor.nextId + UInt64.ofNat i) =
        some (.fetch (m.fetch i))) ∧
    (∀ i < k.toNat, (m.fetch i).AsDocumented m i ↔ m.due i ≤ maxNumber) ∧
    ((∀ i < k.toNat, (m.fetch i).AsDocumented m i) ↔ k * unit ≤ maxNumber) ∧
    (k * unit ≤ maxNumber → (∀ i < k.toNat, 0 < (m.fetch i).delay) ∧
      ∀ i j, i < j → j < k.toNat → (m.fetch j).delay < (m.fetch i).delay) := by
  intro m
  have hk := readPositive_eq_some_iff.1 hk
  have hunit := readPositive_eq_some_iff.1 hunit
  have hr : 0 < m.requests := hk.pos
  have hd : 0 < m.delay := hunit.pos
  have hdue (i : Nat) (hi : i < k.toNat) : 0 < m.due i := due_pos hd hi
  have hdocumented (i : Nat) (hi : i < k.toNat) :
      (m.fetch i).AsDocumented m i ↔ m.due i ≤ maxNumber :=
    asDocumented_fetch_iff (Int.le_of_lt (hdue i hi))
  refine ⟨?_, hdocumented, ?_, fun hfits ↦ ?_⟩
  · have hlength : m.fetches.length = k.toNat := by simp [fetches, m]
    have hsmall : k ≤ 2147483647 := hk.small
    have hsize : UInt64.size = 18446744073709551616 := rfl
    rw [← hlength] at hroom ⊢
    exact run_pollFanOut m rfl hroom (by omega)
  · rw [← forall_due_le_iff hr hd]
    exact forall₂_congr hdocumented
  · have hall := (forall_due_le_iff hr hd).2 hfits
    have hdelay (i : Nat) (hi : i < k.toNat) : (m.fetch i).delay = m.due i :=
      delay_fetch (Int.le_of_lt (hdue i hi)) (hall i hi)
    refine ⟨fun i hi ↦ hdelay i hi ▸ hdue i hi, fun i j hij hj ↦ ?_⟩
    rw [hdelay i (by omega), hdelay j hj]
    exact due_lt_due hd hij

/-- Three requests with the longest unit that is short enough for them. -/
theorem delays_as_documented_three :
    let m : FanOut := { requests := 3, delay := 715827882 }
    (∀ i : Nat, i < 3 → (m.fetch i).AsDocumented m i) ∧
      (m.fetch 1).delay < (m.fetch 0).delay := by
  intro m
  have hroom : (Site.blank { kernel := {} } : Site (World Host) Task).Room 3 := fun _ _ ↦ rfl
  obtain ⟨-, -, hall, hless⟩ := delays_as_documented_iff
    (show readPositive (Bytes.utf8 "3") = some 3 by decide)
    (show readPositive (Bytes.utf8 "+715827882") = some 715827882 by decide) _ hroom .idle
  exact ⟨hall.2 (by decide), (hless (by decide)).2 0 1 (by decide) (by decide)⟩

/-- **A delay that does not fit.** With two requests and the longest unit, the first request asks
for a negative delay. -/
theorem first_delay_overflows :
    readPositive (Bytes.utf8 "2") = some 2 ∧
      readPositive (Bytes.utf8 "2147483647") = some 2147483647 ∧
      let m : FanOut := { requests := 2, delay := 2147483647 }
      m.due 0 = 4294967294 ∧ (m.fetch 0).path = Bytes.utf8 "/-2/HelloAsyncAwait0" ∧
        ¬(m.fetch 0).AsDocumented m 0 := by
  have hdelay : Numeral.ofInt (-2) = [45, 50] := by cbv
  have hindex : Numeral.ofInt 0 = [48] := by cbv
  refine ⟨by decide, by decide, by decide, ?_, fun h ↦ ?_⟩
  · show Bytes.utf8 "/" ++ Numeral.ofInt (-2) ++ Bytes.utf8 "/HelloAsyncAwait" ++
      Numeral.ofInt 0 = Bytes.utf8 "/-2/HelloAsyncAwait0"
    rw [hdelay, hindex]
    decide
  exact absurd ((asDocumented_fetch_iff (i := 0) (by decide)).1 h) (by decide)

end FanOut

end Demo

end TaskRuntime
