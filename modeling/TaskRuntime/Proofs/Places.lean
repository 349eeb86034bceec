import Mathlib.Data.List.Nodup
import TaskRuntime.Proofs.Phases
import TaskRuntime.Proofs.Replay

/-!
# Where bodies are

A body that has been given an id is in the table, or is being polled, or is kept by a call that will
destroy it when it ends, or has been destroyed. No step makes a body disappear or doubles it
(`Machine.Move.keeps`), so at every moment the ids of all these places together are the ids that
have been given out (`Ensemble.Run.places_perm`). This asks nothing of the ids: if an id is in use
already when its task enters the table, the body is destroyed at once.

A call keeps only the body of a task that has finished in place, and so has never been in the table
(`Ensemble.Run.not_entered_of_kept`). Hence a task that has entered the table is in the table, or is
being polled, or has been destroyed, once.
-/

namespace TaskRuntime

variable {W B V : Type} {β : Behaviour W B V} {σ : Surroundings W B V}

/-! ### Bodies that have been destroyed -/

/-- The id of the body that is destroyed, if one is. -/
def Note.destroyed? : Note V → Option TaskId
  | .destroyed id => some id
  | _ => none

/-- The ids of the bodies that have been destroyed, in order. -/
def destroyedIds (h : List (Note V)) : List TaskId := h.filterMap Note.destroyed?

theorem destroyedIds_append (h n : List (Note V)) :
    destroyedIds (h ++ n) = destroyedIds h ++ destroyedIds n :=
  List.filterMap_append

/-! ### Bodies in the table -/

namespace Table

variable {K A : Type} [DecidableEq K] {t : Table K A} {k : K}

theorem keys_insert (hk : ¬ t.contains k = true) (v : A) : (t.insert k v).keys = t.keys ++ [k] := by
  have hmem : k ∉ t.entries.map Prod.fst := fun hmem ↦ hk (mem_keys_iff.1 hmem)
  rw [keys, insert, map_fst_put, if_neg hmem, keys]

theorem map_fst_without (k : K) (l : List (K × A)) :
    (without k l).map Prod.fst = (l.map Prod.fst).erase k := by
  induction l with
  | nil => rfl
  | cons e rest ih =>
    by_cases he : e.1 = k
    · rw [without, if_pos he, List.map_cons, he, List.erase_cons_head]
    · rw [without, if_neg he, List.map_cons, List.map_cons,
        List.erase_cons_tail (by simpa using he), ih]

/-- An entry that is taken out was one of the entries. -/
theorem keys_perm_erase (hk : t.contains k = true) : t.keys.Perm (k :: (t.erase k).keys) := by
  rw [keys, keys, erase, map_fst_without]
  exact List.perm_cons_erase (mem_keys_iff.2 hk)

end Table

section

variable {site site' : Site W B} {id : TaskId} {b : B} {n : List (Note V)}

/-- A body that is put into the table is in the table, or destroyed. -/
theorem Site.keys_of_insert (h : site.insert β id b = (n, site')) :
    (site'.executor.tasks.keys ++ destroyedIds n).Perm (id :: site.executor.tasks.keys) := by
  unfold Site.insert at h
  split at h
  · obtain ⟨rfl, rfl⟩ := Prod.mk.inj h
    exact List.perm_append_comm
  · next hid =>
    obtain ⟨rfl, rfl⟩ := Prod.mk.inj h
    have hkeys := Table.keys_insert hid b
    rw [show destroyedIds ([] : List (Note V)) = [] from rfl, List.append_nil, hkeys]
    exact List.perm_append_comm

theorem Site.keys_of_enqueue (h : site.enqueue β id b = (n, site')) :
    (site'.executor.tasks.keys ++ destroyedIds n).Perm (id :: site.executor.tasks.keys) := by
  rcases hi : site.insert β id b with ⟨ds, site₁⟩
  have hkeys := Site.keys_of_insert hi
  simp only [Site.enqueue, hi] at h
  obtain ⟨rfl, rfl⟩ := Prod.mk.inj h
  exact hkeys

theorem Site.keys_of_spawn (h : site.spawn β b = (id, n, site')) :
    (site'.executor.tasks.keys ++ destroyedIds n).Perm (id :: site.executor.tasks.keys) := by
  rcases he : ({ site with executor := { site.executor with nextId := site.executor.nextId + 1 } } :
    Site W B).enqueue β site.executor.nextId b with ⟨ns, site₁⟩
  have hkeys := Site.keys_of_enqueue he
  obtain ⟨rfl, rfl, rfl⟩ : site.executor.nextId = id ∧ .issued site.executor.nextId :: ns = n ∧
      site₁ = site' := by
    simpa [Site.spawn, Executor.allocate, he] using h
  exact hkeys

end

/-! ### Bodies that calls have -/

/-- The task whose body a call keeps. -/
def Call.keeps? (c : Call W B V) : Option TaskId := c.held.map fun _ ↦ c.id

/-- The tasks whose bodies a call polls or keeps. -/
def Call.bodies (c : Call W B V) : List TaskId := (c.polls?.map Prod.fst).toList ++ c.keeps?.toList

theorem Call.bodies_of_polls? {c : Call W B V} {id : TaskId} {inPlace : Bool}
    (hc : c.polls? = some (id, inPlace)) : c.bodies = id :: c.keeps?.toList := by
  rw [bodies, hc]
  rfl

theorem Call.bodies_of_none {c : Call W B V} (hc : c.polls? = none) :
    c.bodies = c.keeps?.toList := by
  rw [bodies, hc]
  rfl

theorem Call.Advance.bodies_eq {calls calls' : List (Call W B V)} (h : Call.Advance calls calls') :
    calls.flatMap Call.bodies = calls'.flatMap Call.bodies := by
  cases h with
  | same => rfl
  | @head c rest _ wrap p p' hw hd _ =>
    have hc : c.polls? = Call.polls? ⟨c.id, c.held, c.slot, wrap p'⟩ := by
      rw [← hw.polls?_eq c.id c.held c.slot p p', ← hd]
    rw [List.flatMap_cons, List.flatMap_cons, Call.bodies, Call.bodies, hc]
    rfl

theorem Call.Advance.kept_eq {calls calls' : List (Call W B V)} (h : Call.Advance calls calls') :
    calls.filterMap Call.keeps? = calls'.filterMap Call.keeps? := by
  cases h <;> rfl

/-- A call that gets a result keeps its bodies. -/
theorem Machine.bodies_resumed (result : Except Failure (Option V)) (rest : List (Call W B V)) :
    (Machine.resumed result rest).flatMap Call.bodies = rest.flatMap Call.bodies := by
  cases rest with
  | nil => rfl
  | cons d rest =>
    obtain ⟨id, held, slot, doing⟩ := d
    cases doing <;> rfl

theorem Machine.bodies_fill (id : TaskId) (v : V) (calls : List (Call W B V)) :
    (Machine.fill id v calls).flatMap Call.bodies = calls.flatMap Call.bodies := by
  rw [Machine.fill, List.flatMap_map]
  congr 1
  funext c
  split <;> rfl

/-- A call that ends destroys what it has kept. -/
theorem Machine.bodies_of_leave {site : Site W B} {c : Call W B V} {rest : List (Call W B V)}
    {result : Except Failure (Option V)} {n : List (Note V)} {m' : Machine W B V}
    (h : Machine.leave β site c rest result = (n, m')) :
    destroyedIds n = c.keeps?.toList ∧
      m'.calls.flatMap Call.bodies = rest.flatMap Call.bodies := by
  obtain ⟨ds, w, -, -, -, hcalls⟩ := Machine.leave_spec h
  refine ⟨?_, by rw [hcalls, Machine.bodies_resumed]⟩
  obtain ⟨rfl, -⟩ := Prod.mk.inj h
  obtain ⟨i, held, slot, doing⟩ := c
  cases held <;> rfl

/-! ### Polls in place

A call keeps the body of its task only after it has polled it in place.
-/

/-- A call that polls its task in place keeps nothing. -/
def Call.Bare (c : Call W B V) : Prop := ∀ id, c.polls? = some (id, true) → c.held = none

namespace Machine

variable {m m' : Machine W B V} {n : List (Note V)} {calls calls' : List (Call W B V)}

/-- No call that polls its task in place keeps anything. -/
def Bare (m : Machine W B V) : Prop := ∀ c ∈ m.calls, c.Bare

theorem bare_resumed {result : Except Failure (Option V)} (h : ∀ c ∈ calls, c.Bare) :
    ∀ c ∈ resumed result calls, c.Bare := by
  cases calls with
  | nil => exact h
  | cons d rest =>
    obtain ⟨hd, hrest⟩ := List.forall_mem_cons.1 h
    refine List.forall_mem_cons.2 ⟨fun id hid ↦ hd id ?_, hrest⟩
    obtain ⟨i, held, slot, doing⟩ := d
    cases doing <;> exact hid

theorem bare_fill {id : TaskId} {v : V} (h : ∀ c ∈ calls, c.Bare) :
    ∀ c ∈ fill id v calls, c.Bare := by
  intro c hc
  obtain ⟨d, hd, rfl⟩ := List.mem_map.1 hc
  split
  · exact h d hd
  · exact h d hd

theorem bare_of_advance (ha : Call.Advance calls calls') (h : ∀ c ∈ calls, c.Bare) :
    ∀ c ∈ calls', c.Bare := by
  cases ha with
  | same => exact h
  | @head c rest _ wrap p p' hw hd _ =>
    obtain ⟨hc, hrest⟩ := List.forall_mem_cons.1 h
    refine List.forall_mem_cons.2 ⟨fun id hid ↦ hc id ?_, hrest⟩
    have hp : c.polls? = Call.polls? ⟨c.id, c.held, c.slot, wrap p'⟩ := by
      rw [← hw.polls?_eq c.id c.held c.slot p p', ← hd]
    exact hp.trans hid

theorem bare_of_leave {site : Site W B} {c : Call W B V} {rest : List (Call W B V)}
    {result : Except Failure (Option V)} (hm : leave β site c rest result = (n, m'))
    (h : ∀ d ∈ rest, d.Bare) : m'.Bare := by
  obtain ⟨-, -, -, -, -, hcalls⟩ := leave_spec hm
  rw [Bare, hcalls]
  exact bare_resumed h

theorem Turn.bare (hm : Turn β σ m n m') (h : m.Bare) : m'.Bare := by
  -- A call that is not in the middle of a poll is bare anyway.
  have hnone {c : Call W B V} (hc : c.polls? = none) : c.Bare := fun id hid ↦ by
    rw [hc] at hid
    cases hid
  cases hm with
  | entered _ he =>
    obtain ⟨rfl, rfl⟩ := Prod.mk.inj he
    exact List.forall_mem_cons.2 ⟨fun _ _ ↦ rfl, h⟩
  | @shifted _ _ _ _ c _ _ _ _ _ hd _ =>
    exact List.forall_mem_cons.2
      ⟨hnone (hd.polls?_eq c.id c.held c.slot).2, (List.forall_mem_cons.1 h).2⟩
  | firstFailed _ he => exact bare_of_leave he (List.forall_mem_cons.1 h).2
  | firstPended _ he =>
    obtain ⟨-, -, -, -, -, rfl, -⟩ := Site.enqueue_spec he
    exact List.forall_mem_cons.2 ⟨hnone rfl, (List.forall_mem_cons.1 h).2⟩
  | firstReturned _ _ he => exact bare_of_leave he (List.forall_mem_cons.1 h).2
  | firstResolved _ _ => exact List.forall_mem_cons.2 ⟨hnone rfl, (List.forall_mem_cons.1 h).2⟩
  | stale _ _ _ => exact h
  | began _ _ _ =>
    refine List.forall_mem_cons.2 ⟨fun id hid ↦ ?_, (List.forall_mem_cons.1 h).2⟩
    simp [Call.polls?] at hid
  | pollFailed _ he => exact bare_of_leave he (List.forall_mem_cons.1 h).2
  | pollPended _ _ => exact List.forall_mem_cons.2 ⟨hnone rfl, (List.forall_mem_cons.1 h).2⟩
  | pollResolved _ =>
    exact bare_fill (List.forall_mem_cons.2 ⟨hnone rfl, (List.forall_mem_cons.1 h).2⟩)
  | finished _ _ he => exact bare_of_leave he (List.forall_mem_cons.1 h).2
  | announceFailed _ he => exact bare_of_leave he (List.forall_mem_cons.1 h).2

theorem Move.bare (hm : Move β σ m n m') (h : m.Bare) : m'.Bare := by
  cases hm with
  | quiet _ _ hc => exact bare_of_advance hc h
  | woke _ hc => exact bare_of_advance hc h
  | spawned _ hc => exact bare_of_advance hc h
  | turned ht => exact ht.bare h

end Machine

/-! ### One step -/

namespace Machine

variable {m m' : Machine W B V} {h n : List (Note V)} {id : TaskId}

/-- **The ids of all bodies**: of those in the table, and of those that calls poll or keep. -/
def places (m : Machine W B V) : List TaskId :=
  m.site.executor.tasks.keys ++ m.calls.flatMap Call.bodies

/-- No body disappears, and none is doubled. -/
def Keeps (m : Machine W B V) (n : List (Note V)) (m' : Machine W B V) : Prop :=
  ∀ i, m'.places.count i + (destroyedIds n).count i = m.places.count i + (issuedIds n).count i

theorem count_places_cons {site : Site W B} {c : Call W B V} {rest : List (Call W B V)}
    {o : Option (Except Failure (Option V))} (i : TaskId) :
    (places ⟨site, c :: rest, o⟩).count i =
      site.executor.tasks.keys.count i + c.bodies.count i + (rest.flatMap Call.bodies).count i := by
  rw [places, List.flatMap_cons]
  simp only [List.count_append]
  omega

/-- What a call keeps is destroyed when it ends. -/
theorem count_places_leave {site : Site W B} {c : Call W B V} {rest : List (Call W B V)}
    {result : Except Failure (Option V)} (h : leave β site c rest result = (n, m')) (i : TaskId) :
    m'.places.count i + (destroyedIds n).count i =
      site.executor.tasks.keys.count i + c.keeps?.toList.count i +
        (rest.flatMap Call.bodies).count i := by
  obtain ⟨hds, hbodies⟩ := bodies_of_leave h
  rw [places, (of_leave h).1, hds, hbodies]
  simp only [List.count_append]
  omega

section

variable {site site' : Site W B} {c d : Call W B V} {rest : List (Call W B V)}
  {o o' : Option (Except Failure (Option V))} {result : Except Failure (Option V)}

/-- A call whose poll has failed ends: the body that it polls is destroyed, and what it keeps. -/
theorem keeps_of_failed (hc : c.bodies = id :: c.keeps?.toList)
    (hx : site'.executor = site.executor) (h : leave β site' c rest result = (n, m'))
    (inPlace : Bool) (r : Polled V) :
    Keeps ⟨site, c :: rest, o⟩ (.ended id inPlace r :: .destroyed id :: n) m' := by
  intro i
  have hl := count_places_leave h i
  show _ + (id :: destroyedIds n).count i = _ + (issuedIds n).count i
  rw [count_places_cons, hc, (issued_of_leave h).1, ← hx, List.count_cons, List.count_cons,
    List.count_nil]
  omega

/-- A call that polls nothing ends, and what it keeps is destroyed. -/
theorem keeps_of_left (hc : c.polls? = none) (hx : site'.executor = site.executor)
    (h : leave β site' c rest result = (n, m')) : Keeps ⟨site, c :: rest, o⟩ n m' := by
  intro i
  have hl := count_places_leave h i
  rw [count_places_cons, Call.bodies_of_none hc, (issued_of_leave h).1, hl, hx]
  rfl

/-- A poll leaves its task pending, and the body goes to the table, or else is destroyed. -/
theorem keeps_of_pended (hc : c.bodies = id :: c.keeps?.toList)
    (hd : d.bodies = c.keeps?.toList)
    (hk : (site'.executor.tasks.keys ++ destroyedIds n).Perm (id :: site.executor.tasks.keys))
    (hn : issuedIds n = []) (inPlace : Bool) (r : Polled V) :
    Keeps ⟨site, c :: rest, o⟩ (.ended id inPlace r :: n) ⟨site', d :: rest, o'⟩ := by
  intro i
  have hcount := hk.count_eq i
  rw [List.count_append, List.count_cons] at hcount
  show _ + (destroyedIds n).count i = _ + (issuedIds n).count i
  rw [count_places_cons, count_places_cons, hc, hd, hn, List.count_cons, List.count_nil]
  omega

/-- A call that polls its task in place keeps its body from then on. -/
theorem bodies_of_first {p : Act W B V (Polled V × B)} (hb : c.Bare) (hd : c.doing = .first p) :
    c.bodies = [c.id] := by
  have hheld : c.held = none := hb c.id (Call.polls?_first hd)
  rw [Call.bodies_of_polls? (Call.polls?_first hd), Call.keeps?, hheld]
  rfl

end

/-- **A step of the active call keeps all bodies.** -/
theorem Turn.keeps (hm : Turn β σ m n m') (hb : m.Bare) : m.Keeps n m' := by
  have hpop (c : Call W B V) :
      ({ c with doing := .pop } : Call W B V).bodies = c.keeps?.toList := Call.bodies_of_none rfl
  have hdestroy (site : Site W B) (id : TaskId) (b : B) :
      (site.destroy (V := V) β id b).2.executor = site.executor := rfl
  cases hm with
  | firstFailed hd h =>
    exact keeps_of_failed (Call.bodies_of_polls? (Call.polls?_first hd)) (hdestroy _ _ _) h true _
  | firstPended hd h =>
    refine keeps_of_pended (Call.bodies_of_polls? (Call.polls?_first hd)) (hpop _)
      (Site.keys_of_enqueue h) ?_ true _
    obtain ⟨ds, -, -, rfl, hds, -⟩ := Site.enqueue_spec h
    have hn := issuedIds_of_destroyed hds
    exact hn
  | pollFailed hd h =>
    exact keeps_of_failed (Call.bodies_of_polls? (Call.polls?_poll hd)) (hdestroy _ _ _) h false _
  | pollPended hd h =>
    exact keeps_of_pended (Call.bodies_of_polls? (Call.polls?_poll hd)) (hpop _)
      (Site.keys_of_insert h) (issuedIds_of_destroyed (Site.insert_spec h).1) false _
  | @finished site _ _ _ _ _ hd _ h =>
    have hx : { site with world := σ.finished site.world }.executor = site.executor := rfl
    exact keeps_of_left (by rw [Call.polls?, hd]) hx h
  | announceFailed hd h => exact keeps_of_left (by rw [Call.polls?, hd]) rfl h
  | stale => exact fun i ↦ rfl
  | @entered site calls _ _ _ _ _ h =>
    intro i
    obtain ⟨rfl, rfl⟩ := Prod.mk.inj h
    rw [count_places_cons, Call.bodies_of_polls? rfl]
    show site.executor.tasks.keys.count i + [site.executor.nextId].count i +
      (calls.flatMap Call.bodies).count i + 0 =
        (site.executor.tasks.keys ++ calls.flatMap Call.bodies).count i +
          [site.executor.nextId].count i
    rw [List.count_append]
    omega
  | @shifted x s s' w c rest o d n k hd hn =>
    intro i
    obtain ⟨hc, hc'⟩ := hd.polls?_eq c.id c.held c.slot
    have hnotes : destroyedIds n = [] ∧ issuedIds n = [] := by
      rcases hn with rfl | rfl <;> exact ⟨rfl, rfl⟩
    rw [count_places_cons, count_places_cons, Call.bodies_of_none hc, Call.bodies_of_none hc',
      hnotes.1, hnotes.2]
    rfl
  | @firstReturned site c rest _ b v n _ hd _ h =>
    intro i
    have hl : _ = site.executor.tasks.keys.count i + [c.id].count i + _ := count_places_leave h i
    show _ + (destroyedIds n).count i = _ + (issuedIds n).count i
    rw [count_places_cons, bodies_of_first (hb c List.mem_cons_self) hd, (issued_of_leave h).1,
      List.count_nil, hl]
    rfl
  | @firstResolved site c rest _ b v hd _ =>
    intro i
    rw [count_places_cons, count_places_cons, bodies_of_first (hb c List.mem_cons_self) hd]
    rfl
  | @began x s s' w c rest _ id b hd _ hg =>
    intro i
    have hk := (Table.keys_perm_erase (Table.contains_of_get? hg)).count_eq i
    have hc : c.bodies = c.keeps?.toList := Call.bodies_of_none (by rw [Call.polls?, hd])
    rw [List.count_cons] at hk
    rw [count_places_cons, count_places_cons, Call.bodies_of_polls? rfl, hc, List.count_cons]
    show (x.tasks.erase id).keys.count i + (c.keeps?.toList.count i + _) + _ + 0 =
      x.tasks.keys.count i + _ + _ + 0
    omega
  | @pollResolved site c rest _ id b v hd =>
    intro i
    rw [count_places_cons, Call.bodies_of_polls? (Call.polls?_poll hd), List.count_cons]
    show (site.executor.tasks.keys ++ (fill id v _).flatMap Call.bodies).count i +
      [id].count i = _ + 0
    rw [bodies_fill, List.flatMap_cons, Call.bodies_of_none rfl, List.count_append,
      List.count_append, List.count_cons, List.count_nil]
    show _ + (c.keeps?.toList.count i + _) + _ = _
    omega

/-- **A move keeps all bodies.** -/
theorem Move.keeps (hm : Move β σ m n m') (hb : m.Bare) : m.Keeps n m' := by
  intro i
  cases hm with
  | quiet _ _ hc =>
    rw [places, places, hc.bodies_eq]
    rfl
  | woke _ hc =>
    rw [places, places, hc.bodies_eq]
    rfl
  | @spawned site site' id n _ calls calls' _ h hc =>
    have hk := (Site.keys_of_spawn h).count_eq i
    have hn : issuedIds n = [id] := by
      obtain ⟨rfl, ds, -, -, rfl, hds, -⟩ := Site.spawn_spec h
      have hn := congrArg (site.executor.nextId :: ·) (issuedIds_of_destroyed hds)
      exact hn
    rw [List.count_append, List.count_cons] at hk
    show (site'.executor.tasks.keys ++ calls'.flatMap Call.bodies).count i + _ =
      (site.executor.tasks.keys ++ calls.flatMap Call.bodies).count i + _
    rw [hc.bodies_eq, hn, List.count_append, List.count_append, List.count_cons, List.count_nil]
    omega
  | turned ht => exact ht.keeps hb i

/-! ### What calls keep -/

/-- The tasks whose bodies are kept by calls. -/
def kept (m : Machine W B V) : List TaskId := m.calls.filterMap Call.keeps?

theorem kept_resumed (result : Except Failure (Option V)) (rest : List (Call W B V)) :
    (resumed result rest).filterMap Call.keeps? = rest.filterMap Call.keeps? := by
  cases rest <;> rfl

theorem kept_fill (id : TaskId) (v : V) (calls : List (Call W B V)) :
    (fill id v calls).filterMap Call.keeps? = calls.filterMap Call.keeps? := by
  rw [fill, List.filterMap_map]
  congr 1
  funext c
  simp only [Function.comp_apply]
  split <;> rfl

/-- The bodies in all places are those in the table, those being polled, and those that are kept. -/
theorem count_places (m : Machine W B V) (i : TaskId) :
    m.places.count i =
      m.site.executor.tasks.keys.count i + (m.polled.map Prod.fst).count i + m.kept.count i := by
  obtain ⟨site, calls, o⟩ := m
  have hcalls : (calls.flatMap Call.bodies).count i =
      ((calls.filterMap Call.polls?).map Prod.fst).count i +
        (calls.filterMap Call.keeps?).count i := by
    induction calls with
    | nil => rfl
    | cons c rest ih =>
      rw [List.flatMap_cons, List.count_append, ih, Call.bodies, List.filterMap_cons,
        List.filterMap_cons]
      cases c.polls? <;> cases c.keeps? <;>
        simp only [Option.map_none, Option.map_some, Option.toList_none, Option.toList_some,
          List.map_cons, List.nil_append, List.cons_append, List.count_cons, List.count_nil] <;>
        omega
  show (site.executor.tasks.keys ++ calls.flatMap Call.bodies).count i =
    site.executor.tasks.keys.count i + ((calls.filterMap Call.polls?).map Prod.fst).count i +
      (calls.filterMap Call.keeps?).count i
  rw [List.count_append, hcalls]
  omega

/-- What is kept after a call has ended has been kept before by a call below. -/
theorem mem_kept_of_leave {site site' : Site W B} {c c' : Call W B V} {rest : List (Call W B V)}
    {o : Option (Except Failure (Option V))} {result : Except Failure (Option V)}
    (hm : leave β site' c' rest result = (n, m')) (hid : id ∈ m'.kept) :
    id ∈ kept ⟨site, c :: rest, o⟩ := by
  obtain ⟨-, -, -, -, -, hcalls⟩ := leave_spec hm
  rw [kept, hcalls, kept_resumed, List.mem_filterMap] at hid
  obtain ⟨d, hd, he⟩ := hid
  exact List.mem_filterMap.2 ⟨d, List.mem_cons_of_mem _ hd, he⟩

/-- A call begins to keep a body only when it has polled it in place with a value as the result. -/
theorem Turn.kept (hm : Turn β σ m n m') (hid : id ∈ m'.kept) :
    id ∈ m.kept ∨ (id, true) ∈ m.polled ∧ ∃ v, n = [.ended id true (.ok (.ready v))] := by
  cases hm with
  | entered _ h =>
    obtain ⟨-, rfl⟩ := Prod.mk.inj h
    exact Or.inl hid
  | firstFailed _ h => exact Or.inl (mem_kept_of_leave h hid)
  | firstReturned _ _ h => exact Or.inl (mem_kept_of_leave h hid)
  | @firstResolved site c rest _ b v hd _ =>
    obtain ⟨d, hmem, he⟩ := List.mem_filterMap.1 hid
    rcases List.mem_cons.1 hmem with rfl | hmem
    · obtain rfl : c.id = id := Option.some.inj he
      rw [polled_cons (Call.polls?_first hd)]
      exact Or.inr ⟨List.mem_cons_self, v, rfl⟩
    · exact Or.inl (List.mem_filterMap.2 ⟨d, List.mem_cons_of_mem _ hmem, he⟩)
  | pollFailed _ h => exact Or.inl (mem_kept_of_leave h hid)
  | pollResolved _ =>
    rw [Machine.kept, kept_fill] at hid
    exact Or.inl hid
  | finished _ _ h => exact Or.inl (mem_kept_of_leave h hid)
  | announceFailed _ h => exact Or.inl (mem_kept_of_leave h hid)
  | _ => exact Or.inl hid

/-- A call begins to keep a body only when it has polled it in place with a value as the result. -/
theorem Move.kept (hm : Move β σ m n m') (hid : id ∈ m'.kept) :
    id ∈ m.kept ∨ (id, true) ∈ m.polled ∧ ∃ v, n = [.ended id true (.ok (.ready v))] := by
  cases hm with
  | quiet _ _ hc =>
    rw [Machine.kept, ← hc.kept_eq] at hid
    exact Or.inl hid
  | woke _ hc =>
    rw [Machine.kept, ← hc.kept_eq] at hid
    exact Or.inl hid
  | spawned _ hc =>
    rw [Machine.kept, ← hc.kept_eq] at hid
    exact Or.inl hid
  | turned ht => exact ht.kept hid

end Machine

/-! ### Runs -/

namespace Ensemble.Run

variable {P : Ensemble W B V → Prop} {site : Site W B} {s : Ensemble W B V} {h : List (Note V)}

theorem bare (hr : Run β σ P (.start site) h s) : s.machine.Bare := by
  induction hr with
  | refl => exact List.forall_mem_nil _
  | step _ hs _ ih => exact hs.move.bare ih

/-- **Every body is in one place**: the ids of the bodies in all places and of those that have been
destroyed are the ids that have been given out. -/
theorem places_perm (hs : site.Fresh) (hr : Run β σ P (.start site) h s) :
    (s.machine.places ++ destroyedIds h).Perm (issuedIds h) := by
  rw [List.perm_iff_count]
  intro i
  induction hr with
  | refl =>
    rw [start, Machine.places, hs.tasks]
    rfl
  | step hr hstep _ ih =>
    have hk := hstep.move.keeps hr.bare i
    rw [issuedIds_append, destroyedIds_append]
    rw [List.count_append] at ih
    simp only [List.count_append]
    omega

/-- A task whose body is kept by a call has never been in the table. -/
theorem not_entered_of_kept (hs : site.Fresh) (hr : Run β σ P (.start site) h s)
    (hlen : (issuedIds h).length ≤ UInt64.size) {id : TaskId} (hid : id ∈ s.machine.kept) :
    .entered id ∉ h ∧ ∃ v, phase id h = .resolved v := by
  induction hr with
  | refl => cases hid
  | @step h s n s' hr hstep hp ih =>
    have hb := hr.books hs (length_issuedIds_le hlen)
    have hsound := ((hr.step hstep hp).books hs hlen).sound id
    rcases hstep.move.kept hid with hold | ⟨hpoll, v, rfl⟩
    · obtain ⟨hno, v, hv⟩ := ih (length_issuedIds_le hlen) hold
      rw [phase_append, hv] at hsound ⊢
      have hsilent := Phase.silent_of_resolved hsound.1
      refine ⟨fun he ↦ ?_, v, Phase.after_of_silent hsilent⟩
      rcases List.mem_append.1 he with he | he
      · exact hno he
      · exact hsilent _ he rfl
    · have hphase := (hb.polling id true).2 hpoll
      refine ⟨fun he ↦ ?_, v, phase_of_ready hphase (List.forall_mem_nil _)⟩
      have hlate : (phase id h).Late := Phase.late_of_entered (by simpa using he)
      rw [hphase] at hlate
      exact hlate

/-- **A task that has entered the table is in one of three places**: it is in the table, or being
polled once, or has been destroyed once. -/
theorem one_place (hs : site.Fresh) (hr : Run β σ P (.start site) h s)
    (hlen : (issuedIds h).length ≤ UInt64.size) {id : TaskId} (he : .entered id ∈ h) :
    s.machine.site.executor.tasks.keys.count id + (s.machine.polled.map Prod.fst).count id +
      (destroyedIds h).count id = 1 := by
  have hb := hr.books hs hlen
  have hissued : .issued id ∈ h := by
    refine Classical.byContradiction fun hno ↦ ?_
    have hlate : (phase id h).Late := Phase.late_of_entered he
    rw [hb.unborn hno] at hlate
    exact hlate
  have hone : (issuedIds h).count id = 1 :=
    List.count_eq_one_of_mem (hr.nodup_issuedIds hs hlen) (mem_issuedIds.2 hissued)
  have hkept : s.machine.kept.count id = 0 :=
    List.count_eq_zero.2 fun hid ↦ (hr.not_entered_of_kept hs hlen hid).1 he
  have hplaces := (hr.places_perm hs).count_eq id
  rw [List.count_append, Machine.count_places] at hplaces
  omega

end Ensemble.Run

end TaskRuntime
