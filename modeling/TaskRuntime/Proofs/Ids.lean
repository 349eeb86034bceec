import TaskRuntime.Proofs.Lives

/-!
# Ids

An executor gives out ids in order, from the first one on (`Ensemble.Run.numbered`). So no id is
given out twice, unless more than `UInt64.size` of them are (`Ensemble.Run.nodup_issuedIds`).
-/

namespace TaskRuntime

variable {W B V : Type} {β : Behaviour W B V} {σ : Surroundings W B V}

/-- The id that is given out, if one is. -/
def Note.issued? : Note V → Option TaskId
  | .issued id => some id
  | _ => none

/-- The ids that have been given out, in order. -/
def issuedIds (h : List (Note V)) : List TaskId := h.filterMap Note.issued?

theorem issuedIds_append (h n : List (Note V)) :
    issuedIds (h ++ n) = issuedIds h ++ issuedIds n :=
  List.filterMap_append

theorem length_issuedIds_le {h n : List (Note V)} {k : Nat}
    (hlen : (issuedIds (h ++ n)).length ≤ k) : (issuedIds h).length ≤ k := by
  rw [issuedIds_append, List.length_append] at hlen
  omega

theorem mem_issuedIds {id : TaskId} {h : List (Note V)} : id ∈ issuedIds h ↔ .issued id ∈ h := by
  rw [issuedIds, List.mem_filterMap]
  constructor
  · rintro ⟨k, hk, he⟩
    cases k <;> simp [Note.issued?] at he
    exact he ▸ hk
  · exact fun hk ↦ ⟨_, hk, rfl⟩

theorem issuedIds_of_destroyed {id : TaskId} {ds : List (Note V)}
    (hds : ∀ k ∈ ds, k = .destroyed id) : issuedIds ds = [] := by
  rw [issuedIds, List.filterMap_eq_nil_iff]
  intro k hk
  rw [hds k hk]
  rfl

/-! ### One step -/

namespace Machine

variable {m m' : Machine W B V} {n : List (Note V)}

/-- A step gives out the next id, or none. -/
def Counts (m : Machine W B V) (n : List (Note V)) (m' : Machine W B V) : Prop :=
  issuedIds n = [] ∧ m'.site.executor.nextId = m.site.executor.nextId ∨
    issuedIds n = [m.site.executor.nextId] ∧
      m'.site.executor.nextId = m.site.executor.nextId + 1

theorem issued_of_leave {site : Site W B} {c : Call W B V} {rest : List (Call W B V)}
    {result : Except Failure (Option V)} (h : leave β site c rest result = (n, m')) :
    issuedIds n = [] ∧ m'.site.executor.nextId = site.executor.nextId := by
  obtain ⟨ds, w, rfl, hds, hsite, -⟩ := leave_spec h
  rw [issuedIds_append, issuedIds_of_destroyed hds, hsite]
  exact ⟨rfl, rfl⟩

theorem Turn.counts (hm : Turn β σ m n m') : m.Counts n m' := by
  cases hm with
  | entered _ h =>
    obtain ⟨rfl, rfl⟩ := Prod.mk.inj h
    exact Or.inr ⟨rfl, rfl⟩
  | shifted _ hn => rcases hn with rfl | rfl <;> exact Or.inl ⟨rfl, rfl⟩
  | firstFailed _ h =>
    have hn := issued_of_leave h
    exact Or.inl hn
  | firstPended _ h =>
    obtain ⟨ds, tasks, w, rfl, hds, rfl, -⟩ := Site.enqueue_spec h
    have hn := issuedIds_of_destroyed hds
    exact Or.inl ⟨hn, rfl⟩
  | firstReturned _ _ h =>
    have hn := issued_of_leave h
    exact Or.inl hn
  | firstResolved => exact Or.inl ⟨rfl, rfl⟩
  | stale => exact Or.inl ⟨rfl, rfl⟩
  | began => exact Or.inl ⟨rfl, rfl⟩
  | pollFailed _ h =>
    have hn := issued_of_leave h
    exact Or.inl hn
  | pollPended _ h =>
    obtain ⟨hds, tasks, w, rfl, -⟩ := Site.insert_spec h
    have hn := issuedIds_of_destroyed hds
    exact Or.inl ⟨hn, rfl⟩
  | pollResolved => exact Or.inl ⟨rfl, rfl⟩
  | finished _ _ h =>
    have hn := issued_of_leave h
    exact Or.inl hn
  | announceFailed _ h =>
    have hn := issued_of_leave h
    exact Or.inl hn

theorem Move.counts (hm : Move β σ m n m') : m.Counts n m' := by
  cases hm with
  | quiet => exact Or.inl ⟨rfl, rfl⟩
  | woke => exact Or.inl ⟨rfl, rfl⟩
  | @spawned site _ _ _ _ _ _ _ h _ =>
    obtain ⟨rfl, ds, tasks, w, rfl, hds, rfl, -⟩ := Site.spawn_spec h
    have hn := congrArg (site.executor.nextId :: ·) (issuedIds_of_destroyed hds)
    exact Or.inr ⟨hn, rfl⟩
  | turned h => exact h.counts

end Machine

/-! ### Runs -/

/-- So many ids, from the first one on. -/
def firstIds (count : Nat) : List TaskId :=
  (List.range count).map fun i ↦ Executor.firstId + UInt64.ofNat i

theorem firstIds_succ (count : Nat) :
    firstIds (count + 1) = firstIds count ++ [Executor.firstId + UInt64.ofNat count] := by
  simp [firstIds, List.range_succ]

theorem nodup_firstIds {count : Nat} (h : count ≤ UInt64.size) : (firstIds count).Nodup := by
  rw [firstIds, List.Nodup, List.pairwise_map]
  refine List.nodup_range.imp_of_mem fun {i j} hi hj hne he ↦ hne ?_
  rw [List.mem_range] at hi hj
  have hij : UInt64.ofNat i = UInt64.ofNat j := by simpa using he
  -- Numbers below the size can be read off the ids.
  have hnat := congrArg UInt64.toNat hij
  rwa [UInt64.toNat_ofNat_of_lt' (Nat.lt_of_lt_of_le hi h),
    UInt64.toNat_ofNat_of_lt' (Nat.lt_of_lt_of_le hj h)] at hnat

theorem mem_firstIds_of_lt {i count : Nat} (h : i < count) :
    Executor.firstId + UInt64.ofNat i ∈ firstIds count :=
  List.mem_map_of_mem (List.mem_range.2 h)

/-- An id is new as long as there are more. -/
theorem notMem_firstIds {count : Nat} (h : count < UInt64.size) :
    Executor.firstId + UInt64.ofNat count ∉ firstIds count := by
  have hnodup := nodup_firstIds (Nat.succ_le_of_lt h)
  rw [firstIds_succ, List.nodup_append] at hnodup
  exact fun hmem ↦ hnodup.2.2 _ hmem _ (List.mem_singleton_self _) rfl

/-- **Ids have been given out in order**, from the first one on, up to the given next one. -/
def Numbered (next : TaskId) (h : List (Note V)) : Prop :=
  issuedIds h = firstIds (issuedIds h).length ∧
    next = Executor.firstId + UInt64.ofNat (issuedIds h).length

/-- The next id is given out. -/
theorem Numbered.issued {next : TaskId} {h n : List (Note V)} (hm : Numbered next h)
    (hn : issuedIds n = [next]) : Numbered (next + 1) (h ++ n) := by
  obtain ⟨hids, hnext⟩ := hm
  rw [Numbered, issuedIds_append, hn, List.length_append, List.length_singleton, firstIds_succ,
    ← hids, hnext, UInt64.ofNat_add]
  exact ⟨rfl, (UInt64.add_assoc _ _ _).trans rfl⟩

/-- A step goes on giving out ids in order. -/
theorem Machine.Counts.numbered {m m' : Machine W B V} {h n : List (Note V)} (hc : m.Counts n m')
    (hm : Numbered m.site.executor.nextId h) : Numbered m'.site.executor.nextId (h ++ n) := by
  rcases hc with ⟨hn, hx⟩ | ⟨hn, hx⟩
  · rw [Numbered, issuedIds_append, hn, List.append_nil, hx]
    exact hm
  · rw [hx]
    exact hm.issued hn

/-- No id is given out twice, as long as not more than `UInt64.size` of them are. -/
theorem Numbered.nodup {next : TaskId} {h : List (Note V)} (hn : Numbered next h)
    (hlen : (issuedIds h).length ≤ UInt64.size) : (issuedIds h).Nodup := by
  rw [hn.1]
  exact nodup_firstIds hlen

namespace Ensemble.Run

variable {P : Ensemble W B V → Prop} {site : Site W B} {s : Ensemble W B V} {h : List (Note V)}

/-- **Ids are given out in order**, from the first one on. -/
theorem numbered (hs : site.Fresh) (hr : Run β σ P (.start site) h s) :
    Numbered s.machine.site.executor.nextId h := by
  induction hr with
  | refl => exact ⟨rfl, hs.nextId⟩
  | step _ hstep _ ih => exact hstep.move.counts.numbered ih

/-- **No id is given out twice**, as long as not more than `UInt64.size` of them are. -/
theorem nodup_issuedIds (hs : site.Fresh) (hr : Run β σ P (.start site) h s)
    (hlen : (issuedIds h).length ≤ UInt64.size) : (issuedIds h).Nodup :=
  (hr.numbered hs).nodup hlen

end Ensemble.Run

end TaskRuntime
