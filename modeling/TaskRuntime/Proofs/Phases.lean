import TaskRuntime.Proofs.Ids

/-!
# The phases of a task

Whatever a history tells about one task is folded into the phase of the task: `phase` runs through
the history and follows the task from its id being given out to its value or its failure. A note
that does not fit the phase spoils it, and nothing mends it again. So a phase that is not spoilt
tells a lot about the history (`Phase.Tells`): in particular, a resolved task has been polled, has
resulted in a value once, and has not been polled since (`ResolvedOnce`).

## Phase and place

`Books` ties phases to places: the waiting tasks are those in the table, the polling ones are those
that are being polled, and no phase is spoilt. Every passage keeps the books
(`Passage.books`), as long as no id is given out twice.
-/

namespace TaskRuntime

variable {W B V : Type}

/-- The task whose life a note tells about. -/
def Note.subject? : Note V → Option TaskId
  | .issued id => some id
  | .entered id => some id
  | .began id _ => some id
  | .ended id _ _ => some id
  | _ => none

/-- Where a task is in its life. -/
inductive Phase (V : Type)
  /-- Its id has not been given out. -/
  | unborn
  /-- It has an id, and is on its way into the table or to its first poll in place. -/
  | named
  /-- It is in the table. -/
  | waiting
  /-- It is being polled, in place or by the loop. -/
  | polling (inPlace : Bool)
  /-- It has resulted in a value. -/
  | resolved (v : V)
  /-- It has failed. -/
  | failed
  /-- Something has been told that makes no sense. -/
  | spoilt

namespace Phase

/-- The phase after a note about the task. -/
def next : Phase V → Note V → Phase V
  | unborn, .issued _ => named
  | named, .entered _ => waiting
  | named, .began _ true => polling true
  | waiting, .began _ false => polling false
  | polling true, .ended _ true (.ok .pending) => named
  | polling false, .ended _ false (.ok .pending) => waiting
  | polling true, .ended _ true (.ok (.ready v)) => resolved v
  | polling false, .ended _ false (.ok (.ready v)) => resolved v
  | polling true, .ended _ true (.error _) => failed
  | polling false, .ended _ false (.error _) => failed
  | _, _ => spoilt

/-- The phase of a task after some notes, from a given one on. -/
def after (id : TaskId) : Phase V → List (Note V) → Phase V
  | s, [] => s
  | s, k :: n => after id (if k.subject? = some id then s.next k else s) n

end Phase

/-- **The phase of a task** after a history. -/
def phase (id : TaskId) (h : List (Note V)) : Phase V := Phase.unborn.after id h

section

variable {id i : TaskId} {h n : List (Note V)} {s : Phase V} {k : Note V}

theorem Phase.after_append (s : Phase V) (h n : List (Note V)) :
    s.after id (h ++ n) = (s.after id h).after id n := by
  induction h generalizing s with
  | nil => rfl
  | cons k h ih => exact ih _

theorem phase_append (h n : List (Note V)) : phase id (h ++ n) = (phase id h).after id n :=
  Phase.after_append _ h n

theorem Phase.after_of_subject (hk : k.subject? = some id) :
    s.after id (k :: n) = (s.next k).after id n := by
  rw [after, if_pos hk]

/-- Notes about other tasks change nothing. -/
theorem Phase.after_of_silent (hn : ∀ k ∈ n, k.subject? ≠ some id) : s.after id n = s := by
  induction n with
  | nil => rfl
  | cons k n ih =>
    rw [after, if_neg (hn k List.mem_cons_self)]
    exact ih fun k hk ↦ hn k (List.mem_cons_of_mem _ hk)

theorem Note.Idle.subject? (hk : k.Idle) : k.subject? = none := by
  cases k <;> first | exact hk.elim | rfl

theorem subject?_ne_of_idle (hn : ∀ k ∈ n, k.Idle) : ∀ k ∈ n, k.subject? ≠ some id := by
  intro k hk
  rw [(hn k hk).subject?]
  exact (Option.some_ne_none id).symm

/-- A poll resolves its task. -/
theorem phase_of_ready {inPlace : Bool} {v : V} (hi : phase id h = .polling inPlace)
    (hn : ∀ k ∈ n, k.Idle) :
    phase id (h ++ .ended id inPlace (.ok (.ready v)) :: n) = .resolved v := by
  rw [phase_append, hi, Phase.after_of_subject rfl, Phase.after_of_silent (subject?_ne_of_idle hn)]
  cases inPlace <;> rfl

/-! ### What a phase tells -/

/-- The id has been given out, and the task has not resulted in a value. -/
def Unready (id : TaskId) (h : List (Note V)) : Prop :=
  .issued id ∈ h ∧ ∀ inPlace v, .ended id inPlace (.ok (.ready v)) ∉ h

/-- **A task has resulted in a value, once**: it has been polled before, it has not resulted in a
value before, and afterwards it has neither been polled nor has it ended a poll. -/
def ResolvedOnce (id : TaskId) (v : V) (h : List (Note V)) : Prop :=
  ∃ before inPlace after, h = before ++ .ended id inPlace (.ok (.ready v)) :: after ∧
    .began id inPlace ∈ before ∧ (∀ inPlace v, .ended id inPlace (.ok (.ready v)) ∉ before) ∧
    ∀ k ∈ after, k.subject? ≠ some id

/-- What a history must be like for a task to be at a phase. -/
def Phase.Tells (id : TaskId) (h : List (Note V)) : Phase V → Prop
  | unborn => ∀ k ∈ h, k.subject? ≠ some id
  | named => Unready id h
  | waiting => Unready id h
  | polling inPlace => Unready id h ∧ .began id inPlace ∈ h
  | resolved v => ResolvedOnce id v h
  | failed => Unready id h ∧ ∃ inPlace e, .ended id inPlace (.error e) ∈ h
  | spoilt => True

theorem Unready.append (hu : Unready id h)
    (hn : ∀ inPlace v, .ended id inPlace (.ok (.ready v)) ∉ n) : Unready id (h ++ n) := by
  refine ⟨List.mem_append_left _ hu.1, fun inPlace v hk ↦ ?_⟩
  rcases List.mem_append.1 hk with hk | hk
  · exact hu.2 inPlace v hk
  · exact hn inPlace v hk

theorem ResolvedOnce.append {v : V} (hr : ResolvedOnce id v h)
    (hn : ∀ k ∈ n, k.subject? ≠ some id) : ResolvedOnce id v (h ++ n) := by
  obtain ⟨before, inPlace, after, rfl, hbegan, honce, hafter⟩ := hr
  refine ⟨before, inPlace, after ++ n, by simp, hbegan, honce, fun k hk ↦ ?_⟩
  rcases List.mem_append.1 hk with hk | hk
  · exact hafter k hk
  · exact hn k hk

/-- A note about another task leaves what a phase tells. -/
theorem Phase.Tells.append (ht : s.Tells id h) (hk : k.subject? ≠ some id) :
    s.Tells id (h ++ [k]) := by
  have hn : ∀ j ∈ [k], j.subject? ≠ some id := fun j hj ↦ List.mem_singleton.1 hj ▸ hk
  have hready : ∀ inPlace v, .ended id inPlace (.ok (.ready v)) ∉ [k] :=
    fun inPlace v hj ↦ hn _ hj rfl
  cases s with
  | unborn => exact List.forall_mem_append.2 ⟨ht, hn⟩
  | named => exact Unready.append ht hready
  | waiting => exact Unready.append ht hready
  | polling inPlace => exact ⟨ht.1.append hready, List.mem_append_left _ ht.2⟩
  | resolved v => exact ResolvedOnce.append ht hn
  | failed =>
    obtain ⟨inPlace, e, he⟩ := ht.2
    exact ⟨ht.1.append hready, inPlace, e, List.mem_append_left _ he⟩
  | spoilt => trivial

/-- A note about the task makes the next phase tell what it has to. -/
theorem Phase.Tells.next (ht : s.Tells id h) (hk : k.subject? = some id) :
    (s.next k).Tells id (h ++ [k]) := by
  unfold Phase.next
  -- One goal for each pair of a phase and a note that fits it, and one for all others.
  split
  · next i =>
    obtain rfl : i = id := Option.some.inj hk
    refine ⟨by simp, fun inPlace v hj ↦ ?_⟩
    exact ht _ (by simpa using hj) rfl
  · exact Unready.append ht (by simp)
  · next i =>
    obtain rfl : i = id := Option.some.inj hk
    exact ⟨Unready.append ht (by simp), by simp⟩
  · next i =>
    obtain rfl : i = id := Option.some.inj hk
    exact ⟨Unready.append ht (by simp), by simp⟩
  · exact Unready.append ht.1 (by simp)
  · exact Unready.append ht.1 (by simp)
  · next i v =>
    obtain rfl : i = id := Option.some.inj hk
    exact ⟨h, true, [], rfl, ht.2, ht.1.2, by simp⟩
  · next i v =>
    obtain rfl : i = id := Option.some.inj hk
    exact ⟨h, false, [], rfl, ht.2, ht.1.2, by simp⟩
  · next i e =>
    obtain rfl : i = id := Option.some.inj hk
    exact ⟨Unready.append ht.1 (by simp), true, e, by simp⟩
  · next i e =>
    obtain rfl : i = id := Option.some.inj hk
    exact ⟨Unready.append ht.1 (by simp), false, e, by simp⟩
  · trivial

theorem Phase.Tells.after (ht : s.Tells id h) : (s.after id n).Tells id (h ++ n) := by
  induction n generalizing s h with
  | nil => simpa [Phase.after] using ht
  | cons k n ih =>
    rw [List.append_cons, Phase.after]
    split
    · next hk => exact ih (ht.next hk)
    · next hk => exact ih (ht.append hk)

/-- **A phase tells what the history is like.** -/
theorem phase_tells (id : TaskId) (h : List (Note V)) : (phase id h).Tells id h :=
  Phase.Tells.after (s := .unborn) (h := []) (n := h) (by simp [Phase.Tells])

/-! ### How phases come about -/

theorem Phase.next_spoilt (k : Note V) : spoilt.next k = spoilt := by
  unfold Phase.next
  split <;> simp_all

theorem Phase.after_spoilt (n : List (Note V)) : spoilt.after id n = spoilt := by
  induction n with
  | nil => rfl
  | cons k n ih =>
    rw [after, next_spoilt, ite_self]
    exact ih

/-- A task without an id has no life. -/
theorem Phase.after_unborn (hn : .issued id ∉ n) :
    unborn.after id n = unborn ∨ unborn.after id n = spoilt := by
  induction n with
  | nil => exact Or.inl rfl
  | cons k n ih =>
    rw [List.mem_cons, not_or] at hn
    rw [after]
    split
    · next hk =>
      have hspoilt : unborn.next k = spoilt := by
        cases k with
        | issued i => exact absurd (congrArg Note.issued (Option.some.inj hk)).symm hn.1
        | _ => rfl
      rw [hspoilt, after_spoilt]
      exact Or.inr rfl
    · exact ih hn.2

/-- An id is given out to a task that has none. -/
theorem Phase.unborn_of_issued (hs : s.after id (.issued id :: n) ≠ spoilt) : s = unborn := by
  rw [after_of_subject rfl] at hs
  cases s with
  | unborn => rfl
  | polling inPlace => cases inPlace <;> exact absurd (after_spoilt n) hs
  | _ => exact absurd (after_spoilt n) hs

theorem Phase.next_ne_unborn (s : Phase V) (k : Note V) : s.next k ≠ unborn := by
  unfold Phase.next
  split <;> simp

theorem Phase.after_ne_unborn (hs : s ≠ unborn) (n : List (Note V)) : s.after id n ≠ unborn := by
  induction n generalizing s with
  | nil => exact hs
  | cons k n ih =>
    rw [after]
    split
    · exact ih (s.next_ne_unborn k)
    · exact ih hs

/-- No way leads into the table any more: the task has entered it, or has been resolved. -/
def Phase.Late : Phase V → Prop
  | unborn => False
  | named => False
  | polling true => False
  | _ => True

theorem Phase.Late.next (hs : s.Late) (k : Note V) : (s.next k).Late := by
  unfold Phase.next
  split <;> first | exact hs.elim | trivial

theorem Phase.Late.after (hs : s.Late) (n : List (Note V)) : (s.after id n).Late := by
  induction n generalizing s with
  | nil => exact hs
  | cons k n ih =>
    rw [Phase.after]
    split
    · exact ih (hs.next k)
    · exact ih hs

/-- A task that has entered the table is late, whatever has happened since. -/
theorem Phase.late_of_entered (hn : .entered id ∈ n) : (s.after id n).Late := by
  induction n generalizing s with
  | nil => cases hn
  | cons k n ih =>
    rcases List.mem_cons.1 hn with rfl | hn
    · rw [Phase.after_of_subject rfl]
      refine Late.after ?_ n
      cases s with
      | polling inPlace => cases inPlace <;> trivial
      | _ => trivial
    · exact ih hn

/-- A late task does not enter the table. -/
theorem Phase.Late.spoilt_of_entered (hs : s.Late) (hn : .entered id ∈ n) :
    s.after id n = spoilt := by
  induction n generalizing s with
  | nil => cases hn
  | cons k n ih =>
    rcases List.mem_cons.1 hn with rfl | hn
    · have hspoilt : s.next (.entered id) = spoilt := by
        cases s with
        | unborn => exact hs.elim
        | named => exact hs.elim
        | polling inPlace => cases inPlace <;> rfl
        | _ => rfl
      rw [after_of_subject rfl, hspoilt, after_spoilt]
    · rw [Phase.after]
      split
      · exact ih (hs.next k) hn
      · exact ih hs hn

/-- A task fails by a poll that fails. -/
theorem Phase.of_after_failed (hs : s.after id n = failed) :
    s = failed ∨ ∃ inPlace e, .ended id inPlace (.error e) ∈ n := by
  induction n generalizing s with
  | nil => exact Or.inl hs
  | cons k n ih =>
    rw [after] at hs
    split at hs
    · next hk =>
      rcases ih hs with hfailed | ⟨inPlace, e, he⟩
      · unfold Phase.next at hfailed
        split at hfailed <;> simp at hfailed
        all_goals
          obtain rfl := Option.some.inj hk
          exact Or.inr ⟨_, _, List.mem_cons_self⟩
      · exact Or.inr ⟨inPlace, e, List.mem_cons_of_mem _ he⟩
    · rcases ih hs with hfailed | ⟨inPlace, e, he⟩
      · exact Or.inl hfailed
      · exact Or.inr ⟨inPlace, e, List.mem_cons_of_mem _ he⟩

/-- A task is resolved by a poll that results in a value. -/
theorem Phase.of_after_resolved {v : V} (hs : s.after id n = resolved v) :
    s = resolved v ∨ ∃ inPlace, .ended id inPlace (.ok (.ready v)) ∈ n := by
  induction n generalizing s with
  | nil => exact Or.inl hs
  | cons k n ih =>
    rw [after] at hs
    split at hs
    · next hk =>
      rcases ih hs with hresolved | ⟨inPlace, he⟩
      · unfold Phase.next at hresolved
        split at hresolved <;> simp at hresolved
        all_goals
          obtain rfl := Option.some.inj hk
          obtain rfl := hresolved
          exact Or.inr ⟨_, List.mem_cons_self⟩
      · exact Or.inr ⟨inPlace, List.mem_cons_of_mem _ he⟩
    · rcases ih hs with hresolved | ⟨inPlace, he⟩
      · exact Or.inl hresolved
      · exact Or.inr ⟨inPlace, List.mem_cons_of_mem _ he⟩

/-- Nothing is told about a task after it has been resolved, unless its phase is spoilt. -/
theorem Phase.silent_of_resolved {v : V} (hs : (resolved v).after id n ≠ spoilt) :
    ∀ k ∈ n, k.subject? ≠ some id := by
  induction n with
  | nil => simp
  | cons k n ih =>
    rw [after] at hs
    split at hs
    · next hk =>
      have hspoilt : (resolved v).next k = spoilt := by cases k <;> rfl
      rw [hspoilt, after_spoilt] at hs
      exact absurd rfl hs
    · next hk => exact List.forall_mem_cons.2 ⟨hk, ih hs⟩

/-- A task that has resulted in a value is resolved, unless its phase is spoilt. -/
theorem phase_of_resolvedOnce {v : V} (hr : ResolvedOnce id v h) (hs : phase id h ≠ .spoilt) :
    phase id h = .resolved v := by
  obtain ⟨before, inPlace, after, rfl, hbegan, honce, hafter⟩ := hr
  rw [phase_append, Phase.after_of_subject rfl, Phase.after_of_silent hafter] at hs ⊢
  unfold Phase.next at hs ⊢
  split at hs <;> simp_all

end

/-! ### Books -/

/-- **Phases and places agree**: `t` tells which tasks are in the table, `f` which are being polled.
-/
structure Books (t : TaskId → Prop) (f : List (TaskId × Bool)) (h : List (Note V)) : Prop where
  /-- The waiting tasks are in the table. -/
  waiting : ∀ id, phase id h = .waiting ↔ t id
  /-- The polling tasks are being polled. -/
  polling : ∀ id inPlace, phase id h = .polling inPlace ↔ (id, inPlace) ∈ f
  /-- No task is being polled twice. -/
  nodup : (f.map Prod.fst).Nodup
  /-- No phase is spoilt, and none is in between. -/
  sound : ∀ id, phase id h ≠ .spoilt ∧ phase id h ≠ .named

section

variable {t t' : TaskId → Prop} {f f' : List (TaskId × Bool)} {h n : List (Note V)}
  {i id : TaskId} {inPlace : Bool}

namespace Books

theorem notMem_of_cons (hb : Books t ((i, inPlace) :: f) h) (ip : Bool) : (i, ip) ∉ f := by
  intro hmem
  exact (List.nodup_cons.1 hb.nodup).1 (List.mem_map.2 ⟨(i, ip), hmem, rfl⟩)

/-- A task whose id has not been given out is unborn. -/
theorem unborn (hb : Books t f h) (hi : .issued i ∉ h) : phase i h = .unborn :=
  (Phase.after_unborn hi).resolve_right (hb.sound i).1

theorem notMem_of_unborn (hb : Books t f h) (hi : phase i h = .unborn) (ip : Bool) :
    (i, ip) ∉ f := by
  intro hmem
  rw [(hb.polling i ip).2 hmem] at hi
  cases hi

theorem not_tabled_of_unborn (hb : Books t f h) (hi : phase i h = .unborn) : ¬ t i := by
  intro ht
  rw [(hb.waiting i).2 ht] at hi
  cases hi

theorem not_tabled_of_polled (hb : Books t f h) (hp : (id, inPlace) ∈ f) : ¬ t id := by
  intro ht
  have hwaiting := (hb.waiting id).2 ht
  rw [(hb.polling id inPlace).2 hp] at hwaiting
  cases hwaiting

/-- The books after notes about one task, from its new phase and its new place. -/
theorem update (hb : Books t f h) {s : Phase V} (hi : phase i (h ++ n) = s)
    (hn : ∀ k ∈ n, k.subject? = none ∨ k.subject? = some i) (ht : ∀ id, id ≠ i → (t' id ↔ t id))
    (hf : ∀ id, id ≠ i → ∀ ip, (id, ip) ∈ f' ↔ (id, ip) ∈ f) (hnd : (f'.map Prod.fst).Nodup)
    (hw : s = .waiting ↔ t' i) (hp : ∀ ip, s = .polling ip ↔ (i, ip) ∈ f')
    (hs : s ≠ .spoilt ∧ s ≠ .named) : Books t' f' (h ++ n) := by
  have hother (id : TaskId) (hid : id ≠ i) : phase id (h ++ n) = phase id h := by
    rw [phase_append, Phase.after_of_silent]
    intro k hk
    rcases hn k hk with hk | hk <;> simp [hk, Ne.symm hid]
  refine ⟨fun id ↦ ?_, fun id ip ↦ ?_, hnd, fun id ↦ ?_⟩
  · by_cases hid : id = i
    · rw [hid, hi, hw]
    · rw [hother id hid, hb.waiting, ht id hid]
  · by_cases hid : id = i
    · rw [hid, hi, hp]
    · rw [hother id hid, hb.polling, hf id hid]
  · by_cases hid : id = i
    · rw [hid, hi]
      exact hs
    · rw [hother id hid]
      exact hb.sound id

end Books

theorem phase_of_phase {s s' : Phase V} (hs : phase id h = s) (hn : s.after id n = s') :
    phase id (h ++ n) = s' := by
  rw [phase_append, hs, hn]

/-- An id that is given out now has not been given out before. -/
theorem not_issued_of_nodup (hnd : (issuedIds (h ++ n)).Nodup) (hi : .issued i ∈ n) :
    .issued i ∉ h := by
  rw [issuedIds_append] at hnd
  exact fun hh ↦ (List.nodup_append.1 hnd).2.2 i (mem_issuedIds.2 hh) i (mem_issuedIds.2 hi) rfl

/-- **Passages keep the books**, as long as no id is given out twice. -/
theorem Passage.books (hp : Passage V t f n t' f') (hnd : (issuedIds (h ++ n)).Nodup)
    (hb : Books t f h) : Books t' f' (h ++ n) := by
  cases hp with
  | still hn ht =>
    have hphase (id : TaskId) : phase id (h ++ n) = phase id h := by
      rw [phase_append, Phase.after_of_silent (subject?_ne_of_idle hn)]
    refine ⟨fun id ↦ by rw [hphase, hb.waiting, ht], fun id ip ↦ by rw [hphase, hb.polling],
      hb.nodup, fun id ↦ ?_⟩
    rw [hphase]
    exact hb.sound id
  | @spawned _ _ ds i hds ht =>
    have hi := hb.unborn (not_issued_of_nodup hnd List.mem_cons_self)
    have hafter : Phase.unborn.after i (.issued i :: .entered i :: ds) = .waiting := by
      rw [Phase.after_of_subject rfl, Phase.after_of_subject rfl,
        Phase.after_of_silent (Note.forall_of_destroyed hds (Option.some_ne_none _).symm)]
      rfl
    refine hb.update (phase_of_phase hi hafter) ?_ (fun id hid ↦ by simp [ht, hid])
      (fun _ _ _ ↦ Iff.rfl) hb.nodup (by simp [ht])
      (fun ip ↦ by simp [hb.notMem_of_unborn hi]) (by simp)
    exact List.forall_mem_cons.2 ⟨Or.inr rfl,
      List.forall_mem_cons.2 ⟨Or.inr rfl, Note.forall_of_destroyed hds (Or.inl rfl)⟩⟩
  | opened i ht =>
    have hi := hb.unborn (not_issued_of_nodup hnd List.mem_cons_self)
    have hafter : Phase.unborn.after i [.issued i, .began i true] = (.polling true : Phase V) := by
      rw [Phase.after_of_subject rfl, Phase.after_of_subject rfl]
      rfl
    have hnotMem := hb.notMem_of_unborn hi
    refine hb.update (phase_of_phase hi hafter) (by simp [Note.subject?])
      (fun id hid ↦ by simp [ht]) (fun id hid ip ↦ by simp [hid]) ?_
      (by simp [ht, hb.not_tabled_of_unborn hi]) (fun ip ↦ by simp [hnotMem, eq_comm]) (by simp)
    refine List.nodup_cons.2 ⟨fun hmem ↦ ?_, hb.nodup⟩
    obtain ⟨⟨j, ip⟩, hj, rfl⟩ := List.mem_map.1 hmem
    exact hnotMem ip hj
  | began i hti ht =>
    have hi := (hb.waiting i).2 hti
    have hafter : Phase.waiting.after i [.began i false] = (.polling false : Phase V) := by
      rw [Phase.after_of_subject rfl]
      rfl
    have hnotMem (ip : Bool) : (i, ip) ∉ f := by
      intro hmem
      rw [(hb.polling i ip).2 hmem] at hi
      cases hi
    refine hb.update (phase_of_phase hi hafter) (by simp [Note.subject?])
      (fun id hid ↦ by simp [ht, hid]) (fun id hid ip ↦ by simp [hid]) ?_ (by simp [ht])
      (fun ip ↦ by simp [hnotMem, eq_comm]) (by simp)
    refine List.nodup_cons.2 ⟨fun hmem ↦ ?_, hb.nodup⟩
    obtain ⟨⟨j, ip⟩, hj, rfl⟩ := List.mem_map.1 hmem
    exact hnotMem ip hj
  | @admitted _ _ ds i hds ht =>
    have hi := (hb.polling i true).2 List.mem_cons_self
    have hafter : (Phase.polling true).after i
        (.ended i true (.ok .pending) :: .entered i :: ds) = .waiting := by
      rw [Phase.after_of_subject rfl, Phase.after_of_subject rfl,
        Phase.after_of_silent (Note.forall_of_destroyed hds (Option.some_ne_none _).symm)]
      rfl
    refine hb.update (phase_of_phase hi hafter) ?_ (fun id hid ↦ by simp [ht, hid])
      (fun id hid ip ↦ by simp [hid]) (List.nodup_cons.1 hb.nodup).2 (by simp [ht])
      (fun ip ↦ by simp [hb.notMem_of_cons]) (by simp)
    exact List.forall_mem_cons.2 ⟨Or.inr rfl,
      List.forall_mem_cons.2 ⟨Or.inr rfl, Note.forall_of_destroyed hds (Or.inl rfl)⟩⟩
  | @pended _ _ ds i hds ht =>
    have hi := (hb.polling i false).2 List.mem_cons_self
    have hafter : (Phase.polling false).after i (.ended i false (.ok .pending) :: ds) =
        .waiting := by
      rw [Phase.after_of_subject rfl,
        Phase.after_of_silent (Note.forall_of_destroyed hds (Option.some_ne_none _).symm)]
      rfl
    refine hb.update (phase_of_phase hi hafter) ?_ (fun id hid ↦ by simp [ht, hid])
      (fun id hid ip ↦ by simp [hid]) (List.nodup_cons.1 hb.nodup).2 (by simp [ht])
      (fun ip ↦ by simp [hb.notMem_of_cons]) (by simp)
    exact List.forall_mem_cons.2 ⟨Or.inr rfl, Note.forall_of_destroyed hds (Or.inl rfl)⟩
  | @resolved _ _ ds i inPlace v hds ht =>
    have hi := (hb.polling i inPlace).2 List.mem_cons_self
    have hnt : ¬ t i := fun hti ↦ by
      rw [(hb.waiting i).2 hti] at hi
      cases hi
    refine hb.update (phase_of_ready hi hds) ?_ (fun id hid ↦ ht id)
      (fun id hid ip ↦ by simp [hid]) (List.nodup_cons.1 hb.nodup).2 (by simp [ht, hnt])
      (fun ip ↦ by simp [hb.notMem_of_cons]) (by simp)
    exact List.forall_mem_cons.2 ⟨Or.inr rfl, fun k hk ↦ Or.inl (hds k hk).subject?⟩
  | @failed _ _ ds i inPlace e hds ht =>
    have hi := (hb.polling i inPlace).2 List.mem_cons_self
    have hnt : ¬ t i := fun hti ↦ by
      rw [(hb.waiting i).2 hti] at hi
      cases hi
    have hafter : (Phase.polling inPlace).after i (.ended i inPlace (.error e) :: ds) =
        .failed := by
      rw [Phase.after_of_subject rfl, Phase.after_of_silent (subject?_ne_of_idle hds)]
      cases inPlace <;> rfl
    refine hb.update (phase_of_phase hi hafter) ?_ (fun id hid ↦ ht id)
      (fun id hid ip ↦ by simp [hid]) (List.nodup_cons.1 hb.nodup).2 (by simp [ht, hnt])
      (fun ip ↦ by simp [hb.notMem_of_cons]) (by simp)
    exact List.forall_mem_cons.2 ⟨Or.inr rfl, fun k hk ↦ Or.inl (hds k hk).subject?⟩

end

/-- **All runs keep the books**, as long as not more than `UInt64.size` ids are given out. -/
theorem Ensemble.Run.books {β : Behaviour W B V} {σ : Surroundings W B V}
    {P : Ensemble W B V → Prop} {site : Site W B} {s : Ensemble W B V} {h : List (Note V)}
    (hs : site.Fresh) (hr : Run β σ P (.start site) h s)
    (hlen : (issuedIds h).length ≤ UInt64.size) : Books s.machine.Tabled s.machine.polled h := by
  induction hr with
  | refl =>
    refine ⟨fun id ↦ ?_, fun id ip ↦ ?_, List.nodup_nil, fun id ↦ ⟨by simp [phase, Phase.after],
      by simp [phase, Phase.after]⟩⟩
    · simp [phase, Phase.after, start, Machine.Tabled, hs.tasks]
    · simp [phase, Phase.after, start, Machine.polled]
  | @step h s n s' hr hstep hp ih =>
    have hnd := (hr.step hstep hp).nodup_issuedIds hs hlen
    exact hstep.move.passage.books hnd (ih (length_issuedIds_le hlen))

end TaskRuntime
