import Mathlib.Logic.Function.Basic
import TaskRuntime.Kernel.System

/-!
# Who closes a descriptor

Named owners come and go, pass descriptors on, give them up and let go of them (`Holder.Op`), while
others open descriptors and close those that nobody owns. The kernel's own account of what is opened
and closed (`Account`) tells what has come of that.

A descriptor that has been closed may be opened again under the same number. So the history of a
number is a sequence of tenures: it is shut, then open and loose, then held by an owner, who closes
it or gives it up. `Tenure.Next` says which incident ends which tenure. All that is proved about
histories rests on one invariant, `Holder.Tidy`: the incidents of each number follow one another in
this way, and those that are held are the ones that an owner has. Every step keeps it
(`Holder.Estate.Step.tidy`), and `Holder.Estate.Run.orderly` reads off what it means for runs.

What is assumed of the kernel is that a number it hands out is not in use, and that closing closes,
also where it reports a failure; owners only log such a report. What is assumed of the others is
that they do not close what is owned.
-/

namespace TaskRuntime

open Function (update)

/-! ### What a kernel keeps account of -/

/-- A call that opens or closes a descriptor. -/
inductive FileCall
  /-- A descriptor is opened. -/
  | opens (d : Descriptor)
  /-- A descriptor is closed. -/
  | closes (d : Descriptor)
  deriving DecidableEq, Repr

namespace FileCall

/-- Whether a descriptor is open after a call, if it is open or not before. -/
def leaves (d : Descriptor) (before : Bool) : FileCall → Bool
  | opens d' => before || decide (d' = d)
  | closes d' => before && decide (d' ≠ d)

/-- Whether a descriptor is open after some calls, before which none was. -/
def isOpen (d : Descriptor) (calls : List FileCall) : Bool := calls.foldl (leaves d) false

@[simp] theorem isOpen_concat (d : Descriptor) (calls : List FileCall) (c : FileCall) :
    isOpen d (calls ++ [c]) = leaves d (isOpen d calls) c := by
  simp [isOpen]

end FileCall

/-- **The account that a kernel keeps** of descriptors: the calls that have opened and closed one.
A socket gets a number that is not open, and a closed descriptor is closed whatever the answer. -/
structure Account (K : Type) [Kernel K] where
  /-- What has been opened and closed so far. -/
  record : K → List FileCall
  /-- A socket is opened under a number that is not in use. -/
  socket_ok : ∀ {k k' : K} {address : Address} {d : Descriptor},
    Kernel.socket k address = (.ok d, k') →
      0 ≤ d ∧ FileCall.isOpen d (record k) = false ∧ record k' = record k ++ [.opens d]
  /-- A socket that is refused is not opened. -/
  socket_error : ∀ {k k' : K} {address : Address} {e : Errno},
    Kernel.socket k address = (.error e, k') → record k' = record k
  /-- Closing closes, also if it fails. -/
  close : ∀ (k : K) (d : Descriptor), record (Kernel.close k d).2 = record k ++ [.closes d]
  /-- Resolving a host opens and closes nothing that stays. -/
  resolve : ∀ (k : K) (host : Bytes) (port : Int), record (Kernel.resolve k host port).2 = record k
  /-- Connecting opens and closes nothing. -/
  connect : ∀ (k : K) (d : Descriptor) (address : Address),
    record (Kernel.connect k d address).2 = record k
  /-- Sending opens and closes nothing. -/
  send : ∀ (k : K) (d : Descriptor) (text : Bytes), record (Kernel.send k d text).2 = record k
  /-- Reading opens and closes nothing. -/
  read : ∀ (k : K) (d : Descriptor) (n : Nat), record (Kernel.read k d n).2 = record k
  /-- Asking for the mode opens and closes nothing. -/
  isNonblocking : ∀ (k : K) (d : Descriptor), record (Kernel.isNonblocking k d).2 = record k
  /-- Setting the mode opens and closes nothing. -/
  setNonblocking : ∀ (k : K) (d : Descriptor), record (Kernel.setNonblocking k d).2 = record k
  /-- Registering opens and closes nothing. -/
  add : ∀ (k : K) (poller d : Descriptor) (e : Event), record (Kernel.add k poller d e).2 = record k
  /-- Taking a registration back opens and closes nothing. -/
  remove : ∀ (k : K) (poller d : Descriptor), record (Kernel.remove k poller d).2 = record k

/-! ### Histories -/

/-- What can happen to a descriptor. -/
inductive Incident
  /-- Somebody opens it. -/
  | opened (d : Descriptor)
  /-- An owner takes it. -/
  | adopted (d : Descriptor)
  /-- Its owner gives it up. -/
  | released (d : Descriptor)
  /-- Its owner closes it. -/
  | closed (d : Descriptor)
  /-- Somebody closes it without owning it. -/
  | lost (d : Descriptor)
  deriving DecidableEq, Repr

namespace Incident

/-- The descriptor that an incident is about. -/
def number : Incident → Descriptor
  | opened d | adopted d | released d | closed d | lost d => d

/-- The calls that an incident comes with. -/
def calls : Incident → List FileCall
  | opened d => [.opens d]
  | closed d | lost d => [.closes d]
  | adopted _ | released _ => []

end Incident

/-- The calls of a history. -/
def callsOf (h : List Incident) : List FileCall := h.flatMap Incident.calls

@[simp] theorem callsOf_nil : callsOf [] = [] := rfl

@[simp] theorem callsOf_cons (i : Incident) (h : List Incident) :
    callsOf (i :: h) = i.calls ++ callsOf h := List.flatMap_cons

@[simp] theorem callsOf_append (h h' : List Incident) :
    callsOf (h ++ h') = callsOf h ++ callsOf h' := List.flatMap_append

/-- How things stand with the number of a descriptor. -/
inductive Tenure
  /-- It is not open. -/
  | shut
  /-- It is open, and nobody owns it. -/
  | loose
  /-- It is open, and somebody owns it. -/
  | held
  deriving DecidableEq, Repr

namespace Tenure

/-- **Which incident ends which tenure**, and what comes next. -/
inductive Next : Tenure → Incident → Tenure → Prop
  | opened (d : Descriptor) : Next shut (.opened d) loose
  | adopted (d : Descriptor) : Next loose (.adopted d) held
  | lost (d : Descriptor) : Next loose (.lost d) shut
  | released (d : Descriptor) : Next held (.released d) loose
  | closed (d : Descriptor) : Next held (.closed d) shut

/-- In a history, each incident of a number is in turn. -/
inductive Course (d : Descriptor) : Tenure → List Incident → Tenure → Prop
  | refl (c : Tenure) : Course d c [] c
  | turn {c c₁ c' : Tenure} {i : Incident} {h : List Incident} (hi : i.number = d)
      (hn : c.Next i c₁) (hc : Course d c₁ h c') : Course d c (i :: h) c'
  | other {c c' : Tenure} {i : Incident} {h : List Incident} (hi : i.number ≠ d)
      (hc : Course d c h c') : Course d c (i :: h) c'

/-- How things stand with a number that nobody owns. -/
def unowned (d : Descriptor) (calls : List FileCall) : Tenure :=
  if FileCall.isOpen d calls then loose else shut

variable {d : Descriptor} {c c₁ c' : Tenure} {h h' p q r : List Incident} {i : Incident}
  {calls : List FileCall}

theorem unowned_ne_held : unowned d calls ≠ held := by
  unfold unowned
  split <;> decide

theorem isOpen_iff_unowned : FileCall.isOpen d calls = true ↔ unowned d calls ≠ shut := by
  unfold unowned
  split <;> simp_all

theorem eq_loose (hshut : c ≠ shut) (hheld : c ≠ held) : c = loose := by
  cases c with
  | shut => exact absurd rfl hshut
  | loose => rfl
  | held => exact absurd rfl hheld

namespace Course

theorem trans (hc : Course d c h c₁) (hc' : Course d c₁ h' c') : Course d c (h ++ h') c' := by
  induction hc with
  | refl => exact hc'
  | turn hi hn _ ih => exact .turn hi hn (ih hc')
  | other hi _ ih => exact .other hi (ih hc')

theorem split (hc : Course d c (p ++ q) c') : ∃ c₁, Course d c p c₁ ∧ Course d c₁ q c' := by
  induction p generalizing c with
  | nil => exact ⟨c, .refl c, hc⟩
  | cons i p ih =>
    cases hc with
    | turn hi hn hc =>
      obtain ⟨c₁, hp, hq⟩ := ih hc
      exact ⟨c₁, .turn hi hn hp, hq⟩
    | other hi hc =>
      obtain ⟨c₁, hp, hq⟩ := ih hc
      exact ⟨c₁, .other hi hp, hq⟩

theorem concat (hc : Course d c h c₁) (hi : i.number = d) (hn : c₁.Next i c') :
    Course d c (h ++ [i]) c' :=
  hc.trans (.turn hi hn (.refl c'))

theorem concat_other (hc : Course d c h c') (hi : i.number ≠ d) : Course d c (h ++ [i]) c' :=
  hc.trans (.other hi (.refl c'))

/-- An owner closes a number only while it is held. -/
theorem closing (hc : Course d c (.closed d :: h) c') : c = held ∧ Course d shut h c' := by
  cases hc with
  | turn hi hn hc =>
    cases hn
    exact ⟨rfl, hc⟩
  | other hi hc => exact absurd rfl hi

/-- From its adoption on, a number is held. -/
theorem adopting (hc : Course d c (.adopted d :: h) c') : Course d held h c' := by
  cases hc with
  | turn hi hn hc =>
    cases hn
    exact hc
  | other hi hc => exact absurd rfl hi

/-- The calls of a history leave a number open unless it is shut in the end. -/
theorem isOpen_iff (hc : Course d c h c') (hcalls : FileCall.isOpen d calls = true ↔ c ≠ shut) :
    FileCall.isOpen d (calls ++ callsOf h) = true ↔ c' ≠ shut := by
  induction hc generalizing calls with
  | refl c => simpa using hcalls
  | @turn c c₁ c' i h hi hn _ ih =>
    rw [callsOf_cons, ← List.append_assoc]
    refine ih ?_
    cases hn <;> simp_all [Incident.calls, Incident.number, FileCall.leaves]
  | @other c c' i h hi _ ih =>
    rw [callsOf_cons, ← List.append_assoc]
    refine ih ?_
    cases i <;> simp_all [Incident.calls, Incident.number, FileCall.leaves]

/-- A number that is open after having been shut has been opened. -/
theorem opened_mem (hc : Course d c h c') (hs : c = shut) (hs' : c' ≠ shut) : .opened d ∈ h := by
  induction hc with
  | refl => exact absurd hs hs'
  | turn hi hn =>
    subst hs
    cases hn
    exact List.mem_cons.2 (.inl (congrArg Incident.opened hi.symm))
  | other _ _ ih => exact List.mem_cons_of_mem _ (ih hs hs')

/-- What is held is next closed or given up by its owner, or goes on being held. -/
theorem ended (hc : Course d c h c') (hs : c = held) :
    (c' = held ∧ ∀ i ∈ h, i.number ≠ d) ∨
      ∃ p q, (h = p ++ .closed d :: q ∨ h = p ++ .released d :: q) ∧ ∀ i ∈ p, i.number ≠ d := by
  induction hc with
  | refl => exact .inl ⟨hs, by simp⟩
  | @turn c c₁ c' i h hi hn =>
    subst hs hi
    refine .inr ⟨[], h, ?_, by simp⟩
    cases hn with
    | released => exact .inr rfl
    | closed => exact .inl rfl
  | @other c c' i h hi _ ih =>
    rcases ih hs with ⟨hc, hh⟩ | ⟨p, q, hpq, hp⟩
    · exact .inl ⟨hc, List.forall_mem_cons.2 ⟨hi, hh⟩⟩
    · refine .inr ⟨i :: p, q, ?_, List.forall_mem_cons.2 ⟨hi, hp⟩⟩
      exact hpq.imp (congrArg (i :: ·)) (congrArg (i :: ·))

/-- What has been adopted has been closed or given up by its owners, unless it is held. -/
theorem count_eq (hc : Course d c h c') :
    h.count (.adopted d) + (if c = held then 1 else 0) =
      h.count (.closed d) + h.count (.released d) + (if c' = held then 1 else 0) := by
  induction hc with
  | refl => simp
  | turn hi hn _ ih =>
    subst hi
    cases hn <;> simp [Incident.number] at ih ⊢ <;> omega
  | @other c c' i h hi _ ih =>
    have hne : ∀ j : Incident, j.number = d → (i == j) = false := by
      rintro j rfl
      exact beq_eq_false_iff_ne.2 (ne_of_apply_ne Incident.number hi)
    simp only [List.count_cons, hne (.adopted d) rfl, hne (.closed d) rfl, hne (.released d) rfl]
    exact ih

end Course

end Tenure

/-! ### Who owns what -/

theorem Owned.eq_mk_iff {x : Owned} {d : Descriptor} : x = ⟨d⟩ ↔ x.number = d := by
  cases x
  simp

theorem Owned.isValid_iff {x : Owned} : x.isValid = true ↔ 0 ≤ x.number := decide_eq_true_iff

/-- What happens to a descriptor that is owned; nothing, if none is. -/
def Owned.incidents (f : Descriptor → Incident) (x : Owned) : List Incident :=
  if x.isValid then [f x.number] else []

theorem Owned.incidents_of_nonneg {d : Descriptor} (f : Descriptor → Incident) (hd : 0 ≤ d) :
    (⟨d⟩ : Owned).incidents f = [f d] :=
  if_pos (Owned.isValid_iff.2 hd)

@[simp] theorem Owned.incidents_nothing (f : Descriptor → Incident) :
    Owned.nothing.incidents f = [] := rfl

namespace Holder

/-- Somebody owns a descriptor. -/
def Taken (v : Bytes → Owned) (d : Descriptor) : Prop := ∃ n, v n = ⟨d⟩

/-- No two owners own the same descriptor. -/
def Apart (v : Bytes → Owned) : Prop := ∀ m n, (v m).isValid = true → v m = v n → m = n

/-- An owner may take a descriptor: there is none, or it is open and nobody owns it. -/
def Available (v : Bytes → Owned) (calls : List FileCall) (d : Descriptor) : Prop :=
  0 ≤ d → FileCall.isOpen d calls = true ∧ ¬ Taken v d

section View

variable {v : Bytes → Owned} {m n : Bytes} {x : Owned} {d : Descriptor}

theorem ne_mk_of_not_isValid (hd : 0 ≤ d) (hx : ¬ x.isValid = true) : x ≠ ⟨d⟩ := by
  rintro rfl
  exact hx (Owned.isValid_iff.2 hd)

theorem nothing_not_isValid : ¬ Owned.nothing.isValid = true := by decide

theorem taken_update : Taken (update v n x) d ↔ x = ⟨d⟩ ∨ ∃ m, m ≠ n ∧ v m = ⟨d⟩ := by
  constructor
  · rintro ⟨m, hm⟩
    by_cases hmn : m = n
    · subst hmn
      exact .inl (by simpa using hm)
    · exact .inr ⟨m, hmn, by simpa [hmn] using hm⟩
  · rintro (rfl | ⟨m, hmn, hm⟩)
    · exact ⟨n, by simp⟩
    · exact ⟨m, by simpa [hmn] using hm⟩

/-- Taking a descriptor out of one owner's hands takes it out of everybody's. -/
theorem Apart.not_taken_update (ha : Apart v) (hd : 0 ≤ d) (hn : v n = ⟨d⟩) :
    ¬ Taken (update v n .nothing) d := by
  intro ht
  rcases taken_update.1 ht with hx | ⟨m, hmn, hm⟩
  · exact ne_mk_of_not_isValid hd nothing_not_isValid hx
  · have hvalid : (v m).isValid = true := Owned.isValid_iff.2 (by simpa [hm] using hd)
    exact hmn (ha m n hvalid (hm.trans hn.symm))

/-- Whether another descriptor has an owner is as before. -/
theorem taken_update_iff (hx : x ≠ ⟨d⟩) (hn : v n ≠ ⟨d⟩) :
    Taken (update v n x) d ↔ Taken v d := by
  rw [taken_update, or_iff_right hx]
  constructor
  · rintro ⟨m, -, hm⟩
    exact ⟨m, hm⟩
  · rintro ⟨m, hm⟩
    exact ⟨m, fun hmn ↦ hn (hmn ▸ hm), hm⟩

/-- An owner that changes hands for something that nobody else has leaves owners apart. -/
theorem Apart.update (ha : Apart v) (hx : x.isValid = true → ∀ m, m ≠ n → v m ≠ x) :
    Apart (update v n x) := by
  intro l m hvalid hlm
  by_cases hl : l = n
  · subst hl
    rw [Function.update_self] at hvalid hlm
    by_contra hne
    rw [Function.update_of_ne (Ne.symm hne)] at hlm
    exact hx hvalid m (Ne.symm hne) hlm.symm
  · rw [Function.update_of_ne hl] at hvalid hlm
    by_cases hm : m = n
    · subst hm
      rw [Function.update_self] at hlm
      exact absurd hlm (hx (hlm ▸ hvalid) l hl)
    · rw [Function.update_of_ne hm] at hlm
      exact ha l m hvalid hlm

end View

/-! ### The invariant -/

/-- **The histories of descriptors and their owners agree**: the incidents of each number are in
turn, and the numbers that are held in the end are those that have one owner. -/
structure Tidy (calls : List FileCall) (v : Bytes → Owned) (h : List Incident) : Prop where
  /-- No two owners own the same descriptor. -/
  apart : Apart v
  /-- The incidents of a number are in turn. -/
  course : ∀ d, 0 ≤ d → ∃ c, Tenure.Course d (.unowned d calls) h c ∧ (c = .held ↔ Taken v d)

namespace Tidy

variable {calls : List FileCall} {v v' : Bytes → Owned} {h : List Incident} {m n : Bytes}
  {d : Descriptor} {i : Incident}

theorem nil (hv : ∀ n, ¬ (v n).isValid = true) : Tidy calls v [] where
  apart m _ hvalid := absurd hvalid (hv m)
  course d hd := by
    refine ⟨_, .refl _, iff_of_false Tenure.unowned_ne_held ?_⟩
    rintro ⟨n, hn⟩
    exact ne_mk_of_not_isValid hd (hv n) hn

/-- A number is open unless it is shut. -/
theorem isOpen_iff {c : Tenure} (hc : Tenure.Course d (.unowned d calls) h c) :
    FileCall.isOpen d (calls ++ callsOf h) = true ↔ c ≠ .shut :=
  hc.isOpen_iff Tenure.isOpen_iff_unowned

/-- Which owner has a descriptor does not matter. -/
theorem congr (ht : Tidy calls v h) (ha : Apart v')
    (hv : ∀ d, 0 ≤ d → (Taken v' d ↔ Taken v d)) : Tidy calls v' h where
  apart := ha
  course d hd := by
    obtain ⟨c, hc, hheld⟩ := ht.course d hd
    exact ⟨c, hc, hheld.trans (hv d hd).symm⟩

/-- One more incident, which is in turn for its number and does not concern the others. -/
theorem concat (ht : Tidy calls v h) (ha : Apart v')
    (hturn : ∀ c, (c = .held ↔ Taken v i.number) →
      (FileCall.isOpen i.number (calls ++ callsOf h) = true ↔ c ≠ .shut) →
      ∃ c', Tenure.Next c i c' ∧ (c' = .held ↔ Taken v' i.number))
    (hothers : ∀ d, 0 ≤ d → d ≠ i.number → (Taken v' d ↔ Taken v d)) :
    Tidy calls v' (h ++ [i]) where
  apart := ha
  course d hd := by
    obtain ⟨c, hc, hheld⟩ := ht.course d hd
    by_cases hi : i.number = d
    · subst hi
      obtain ⟨c', hn, hheld'⟩ := hturn c hheld (isOpen_iff hc)
      exact ⟨c', hc.concat rfl hn, hheld'⟩
    · exact ⟨c, hc.concat_other hi, hheld.trans (hothers d hd (Ne.symm hi)).symm⟩

/-- An owner parts with what it has. -/
theorem part (ht : Tidy calls v h) {f : Descriptor → Incident} (hf : ∀ d, (f d).number = d)
    {c' : Tenure} (hnext : ∀ d, Tenure.Next .held (f d) c') (hne : c' ≠ .held) (n : Bytes) :
    Tidy calls (update v n .nothing) (h ++ (v n).incidents f) := by
  have ha : Apart (update v n .nothing) :=
    ht.apart.update fun hvalid ↦ absurd hvalid nothing_not_isValid
  have hothers : ∀ d, 0 ≤ d → v n ≠ ⟨d⟩ → (Taken (update v n .nothing) d ↔ Taken v d) :=
    fun d hd hn ↦ taken_update_iff (ne_mk_of_not_isValid hd nothing_not_isValid) hn
  unfold Owned.incidents
  split
  · next hvalid =>
    refine ht.concat ha (fun c hheld _ ↦ ?_) fun d hd hdn ↦ hothers d hd fun hn ↦ hdn ?_
    · rw [hf] at hheld ⊢
      obtain rfl := hheld.2 ⟨n, rfl⟩
      exact ⟨c', hnext _, iff_of_false hne
        (ht.apart.not_taken_update (Owned.isValid_iff.1 hvalid) rfl)⟩
    · rw [hf, hn]
  · next hvalid =>
    rw [List.append_nil]
    exact ht.congr ha fun d hd ↦ hothers d hd (ne_mk_of_not_isValid hd hvalid)

/-- An owner lets go of what it has. -/
theorem letGo (ht : Tidy calls v h) (n : Bytes) :
    Tidy calls (update v n .nothing) (h ++ (v n).incidents .closed) :=
  ht.part (fun _ ↦ rfl) .closed (by decide) n

/-- An owner gives up what it has. -/
theorem giveUp (ht : Tidy calls v h) (n : Bytes) :
    Tidy calls (update v n .nothing) (h ++ (v n).incidents .released) :=
  ht.part (fun _ ↦ rfl) .released (by decide) n

/-- An owner without a descriptor takes one that it may take. -/
theorem take (ht : Tidy calls v h) (hn : ¬ (v n).isValid = true)
    (hd : Available v (calls ++ callsOf h) d) :
    Tidy calls (update v n ⟨d⟩) (h ++ (⟨d⟩ : Owned).incidents .adopted) := by
  have ha : Apart (update v n ⟨d⟩) :=
    ht.apart.update fun hvalid m _ hm ↦ (hd (Owned.isValid_iff.1 hvalid)).2 ⟨m, hm⟩
  have hothers : ∀ d', 0 ≤ d' → d' ≠ d → (Taken (update v n ⟨d⟩) d' ↔ Taken v d') :=
    fun d' hd' hne ↦ taken_update_iff (fun hx ↦ hne (Owned.eq_mk_iff.1 hx).symm)
      (ne_mk_of_not_isValid hd' hn)
  unfold Owned.incidents
  split
  · next hvalid =>
    obtain ⟨hopen, hfree⟩ := hd (Owned.isValid_iff.1 hvalid)
    refine ht.concat ha (fun c hheld hc ↦ ?_) hothers
    obtain rfl := Tenure.eq_loose (hc.1 hopen) fun he ↦ hfree (hheld.1 he)
    exact ⟨.held, .adopted d, iff_of_true rfl ⟨n, Function.update_self ..⟩⟩
  · next hvalid =>
    rw [List.append_nil]
    refine ht.congr ha fun d' hd' ↦ hothers d' hd' ?_
    rintro rfl
    exact hvalid (Owned.isValid_iff.2 hd')

/-- An owner without a descriptor takes over what another one has. -/
theorem pass (ht : Tidy calls v h) (hmn : m ≠ n) (hn : ¬ (v n).isValid = true) :
    Tidy calls (update (update v m .nothing) n (v m)) h := by
  refine ht.congr ?_ fun d hd ↦ ?_
  · refine (ht.apart.update fun hvalid ↦ absurd hvalid nothing_not_isValid).update ?_
    intro hvalid l hl hlm
    by_cases hlm' : l = m
    · subst hlm'
      rw [Function.update_self] at hlm
      exact nothing_not_isValid (hlm ▸ hvalid)
    · rw [Function.update_of_ne hlm'] at hlm
      exact hlm' (ht.apart m l hvalid hlm.symm).symm
  · by_cases hm : v m = ⟨d⟩
    · exact iff_of_true ⟨n, by rw [Function.update_self, hm]⟩ ⟨m, hm⟩
    · have hnothing : Owned.nothing ≠ ⟨d⟩ := ne_mk_of_not_isValid hd nothing_not_isValid
      rw [taken_update_iff hm, taken_update_iff hnothing hm]
      rw [Function.update_of_ne hmn.symm]
      exact ne_mk_of_not_isValid hd hn

end Tidy

/-! ### Operations -/

namespace Op

/-- Who owns what after an operation. -/
def owns (v : Bytes → Owned) : Op → Bytes → Owned
  | adopt n d | reset n d => update v n ⟨d⟩
  | move m n | assign m n => update (update v m .nothing) n (v m)
  | release n | drop n => update v n .nothing

/-- What an operation does to descriptors. -/
def incidents (v : Bytes → Owned) : Op → List Incident
  | adopt n d | reset n d => (v n).incidents .closed ++ (⟨d⟩ : Owned).incidents .adopted
  | move m n | assign m n => if m = n then [] else (v n).incidents .closed
  | release n => (v n).incidents .released
  | drop n => (v n).incidents .closed

/-- What is adopted is open and not owned. -/
def Allowed (v : Bytes → Owned) (calls : List FileCall) : Op → Prop
  | adopt _ d | reset _ d => Available v calls d
  | move .. | assign .. | release _ | drop _ => True

end Op

section Operations

variable {K : Type} [Kernel K] {calls : List FileCall} {v : Bytes → Owned} {h : List Incident}

/-- An owner that lets go of its descriptor may then take another one. -/
theorem Tidy.reset (ht : Tidy calls v h) (n : Bytes) {d : Descriptor}
    (hd : Available v (calls ++ callsOf h) d) :
    Tidy calls (update v n ⟨d⟩)
      (h ++ ((v n).incidents .closed ++ (⟨d⟩ : Owned).incidents .adopted)) := by
  have hfree : Available (update v n .nothing)
      (calls ++ callsOf (h ++ (v n).incidents .closed)) d := by
    intro h0
    obtain ⟨hopen, hfree⟩ := hd h0
    have hn : v n ≠ ⟨d⟩ := fun hn ↦ hfree ⟨n, hn⟩
    have hnothing := ne_mk_of_not_isValid h0 nothing_not_isValid
    refine ⟨?_, fun ht ↦ hfree ((taken_update_iff hnothing hn).1 ht)⟩
    -- The number that is closed is another one.
    have hne : (v n).number ≠ d := fun he ↦ hn (Owned.eq_mk_iff.2 he)
    unfold Owned.incidents
    split <;> simp [Incident.calls, FileCall.leaves, ← List.append_assoc, hopen, hne]
  have ht' := (ht.letGo n).take
    (by rw [Function.update_self]; exact nothing_not_isValid) hfree
  rwa [Function.update_idem, List.append_assoc] at ht'

/-- An owner that lets go of its descriptor may then take over what another one has. -/
theorem Tidy.assign (ht : Tidy calls v h) (m n : Bytes) :
    Tidy calls (update (update v m .nothing) n (v m))
      (h ++ if m = n then [] else (v n).incidents .closed) := by
  split
  · next hmn =>
    subst hmn
    rwa [Function.update_idem, Function.update_eq_self, List.append_nil]
  · next hmn =>
    have ht' := (ht.letGo n).pass hmn
      (by rw [Function.update_self]; exact nothing_not_isValid)
    rwa [Function.update_of_ne hmn, Function.update_comm (Ne.symm hmn),
      Function.update_idem] at ht'

/-- **What an operation preserves.** -/
theorem Tidy.op (ht : Tidy calls v h) {p : Op} (hp : p.Allowed v (calls ++ callsOf h)) :
    Tidy calls (p.owns v) (h ++ p.incidents v) := by
  cases p with
  | adopt n d => exact ht.reset n hp
  | move m n => exact ht.assign m n
  | assign m n => exact ht.assign m n
  | release n => exact ht.giveUp n
  | reset n d => exact ht.reset n hp
  | drop n => exact ht.letGo n

theorem owned_insert (t : Holders) (n : Bytes) (x : Owned) :
    owned (t.insert n x) = update (owned t) n x := by
  funext m
  simp only [owned, Table.getD, Table.get?_insert, Function.update_apply, eq_comm]
  split <;> rfl

theorem owned_erase (t : Holders) (n : Bytes) :
    owned (t.erase n) = update (owned t) n .nothing := by
  funext m
  simp only [owned, Table.getD, Table.get?_erase, Function.update_apply, eq_comm]
  split <;> rfl

/-- Letting go of what is owned closes it, whether or not closing fails. -/
theorem record_release (a : Account K) (s : System K) (o : Owner) (x : Owned) :
    a.record (s.release o x).kernel = a.record s.kernel ++ callsOf (x.incidents .closed) := by
  have hclose := a.close s.kernel x.number
  unfold System.release Owned.incidents System.call
  split
  · rcases hk : Kernel.close s.kernel x.number with ⟨e | u, k⟩ <;>
      simpa [hk, Incident.calls, System.note] using hclose
  · simp

/-- Owners own what the operation says. -/
theorem owned_run (o : Owner) (t : Holders) (s : System K) (p : Op) :
    owned (p.run o t s).1 = p.owns (owned t) := by
  cases p with
  | adopt n d => exact owned_insert t n ⟨d⟩
  | move m n => simp only [Op.run, replace, owned_insert, Op.owns]
  | assign m n =>
    simp only [Op.run, Op.owns]
    split
    · next hmn =>
      subst hmn
      rw [Function.update_idem, Function.update_eq_self]
    · simp only [replace, owned_insert]
  | release n => exact owned_insert t n .nothing
  | reset n d => exact owned_insert t n ⟨d⟩
  | drop n => exact owned_erase t n

/-- The kernel is called as the operation says. -/
theorem record_run (a : Account K) (o : Owner) (t : Holders) (s : System K) (p : Op) :
    a.record (p.run o t s).2.kernel =
      a.record s.kernel ++ callsOf (p.incidents (owned t)) := by
  have hadopted (d : Descriptor) : callsOf ((⟨d⟩ : Owned).incidents .adopted) = [] := by
    unfold Owned.incidents
    split <;> rfl
  have hreplace (t : Holders) (n : Bytes) (x : Owned) :
      a.record (replace o t s n x).2.kernel =
        a.record s.kernel ++ callsOf ((owned t n).incidents .closed) :=
    record_release a s o (owned t n)
  cases p with
  | adopt n d => simp [Op.run, Op.incidents, hreplace, hadopted]
  | move m n =>
    by_cases hmn : m = n
    · simp [Op.run, Op.incidents, hreplace, owned_insert, hmn]
    · simp [Op.run, Op.incidents, hreplace, owned_insert, hmn, Ne.symm hmn]
  | assign m n =>
    by_cases hmn : m = n
    · simp [Op.run, Op.incidents, hmn]
    · simp [Op.run, Op.incidents, hreplace, owned_insert, hmn, Ne.symm hmn]
  | release n =>
    simp only [Op.run, Op.incidents, Owned.incidents]
    split <;> simp [Incident.calls]
  | reset n d => simp [Op.run, Op.incidents, hreplace, hadopted]
  | drop n => exact record_release a s o (owned t n)

end Operations

/-! ### Runs -/

/-- Owners by name, with the system that they are in. -/
structure Estate (K : Type) where
  /-- The owners. -/
  holders : Holders
  /-- The system. -/
  system : System K

namespace Estate

variable {K : Type}

/-- What a name owns. -/
def owns (x : Estate K) : Bytes → Owned := owned x.holders

/-- Nobody owns anything. -/
def Vacant (x : Estate K) : Prop := ∀ n, ¬ (x.owns n).isValid = true

variable [Kernel K]

/-- After an operation of owners of files. -/
def after (x : Estate K) (p : Op) : Estate K where
  holders := (p.run .file x.holders x.system).1
  system := (p.run .file x.holders x.system).2

/-- What has been opened and closed. -/
def calls (x : Estate K) (a : Account K) : List FileCall := a.record x.system.kernel

/-- **A step**, with what it does to descriptors. -/
inductive Step (a : Account K) (x : Estate K) : List Incident → Estate K → Prop
  /-- An operation of the owners. -/
  | op (p : Op) (hp : p.Allowed x.owns (x.calls a)) : Step a x (p.incidents x.owns) (x.after p)
  /-- Nothing is opened or closed. -/
  | calm {s : System K} (hs : a.record s.kernel = x.calls a) : Step a x [] ⟨x.holders, s⟩
  /-- Somebody opens a descriptor. -/
  | opened {s : System K} {d : Descriptor} (hd : 0 ≤ d)
      (hshut : FileCall.isOpen d (x.calls a) = false)
      (hs : a.record s.kernel = x.calls a ++ [.opens d]) :
      Step a x [.opened d] ⟨x.holders, s⟩
  /-- Somebody closes a descriptor that nobody owns. -/
  | lost {s : System K} {d : Descriptor} (hopen : FileCall.isOpen d (x.calls a) = true)
      (hfree : ¬ Taken x.owns d) (hs : a.record s.kernel = x.calls a ++ [.closes d]) :
      Step a x [.lost d] ⟨x.holders, s⟩

/-- **A run**: any number of steps, with what they do to descriptors. -/
inductive Run (a : Account K) (x : Estate K) : List Incident → Estate K → Prop
  | refl : Run a x [] x
  | snoc {y z : Estate K} {h i : List Incident} (hr : Run a x h y) (hs : Step a y i z) :
      Run a x (h ++ i) z

variable {a : Account K} {x y z : Estate K} {h i : List Incident}

theorem Step.run (hs : Step a x h y) : Run a x h y := .snoc .refl hs

theorem Run.trans (hr : Run a x h y) (hr' : Run a y i z) : Run a x (h ++ i) z := by
  induction hr' with
  | refl => rwa [List.append_nil]
  | snoc _ hs ih =>
    rw [← List.append_assoc]
    exact ih.snoc hs

/-- The account tells what has happened. -/
theorem Step.calls_eq (hs : Step a x h y) : y.calls a = x.calls a ++ callsOf h := by
  cases hs with
  | op p hp => exact record_run a .file x.holders x.system p
  | calm hs => exact hs.trans (List.append_nil _).symm
  | opened hd hshut hs => exact hs
  | lost hopen hfree hs => exact hs

/-- **What a step preserves.** -/
theorem Step.tidy {calls : List FileCall} {h₀ : List Incident} (hs : Step a x h y)
    (hcalls : x.calls a = calls ++ callsOf h₀) (ht : Tidy calls x.owns h₀) :
    Tidy calls y.owns (h₀ ++ h) := by
  cases hs with
  | op p hp =>
    have howns : (x.after p).owns = p.owns x.owns := owned_run .file x.holders x.system p
    rw [howns]
    exact ht.op (hcalls ▸ hp)
  | calm hs => rwa [List.append_nil]
  | @opened s d hd hshut hs =>
    refine ht.concat ht.apart (fun c hheld hc ↦ ?_) fun _ _ _ ↦ .rfl
    rw [← hcalls] at hc
    obtain rfl : c = .shut := by
      by_contra hne
      exact Bool.false_ne_true (hshut.symm.trans (hc.2 hne))
    have hfree : ¬ Taken x.owns d := fun htaken ↦ nomatch hheld.2 htaken
    exact ⟨.loose, .opened d, iff_of_false (by decide) hfree⟩
  | @lost s d hopen hfree hs =>
    refine ht.concat ht.apart (fun c hheld hc ↦ ?_) fun _ _ _ ↦ .rfl
    rw [← hcalls] at hc
    obtain rfl := Tenure.eq_loose (hc.1 hopen) fun he ↦ hfree (hheld.1 he)
    exact ⟨.shut, .lost d, iff_of_false (by decide) hfree⟩

/-- **What a run preserves**, from when nobody owned anything. -/
theorem Run.tidy (hr : Run a x h y) (hv : x.Vacant) :
    y.calls a = x.calls a ++ callsOf h ∧ Tidy (x.calls a) y.owns h := by
  induction hr with
  | refl => exact ⟨(List.append_nil _).symm, .nil hv⟩
  | snoc _ hs ih =>
    obtain ⟨hcalls, ht⟩ := ih
    refine ⟨?_, hs.tidy hcalls ht⟩
    rw [hs.calls_eq, hcalls, callsOf_append, List.append_assoc]

/-- **Descriptors are closed exactly once**: owners are apart and own what is open, an owner closes
only what is open and not again until it has been opened again, and what has been adopted is closed
or given up by its owner, if it is not owned still. -/
structure Orderly (a : Account K) (x : Estate K) (h : List Incident) (y : Estate K) : Prop where
  /-- The account tells what has happened. -/
  recorded : y.calls a = x.calls a ++ callsOf h
  /-- No two owners own the same descriptor. -/
  apart : ∀ m n, m ≠ n → (y.owns m).isValid = true → y.owns m ≠ y.owns n
  /-- What is owned is open: it has not been closed. -/
  alive : ∀ n, (y.owns n).isValid = true → FileCall.isOpen (y.owns n).number (y.calls a) = true
  /-- What an owner closes is open. -/
  hits : ∀ p q d, 0 ≤ d → h = p ++ .closed d :: q →
    FileCall.isOpen d (x.calls a ++ callsOf p) = true
  /-- What an owner has closed is not closed again until it has been opened again. -/
  once : ∀ p q r d, 0 ≤ d → h = p ++ .closed d :: (q ++ .closed d :: r) → .opened d ∈ q
  /-- What has been adopted is owned still, or the next thing that has happened to it is that its
  owner closed it or gave it up. -/
  ended : ∀ p q d, 0 ≤ d → h = p ++ .adopted d :: q →
    (Taken y.owns d ∧ ∀ i ∈ q, i.number ≠ d) ∨
      ∃ q₁ q₂, (q = q₁ ++ .closed d :: q₂ ∨ q = q₁ ++ .released d :: q₂) ∧
        ∀ i ∈ q₁, i.number ≠ d
  /-- Where nobody owns a descriptor any more, each adoption has met its end. -/
  accounted : ∀ d, 0 ≤ d → ¬ Taken y.owns d →
    h.count (.adopted d) = h.count (.closed d) + h.count (.released d)

theorem Run.orderly (hr : Run a x h y) (hv : x.Vacant) : Orderly a x h y := by
  obtain ⟨hcalls, ht⟩ := hr.tidy hv
  refine ⟨hcalls, fun m n hmn hm he ↦ hmn (ht.apart m n hm he), ?_, ?_, ?_, ?_, ?_⟩
  · intro n hn
    obtain ⟨c, hc, hheld⟩ := ht.course _ (Owned.isValid_iff.1 hn)
    rw [hcalls, Tidy.isOpen_iff hc, hheld.2 ⟨n, rfl⟩]
    decide
  · rintro p q d hd rfl
    obtain ⟨c, hc, -⟩ := ht.course d hd
    obtain ⟨c₁, hp, hq⟩ := hc.split
    obtain ⟨rfl, -⟩ := hq.closing
    exact (Tidy.isOpen_iff hp).2 (by decide)
  · rintro p q r d hd rfl
    obtain ⟨c, hc, -⟩ := ht.course d hd
    obtain ⟨c₁, -, hq⟩ := hc.split
    obtain ⟨c₂, hq, hr⟩ := hq.closing.2.split
    exact hq.opened_mem rfl (by rw [hr.closing.1]; decide)
  · rintro p q d hd rfl
    obtain ⟨c, hc, hheld⟩ := ht.course d hd
    obtain ⟨c₁, -, hq⟩ := hc.split
    exact (hq.adopting.ended rfl).imp_left fun hend ↦ ⟨hheld.1 hend.1, hend.2⟩
  · intro d hd hfree
    obtain ⟨c, hc, hheld⟩ := ht.course d hd
    have hcount := hc.count_eq
    rw [if_neg Tenure.unowned_ne_held, if_neg (fun he ↦ hfree (hheld.1 he))] at hcount
    omega

/-- What can come about from when nobody owned anything. -/
def Arisen (x : Estate K) (a : Account K) : Prop := ∃ x₀ h, Vacant x₀ ∧ Run a x₀ h x

theorem Arisen.run (hx : x.Arisen a) (hr : Run a x h y) : y.Arisen a := by
  obtain ⟨x₀, h₀, hv, hr₀⟩ := hx
  exact ⟨x₀, _, hv, hr₀.trans hr⟩

theorem Arisen.alive (hx : x.Arisen a) {d : Descriptor} (hd : 0 ≤ d) (ht : Taken x.owns d) :
    FileCall.isOpen d (x.calls a) = true := by
  obtain ⟨x₀, h, hv, hr⟩ := hx
  obtain ⟨n, hn⟩ := ht
  have halive := (hr.orderly hv).alive n
  rw [hn] at halive
  exact halive (Owned.isValid_iff.2 hd)

end Estate

end Holder

end TaskRuntime
