import Mathlib.Data.Set.Image
import TaskRuntime.Future

/-!
# Programs that match

Two programs match if nobody who answers their requests can tell which of the two is running: they
make the same requests in the same order, however these are answered, and their ends are related as
given. When and how often they look at the world and change it is their own affair.

## Worlds

The two programs need not run in the same world. While a request is answered the world may change,
and all that is then known of the two worlds is what those who change them keep. `Act.Matches` has
the relations that they keep as a parameter. That the worlds are equal is always kept; that they
look equal to the rest of the program is kept by those who cannot tell them apart either.

## Programs with something beside them

`Act.beside` runs a program in a world that has a second part, which the program neither sees nor
changes. It is where proofs write down what has been called (`Act.noting`).
-/

namespace TaskRuntime

variable {W B V R R' S S' L : Type}

/-- **Two programs match**: from the two worlds they make the same requests and end as given by `Q`,
if those who answer the requests keep the relations in `Ω`. -/
inductive Act.Matches (Ω : Set (W → W → Prop)) (Q : W → R → W → R' → Prop) :
    W → Act W B V R → W → Act W B V R' → Prop
  /-- Both have ended. -/
  | done {w r w' r'} (hr : Q w r w' r') : Matches Ω Q w (.done r) w' (.done r')
  /-- The first one looks at the world. -/
  | lookLeft {w k w' p'} (h : Matches Ω Q w (k w) w' p') : Matches Ω Q w (.look k) w' p'
  /-- The second one looks at the world. -/
  | lookRight {w p w' k'} (h : Matches Ω Q w p w' (k' w')) : Matches Ω Q w p w' (.look k')
  /-- The first one replaces its world. -/
  | putLeft {w u k w' p'} (h : Matches Ω Q u k w' p') : Matches Ω Q w (.put u k) w' p'
  /-- The second one replaces its world. -/
  | putRight {w p w' u' k'} (h : Matches Ω Q w p u' k') : Matches Ω Q w p w' (.put u' k')
  /-- Both wake through the same waker. -/
  | wake {ρ w k w' k'} (x : Waker) (hρ : ρ ∈ Ω) (hw : ρ w w')
      (h : ∀ u u', ρ u u' → Matches Ω Q u k u' k') : Matches Ω Q w (.wake x k) w' (.wake x k')
  /-- Both notify the thread. -/
  | unpark {ρ w k w' k'} (hρ : ρ ∈ Ω) (hw : ρ w w')
      (h : ∀ u u', ρ u u' → Matches Ω Q u k u' k') : Matches Ω Q w (.unpark k) w' (.unpark k')
  /-- Both let the thread sleep. -/
  | parkFor {ρ w k w' k'} (hρ : ρ ∈ Ω) (hw : ρ w w')
      (h : ∀ b u u', ρ u u' → Matches Ω Q u (k b) u' (k' b)) :
      Matches Ω Q w (.parkFor k) w' (.parkFor k')
  /-- Both spawn the same task. -/
  | spawn {ρ w k w' k'} (b : B) (hρ : ρ ∈ Ω) (hw : ρ w w')
      (h : ∀ r u u', ρ u u' → Matches Ω Q u (k r) u' (k' r)) :
      Matches Ω Q w (.spawn b k) w' (.spawn b k')
  /-- Both run the same task to completion. -/
  | blockOn {ρ w k w' k'} (b : B) (hρ : ρ ∈ Ω) (hw : ρ w w')
      (h : ∀ r u u', ρ u u' → Matches Ω Q u (k r) u' (k' r)) :
      Matches Ω Q w (.blockOn b k) w' (.blockOn b k')
  /-- Both ask the executor about itself. -/
  | figures {ρ w k w' k'} (hρ : ρ ∈ Ω) (hw : ρ w w')
      (h : ∀ x u u', ρ u u' → Matches Ω Q u (k x) u' (k' x)) :
      Matches Ω Q w (.figures k) w' (.figures k')

namespace Act

variable {Ω : Set (W → W → Prop)} {Q Q₁ : W → R → W → R' → Prop} {Q' : W → S → W → S' → Prop}
  {w w' : W} {p : Act W B V R} {p' : Act W B V R'}

namespace Matches

/-! ### Sequencing -/

/-- Programs that match may go on to programs that match. -/
theorem bind {f : R → Act W B V S} {f' : R' → Act W B V S'} (h : p.Matches Ω Q w w' p')
    (hf : ∀ u r u' r', Q u r u' r' → (f r).Matches Ω Q' u u' (f' r')) :
    (p.bind f).Matches Ω Q' w w' (p'.bind f') := by
  induction h with
  | done hr => exact hf _ _ _ _ hr
  | lookLeft _ ih => exact .lookLeft ih
  | lookRight _ ih => exact .lookRight ih
  | putLeft _ ih => exact .putLeft ih
  | putRight _ ih => exact .putRight ih
  | wake x hρ hw _ ih => exact .wake x hρ hw ih
  | unpark hρ hw _ ih => exact .unpark hρ hw ih
  | parkFor hρ hw _ ih => exact .parkFor hρ hw ih
  | spawn b hρ hw _ ih => exact .spawn b hρ hw ih
  | blockOn b hρ hw _ ih => exact .blockOn b hρ hw ih
  | figures hρ hw _ ih => exact .figures hρ hw ih

/-- **The same program first**: in the same world it makes the same requests, and ends with the same
answer in the same world. -/
theorem same (hΩ : Eq ∈ Ω) (p : Act W B V R) {f : R → Act W B V S} {f' : R → Act W B V S'}
    (hf : ∀ u r, (f r).Matches Ω Q' u u (f' r)) :
    (p.bind f).Matches Ω Q' w w (p.bind f') := by
  induction p generalizing w with
  | done r => exact hf w r
  | look k ih => exact .lookLeft (.lookRight (ih w))
  | put u k ih => exact .putLeft (.putRight ih)
  | wake x k ih => exact .wake x hΩ rfl fun u u' hu ↦ hu ▸ ih
  | unpark k ih => exact .unpark hΩ rfl fun u u' hu ↦ hu ▸ ih
  | parkFor k ih => exact .parkFor hΩ rfl fun b u u' hu ↦ hu ▸ ih b
  | spawn b k ih => exact .spawn b hΩ rfl fun r u u' hu ↦ hu ▸ ih r
  | blockOn b k ih => exact .blockOn b hΩ rfl fun r u u' hu ↦ hu ▸ ih r
  | figures k ih => exact .figures hΩ rfl fun x u u' hu ↦ hu ▸ ih x

end Matches

/-! ### Something beside the world -/

/-- Runs a program in a world with a second part, which it leaves alone. -/
def beside : Act W B V R → Act (W × L) B V R
  | .done r => .done r
  | .look k => .look fun w ↦ (k w.1).beside
  | .put w k => .look fun u ↦ .put (w, u.2) k.beside
  | .wake x k => .wake x k.beside
  | .unpark k => .unpark k.beside
  | .parkFor k => .parkFor fun b ↦ (k b).beside
  | .spawn b k => .spawn b fun r ↦ (k r).beside
  | .blockOn b k => .blockOn b fun r ↦ (k r).beside
  | .figures k => .figures fun x ↦ (k x).beside

/-- Writes something into the list beside the world. -/
def note (x : L) : Act (W × List L) B V Unit := change fun w ↦ (w.1, w.2 ++ [x])

/-- Writes something into the list beside the world, and runs a program. -/
def noting (x : L) (p : Act W B V R) : Act (W × List L) B V R := (note x).bind fun () ↦ p.beside

/-- Two worlds that are related, with the same beside them. -/
def Beside (ρ : W → W → Prop) (w w' : W × L) : Prop := ρ w.1 w'.1 ∧ w.2 = w'.2

/-- Programs match with the same beside them if they do without it. -/
theorem Matches.beside (l : L) (h : p.Matches Ω Q w w' p') :
    p.beside.Matches (Beside '' Ω) (fun u r u' r' ↦ Q u.1 r u'.1 r' ∧ u.2 = u'.2) (w, l) (w', l)
      p'.beside := by
  induction h generalizing l with
  | done hr => exact .done ⟨hr, rfl⟩
  | lookLeft _ ih => exact .lookLeft (ih l)
  | lookRight _ ih => exact .lookRight (ih l)
  | putLeft _ ih => exact .lookLeft (.putLeft (ih l))
  | putRight _ ih => exact .lookRight (.putRight (ih l))
  | wake x hρ hw _ ih =>
    refine .wake x (Set.mem_image_of_mem _ hρ) ⟨hw, rfl⟩ ?_
    rintro ⟨u, m⟩ ⟨u', _⟩ ⟨hu, rfl⟩
    exact ih u u' hu m
  | unpark hρ hw _ ih =>
    refine .unpark (Set.mem_image_of_mem _ hρ) ⟨hw, rfl⟩ ?_
    rintro ⟨u, m⟩ ⟨u', _⟩ ⟨hu, rfl⟩
    exact ih u u' hu m
  | parkFor hρ hw _ ih =>
    refine .parkFor (Set.mem_image_of_mem _ hρ) ⟨hw, rfl⟩ fun b ↦ ?_
    rintro ⟨u, m⟩ ⟨u', _⟩ ⟨hu, rfl⟩
    exact ih b u u' hu m
  | spawn b hρ hw _ ih =>
    refine .spawn b (Set.mem_image_of_mem _ hρ) ⟨hw, rfl⟩ fun r ↦ ?_
    rintro ⟨u, m⟩ ⟨u', _⟩ ⟨hu, rfl⟩
    exact ih r u u' hu m
  | blockOn b hρ hw _ ih =>
    refine .blockOn b (Set.mem_image_of_mem _ hρ) ⟨hw, rfl⟩ fun r ↦ ?_
    rintro ⟨u, m⟩ ⟨u', _⟩ ⟨hu, rfl⟩
    exact ih r u u' hu m
  | figures hρ hw _ ih =>
    refine .figures (Set.mem_image_of_mem _ hρ) ⟨hw, rfl⟩ fun x ↦ ?_
    rintro ⟨u, m⟩ ⟨u', _⟩ ⟨hu, rfl⟩
    exact ih x u u' hu m

/-- A program that matches itself with something else beside it. -/
theorem matches_beside_self (p : Act W B V R) (l m : L) :
    p.beside.Matches {fun u u' ↦ u.1 = u'.1} (fun u r u' r' ↦ r = r' ∧ u.1 = u'.1) (w, l) (w, m)
      p.beside := by
  induction p generalizing w l m with
  | done r => exact .done ⟨rfl, rfl⟩
  | look k ih => exact .lookLeft (.lookRight (ih w l m))
  | put u k ih => exact .lookLeft (.putLeft (.lookRight (.putRight (ih l m))))
  | wake x k ih =>
    refine .wake x rfl rfl ?_
    rintro ⟨u, l⟩ ⟨_, m⟩ ⟨⟩
    exact ih l m
  | unpark k ih =>
    refine .unpark rfl rfl ?_
    rintro ⟨u, l⟩ ⟨_, m⟩ ⟨⟩
    exact ih l m
  | parkFor k ih =>
    refine .parkFor rfl rfl fun b ↦ ?_
    rintro ⟨u, l⟩ ⟨_, m⟩ ⟨⟩
    exact ih b l m
  | spawn b k ih =>
    refine .spawn b rfl rfl fun r ↦ ?_
    rintro ⟨u, l⟩ ⟨_, m⟩ ⟨⟩
    exact ih r l m
  | blockOn b k ih =>
    refine .blockOn b rfl rfl fun r ↦ ?_
    rintro ⟨u, l⟩ ⟨_, m⟩ ⟨⟩
    exact ih r l m
  | figures k ih =>
    refine .figures rfl rfl fun x ↦ ?_
    rintro ⟨u, l⟩ ⟨_, m⟩ ⟨⟩
    exact ih x l m

/-- One program after the other, with something beside them. -/
theorem beside_bind (p : Act W B V R) (f : R → Act W B V S) :
    ((p.bind f).beside : Act (W × L) B V S) = p.beside.bind fun r ↦ (f r).beside := by
  induction p with
  | done r => rfl
  | look k ih => exact congrArg look (funext fun w ↦ ih w.1)
  | put u k ih => exact congrArg look (funext fun w ↦ congrArg (put _) ih)
  | wake x k ih => exact congrArg (wake x) ih
  | unpark k ih => exact congrArg unpark ih
  | parkFor k ih => exact congrArg parkFor (funext ih)
  | spawn b k ih => exact congrArg (spawn b) (funext ih)
  | blockOn b k ih => exact congrArg (blockOn b) (funext ih)
  | figures k ih => exact congrArg figures (funext ih)

/-! ### What ends up beside the world -/

/-- Whatever its requests are answered, and whatever world it finds when it looks, a program ends as
given by `Q`, which may speak of what is beside the world. -/
def Yields (Q : L → R → Prop) : Act (W × L) B V R → L → Prop
  | .done r, l => Q l r
  | .look k, l => ∀ w, (k (w, l)).Yields Q l
  | .put u k, _ => k.Yields Q u.2
  | .wake _ k, l => k.Yields Q l
  | .unpark k, l => k.Yields Q l
  | .parkFor k, l => ∀ b, (k b).Yields Q l
  | .spawn _ k, l => ∀ r, (k r).Yields Q l
  | .blockOn _ k, l => ∀ r, (k r).Yields Q l
  | .figures k, l => ∀ x, (k x).Yields Q l

theorem Yields.bind {Q : L → R → Prop} {Q' : L → S → Prop} {p : Act (W × L) B V R}
    {f : R → Act (W × L) B V S} {l : L} (hp : p.Yields Q l)
    (hf : ∀ m r, Q m r → (f r).Yields Q' m) : (p.bind f).Yields Q' l := by
  induction p generalizing l with
  | done r => exact hf l r hp
  | look k ih => exact fun w ↦ ih (w, l) (hp w)
  | put u k ih => exact ih hp
  | wake x k ih => exact ih hp
  | unpark k ih => exact ih hp
  | parkFor k ih => exact fun b ↦ ih b (hp b)
  | spawn b k ih => exact fun r ↦ ih r (hp r)
  | blockOn b k ih => exact fun r ↦ ih r (hp r)
  | figures k ih => exact fun x ↦ ih x (hp x)

theorem Yields.mono {Q Q' : L → R → Prop} {p : Act (W × L) B V R} {l : L} (hp : p.Yields Q l)
    (h : ∀ m r, Q m r → Q' m r) : p.Yields Q' l := by
  simpa only [bind_done] using hp.bind (f := .done) h

/-- A program leaves what is beside its world alone. -/
theorem yields_beside {Q : L → R → Prop} {l : L} (p : Act W B V R) (h : ∀ r, Q l r) :
    (p.beside : Act (W × L) B V R).Yields Q l := by
  induction p with
  | done r => exact h r
  | look k ih => exact fun w ↦ ih w
  | put u k ih => exact fun _ ↦ ih
  | wake x k ih => exact ih
  | unpark k ih => exact ih
  | parkFor k ih => exact ih
  | spawn b k ih => exact ih
  | blockOn b k ih => exact ih
  | figures k ih => exact ih

end Act

/-- A future whose polls are written down beside the world. -/
def Future.noted (f : Future W B V S R) (entry : Waker → L) : Future (W × List L) B V S R where
  poll s x := Act.noting (entry x) (f.poll s x)
  drop s w := (f.drop s w.1, w.2)

end TaskRuntime
