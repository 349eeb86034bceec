import TaskRuntime.Proofs.Obligations
import TaskRuntime.Proofs.Stopping
import TaskRuntime.Proofs.Tokens

/-!
# Everyone has a token of his own

Any number of threads get tokens from one reactor, for themselves or for futures that they
construct, and go on to use them: they poll, move and destroy futures, and leave and drop wakers,
while the loop of the reactor turns. Each step of `Cloakroom.Step` is atomic and may be made by any
thread; the construction of a future is two of them, since the chunk size is found after the token
has been issued.

## Places

Whoever has got a token is listed in the order in which tokens have been issued, and his position
is his place. A step tells what its maker reports, together with his place. At any time, what has been
reported says which wakers are stored, and nobody has reported of a token that is not his own
(`Cloakroom.Sound`).

Holders at the first `Reactor.freshTokens` places have tokens that differ, so none of them ever
touches the waker of another one (`Cloakroom.Sound.stored_iff`). The holder after them has the token
of the notifier.

## What is left of a future that has been moved

It has the same token as the future. It counts neither as registered nor as unfinished, so it never
reaches the reactor again, and does not count as a holder.
-/

namespace TaskRuntime

variable {K : Type}

/-! ### Parts of constructing and destroying a future -/

namespace Environment

/-- Drops the waker of a token. -/
def forget (e : Environment K) (t : Token) : Environment K :=
  { e with reactor := { e.reactor with wakers := e.reactor.wakers.erase t } }

end Environment

namespace ReadToEnd

/-- The rest of the construction of a future whose token has been issued: its chunk size is
found. -/
def furnish (owned : Owned) (requested : Nat) (token : Token) (e : Environment K) :
    ReadToEnd × Environment K :=
  if 0 < requested then ({ owned, token, chunk := requested }, e)
  else
    let (configured, e) := e.setting Config.readBuffer
    ({ owned, token, chunk := Config.chunkSize 0 configured }, e)

theorem create_eq (owned : Owned) (requested : Nat) (e : Environment K) :
    create owned requested e = furnish owned requested e.issueToken.1 e.issueToken.2 := rfl

theorem token_furnish (owned : Owned) (requested : Nat) (t : Token) (e : Environment K) :
    (furnish owned requested t e).1.token = t := by
  unfold furnish
  split <;> rfl

theorem reactor_furnish (owned : Owned) (requested : Nat) (t : Token) (e : Environment K) :
    (furnish owned requested t e).2.reactor = e.reactor := by
  unfold furnish
  split <;> rfl

/-- A future that is destroyed drops its waker, if it owes it. -/
def surrender (f : ReadToEnd) (e : Environment K) : Environment K :=
  if f.registered then e.forget f.token else e

/-- What a future that is destroyed tells. -/
def parting (f : ReadToEnd) : List Report := if f.registered then [.forgotten f.token] else []

/-- The rest of the destruction of a future concerns the system only. -/
theorem drop_eq_surrender [Kernel K] (f : ReadToEnd) (e : Environment K) :
    f.drop e = { f.surrender e with toSystem := (f.drop e).toSystem } := by
  unfold drop surrender
  split
  · rw [Environment.deregister, Reactor.deregister]
    dsimp only
    rcases Poller.deregister e.toSystem e.reactor.poller f.owned.number with ⟨x | u, s⟩ <;> rfl
  · rfl

end ReadToEnd

/-! ### Holders -/

/-- Who has got a token. -/
inductive Holder (K : Type)
  /-- Somebody who has got it for himself. -/
  | caller (t : Token)
  /-- A future under construction, and how it will be opened. -/
  | arriving (t : Token) (owned : Owned) (requested : Nat) (opening : ReadToEnd.Opening K)
  /-- A future, how it is opened, and the poll in progress, if there is one. -/
  | future (f : ReadToEnd) (opening : ReadToEnd.Opening K)
      (poll : Option (Waker × ReadToEnd.Moment))
  /-- A future that has been destroyed. -/
  | departed (t : Token)

/-- The token that a holder has got. -/
def Holder.token : Holder K → Token
  | caller t => t
  | arriving t _ _ _ => t
  | future f _ _ => f.token
  | departed t => t

/-- **A reactor, the holders of its tokens**, and what is left of futures that have been moved. -/
structure Cloakroom (K : Type) where
  /-- The reactor, and what its loop works on. -/
  scope : Reactor.Scope K
  /-- The holders, in the order in which they have got their tokens. -/
  holders : List (Holder K) := []
  /-- What is left of futures that have been moved. -/
  husks : List ReadToEnd := []

namespace Cloakroom

/-- System, configuration and reactor. -/
def environment (x : Cloakroom K) : Environment K := x.scope.environment

/-- The reactor. -/
def reactor (x : Cloakroom K) : Reactor := x.environment.reactor

/-- The tokens that have been issued, in order. -/
def issued (x : Cloakroom K) : List Token := x.holders.map Holder.token

/-- The environment has changed. -/
def withEnvironment (x : Cloakroom K) (e : Environment K) : Cloakroom K :=
  { x with scope := { x.scope with environment := e } }

/-- A token is issued to a new holder. -/
def issue (x : Cloakroom K) (a : Token → Holder K) : Cloakroom K :=
  { x.withEnvironment x.environment.issueToken.2 with
    holders := x.holders ++ [a x.environment.issueToken.1] }

/-- What becomes of the holder at a place. -/
def put (x : Cloakroom K) (i : Nat) (a : Holder K) : Cloakroom K :=
  { x with holders := x.holders.set i a }

/-- A future is constructed in one go. -/
def construct (x : Cloakroom K) (owned : Owned) (requested : Nat)
    (opening : ReadToEnd.Opening K) : Cloakroom K :=
  { x.withEnvironment (ReadToEnd.create owned requested x.environment).2 with
    holders := x.holders ++
      [.future (ReadToEnd.create owned requested x.environment).1 opening none] }

/-- The future at a place is being polled, and this is how far the poll is. -/
def polling (x : Cloakroom K) (i : Nat) (opening : ReadToEnd.Opening K) (w : Waker)
    (q : ReadToEnd.Reading × Environment K) : Cloakroom K :=
  (x.withEnvironment q.2).put i (.future q.1.future opening (some (w, q.1.moment)))

/-- The future at a place has been moved. -/
def move (x : Cloakroom K) (i : Nat) (f : ReadToEnd) (opening : ReadToEnd.Opening K) :
    Cloakroom K :=
  { x.put i (.future f.move.1 opening none) with husks := f.move.2 :: x.husks }

section

variable {x x' x₀ : Cloakroom K} {i j : Nat} {a b : Holder K} {t : Token}

theorem length_issued (x : Cloakroom K) : x.issued.length = x.holders.length := List.length_map _

theorem issued_issue (x : Cloakroom K) {a : Token → Holder K} (ha : ∀ t, (a t).token = t) :
    (x.issue a).issued = x.issued ++ [x.reactor.nextToken] := by
  rw [issued, issue, List.map_append, List.map_singleton, ha]
  rfl

/-- A holder keeps his token, whatever becomes of him. -/
theorem issued_put (hi : x.holders[i]? = some a) (hb : b.token = a.token) :
    (x.put i b).issued = x.issued := by
  obtain ⟨hlt, rfl⟩ := List.getElem?_eq_some_iff.1 hi
  have hset : x.holders.set i x.holders[i] = x.holders := List.set_getElem_self hlt
  rw [issued, put, List.map_set, hb, ← List.map_set, hset, issued]

/-- The newest holder is at the last place. -/
theorem put_issue (x : Cloakroom K) (a : Token → Holder K) (e : Environment K) (b : Holder K) :
    ((x.issue a).withEnvironment e).put x.holders.length b =
      { x.withEnvironment e with holders := x.holders ++ [b] } := by
  have hset : (x.holders ++ [a x.environment.issueToken.1]).set x.holders.length b =
      x.holders ++ [b] := by simp
  exact congrArg (Cloakroom.mk _ · _) hset

theorem polling_polling (x : Cloakroom K) (i : Nat) (opening : ReadToEnd.Opening K) (w : Waker)
    (q q' : ReadToEnd.Reading × Environment K) :
    (x.polling i opening w q).polling i opening w q' = x.polling i opening w q' :=
  congrArg (Cloakroom.mk _ · _) (List.set_set _)

theorem put_polling (x : Cloakroom K) (i : Nat) (opening : ReadToEnd.Opening K) (w : Waker)
    (q : ReadToEnd.Reading × Environment K) (a : Holder K) :
    (x.polling i opening w q).put i a = (x.withEnvironment q.2).put i a :=
  congrArg (Cloakroom.mk _ · _) (List.set_set _)

theorem getElem?_issued (hi : x.holders[i]? = some a) : x.issued[i]? = some a.token := by
  rw [issued, List.getElem?_map, hi]
  rfl

end

/-! ### Steps -/

variable [Kernel K]

/-- **One atomic step** of some thread, and what its maker reports from his place. -/
inductive Step (x : Cloakroom K) : List (Nat × Report) → Cloakroom K → Prop
  /-- Somebody gets a token for himself. -/
  | drawn : Step x [] (x.issue .caller)
  /-- The construction of a future begins: it gets its token. -/
  | arrived (owned : Owned) (requested : Nat) (opening : ReadToEnd.Opening K) :
      Step x [] (x.issue (.arriving · owned requested opening))
  /-- The construction of a future ends. -/
  | furnished {i t owned requested opening}
      (hi : x.holders[i]? = some (.arriving t owned requested opening)) :
      Step x [] ((x.withEnvironment (ReadToEnd.furnish owned requested t x.environment).2).put i
        (.future (ReadToEnd.furnish owned requested t x.environment).1 opening none))
  /-- A poll of a future begins. -/
  | began {i f opening} (w : Waker) (hi : x.holders[i]? = some (.future f opening none)) :
      Step x [] (x.put i (.future f opening (some (w, f.begin.moment))))
  /-- The poll makes a step. -/
  | ticked {i f opening w m} (hi : x.holders[i]? = some (.future f opening (some (w, m)))) :
      Step x ((ReadToEnd.Reading.tells w ⟨f, m⟩ x.environment).map (i, ·))
        (x.polling i opening w (ReadToEnd.Reading.tick opening w ⟨f, m⟩ x.environment))
  /-- The poll ends. -/
  | ended {i f opening w r}
      (hi : x.holders[i]? = some (.future f opening (some (w, .complete r)))) :
      Step x [] (x.put i (.future f opening none))
  /-- A future is moved. -/
  | moved {i f opening} (hi : x.holders[i]? = some (.future f opening none)) :
      Step x [] (x.move i f opening)
  /-- A future is destroyed: it drops its waker, if it owes it. What comes then are system
  calls. -/
  | dropped {i f opening} (hi : x.holders[i]? = some (.future f opening none)) :
      Step x (f.parting.map (i, ·))
        ((x.withEnvironment (f.surrender x.environment)).put i (.departed f.token))
  /-- Somebody who has got a token for himself leaves a waker under it. -/
  | left {i t} (w : Waker) (hi : x.holders[i]? = some (.caller t)) :
      Step x ((Report.verdict (.left t w) (x.environment.setWaker t w).1).map (i, ·))
        (x.withEnvironment (x.environment.setWaker t w).2)
  /-- Somebody who has got a token for himself drops its waker. -/
  | forgot {i t} (hi : x.holders[i]? = some (.caller t)) :
      Step x [(i, .forgotten t)] (x.withEnvironment (x.environment.forget t))
  /-- What is left of a future that has been moved is polled. -/
  | polledHusk {f} (opening : ReadToEnd.Opening K) (w : Waker) (hf : f ∈ x.husks) :
      Step x [] (x.withEnvironment (f.poll opening w x.environment).2.2)
  /-- What is left of a future that has been moved is moved. -/
  | movedHusk {f} (hf : f ∈ x.husks) : Step x [] { x with husks := f.move.2 :: x.husks }
  /-- What is left of a future that has been moved is destroyed. -/
  | droppedHusk {f before after} (hf : x.husks = before ++ f :: after) :
      Step x [] { x.withEnvironment (f.drop x.environment) with husks := before ++ after }
  /-- The loop of the reactor makes a step. -/
  | looped : Step x [] { x with scope := x.scope.tick }
  /-- A call that starts or stops the reactor makes a step. -/
  | ordered {o o' : Reactor.Order} {ms w r s}
      (ho : o.tick x.reactor x.environment.toSystem = (o', ms, w, r, s)) :
      Step x [] { x with scope :=
        { environment := { x.environment with toSystem := s, reactor := r }
          signals := x.scope.signals
          watch := w.getD x.scope.watch } }
  /-- Others make system calls, log, configure, wake and park. -/
  | others (s : System K) (c : Config) (signals : Signals) :
      Step x [] { x with scope :=
        { environment := { x.environment with toSystem := s, config := c }
          signals
          watch := x.scope.watch } }

/-- **Any number of steps**, with what has been reported. -/
inductive Run (x₀ : Cloakroom K) : List (Nat × Report) → Cloakroom K → Prop
  /-- No step. -/
  | refl : Run x₀ [] x₀
  /-- One more step. -/
  | step {h x n x'} (hr : Run x₀ h x) (hs : Step x n x') : Run x₀ (h ++ n) x'

/-- **A reactor that has just been created**, whose tokens nobody has got. -/
structure Opened (x : Cloakroom K) : Prop where
  /-- The reactor has just been created. -/
  created : ∃ (requested : Nat) (s s' : System K), Reactor.create requested s = (.ok x.reactor, s')
  /-- Nobody has got a token. -/
  holders : x.holders = []
  /-- Nothing is left of futures. -/
  husks : x.husks = []

/-! ### What a step does -/

/-- What is left of futures that have been moved is just that. -/
def Husked (x : Cloakroom K) : Prop := ∀ f ∈ x.husks, ∃ g : ReadToEnd, f = g.move.2

/-- **What a step does**: it issues one token at most, changes what is stored as it reports, and
reports of no other token than that of its maker. -/
structure Does (x : Cloakroom K) (n : List (Nat × Report)) (x' : Cloakroom K) : Prop where
  /-- It issues the next token, or none. -/
  issued : x'.issued = x.issued ∧ x'.reactor.nextToken = x.reactor.nextToken ∨
    x'.issued = x.issued ++ [x.reactor.nextToken] ∧
      x'.reactor.nextToken = x.reactor.nextToken + 1
  /-- It changes what is stored as it reports. -/
  wakers : x'.reactor.wakers = (n.map Prod.snd).foldl Report.write x.reactor.wakers
  /-- Its maker reports from his place. -/
  placed : ∀ k ∈ n, k.1 < x.issued.length
  /-- He reports of his own token. -/
  own : ∀ k ∈ n, ∀ t, k.2.Touches t → x.issued[k.1]? = some t
  /-- What is left of futures stays what it is. -/
  husked : x'.Husked

section

variable {x x' x₀ : Cloakroom K} {n h : List (Nat × Report)} {i j : Nat} {a b : Holder K}
  {t : Token} {w : Waker} {ks : List Report}

omit [Kernel K] in
/-- A step that issues no token and reports from one place. -/
theorem Does.of_put (hi : x.holders[i]? = some a) (hx : x.Husked)
    (hissued : x'.issued = x.issued) (hhusks : x'.husks = x.husks)
    (hr : x'.reactor = { x.reactor with wakers := ks.foldl Report.write x.reactor.wakers })
    (hown : ∀ k ∈ ks, ∀ t, k.Touches t → a.token = t) : x.Does (ks.map (i, ·)) x' where
  issued := .inl ⟨hissued, (congrArg Reactor.nextToken hr).trans rfl⟩
  wakers := by
    rw [hr, List.map_map]
    exact congrArg (List.foldl _ _) (List.map_id ks).symm
  placed k hk := by
    obtain ⟨k, -, rfl⟩ := List.mem_map.1 hk
    rw [length_issued]
    exact (List.getElem?_eq_some_iff.1 hi).1
  own k hk u hu := by
    obtain ⟨k, hmem, rfl⟩ := List.mem_map.1 hk
    exact hown k hmem u hu ▸ getElem?_issued hi
  husked := by rwa [Husked, hhusks]

omit [Kernel K] in
/-- A step that issues no token and reports nothing. -/
theorem Does.quiet (hissued : x'.issued = x.issued)
    (hnext : x'.reactor.nextToken = x.reactor.nextToken)
    (hwakers : x'.reactor.wakers = x.reactor.wakers) (hx : x'.Husked) : x.Does [] x' where
  issued := .inl ⟨hissued, hnext⟩
  wakers := hwakers
  placed := nofun
  own := nofun
  husked := hx

omit [Kernel K] in
/-- A step that issues a token. -/
theorem Does.issue {a : Token → Holder K} (ha : ∀ t, (a t).token = t) (hx : x.Husked) :
    x.Does [] (x.issue a) where
  issued := .inr ⟨issued_issue x ha, rfl⟩
  wakers := rfl
  placed := nofun
  own := nofun
  husked := hx

/-- **Every step** does no more than that. -/
theorem Step.does (hs : Step x n x') (hx : x.Husked) : x.Does n x' := by
  cases hs with
  | drawn => exact .issue (fun _ ↦ rfl) hx
  | arrived owned requested opening => exact .issue (fun _ ↦ rfl) hx
  | @furnished i t owned requested opening hi =>
    have hr := ReadToEnd.reactor_furnish owned requested t x.environment
    refine .quiet (issued_put hi ?_) ?_ ?_ hx
    · exact ReadToEnd.token_furnish _ _ _ _
    · exact congrArg Reactor.nextToken hr
    · exact congrArg Reactor.wakers hr
  | began w hi => exact .quiet (issued_put hi rfl) rfl rfl hx
  | ticked hi =>
    refine .of_put hi hx (issued_put hi ?_) rfl ReadToEnd.Reading.reactor_tick fun k hk t ht ↦ ?_
    · exact ReadToEnd.Reading.token_tick _ _
    · exact ReadToEnd.Reading.eq_of_touches_tells hk ht
  | ended hi => exact .quiet (issued_put hi rfl) rfl rfl hx
  | @moved i f opening hi =>
    refine .quiet (issued_put hi rfl) rfl rfl fun g hg ↦ ?_
    rcases List.mem_cons.1 hg with rfl | hg
    · exact ⟨f, rfl⟩
    · exact hx g hg
  | @dropped i f opening hi =>
    refine .of_put hi hx (issued_put hi rfl) rfl ?_ fun k hk t ht ↦ ?_
    · show (f.surrender x.environment).reactor = _
      rw [ReadToEnd.surrender, ReadToEnd.parting]
      split <;> rfl
    · rw [ReadToEnd.parting] at hk
      split at hk
      · obtain rfl := List.mem_singleton.1 hk
        exact ht
      · cases hk
  | left w hi =>
    exact .of_put hi hx rfl rfl (x.environment.reactor_setWaker _ w) fun k hk t ht ↦
      Report.touches_of_verdict hk ht
  | @forgot i t hi =>
    show x.Does (List.map (i, ·) [.forgotten t]) _
    refine .of_put hi hx rfl rfl rfl fun k hk t ht ↦ ?_
    obtain rfl := List.mem_singleton.1 hk
    exact ht
  | @polledHusk f opening w hf =>
    -- The poll is refused before it reaches the reactor.
    obtain ⟨g, rfl⟩ := hx f hf
    exact .quiet rfl rfl rfl hx
  | @movedHusk f hf =>
    refine .quiet rfl rfl rfl fun g hg ↦ ?_
    rcases List.mem_cons.1 hg with rfl | hg
    · exact ⟨f, rfl⟩
    · exact hx g hg
  | @droppedHusk f before after hf =>
    -- It owes no waker, and owns nothing that would be closed.
    obtain ⟨g, rfl⟩ := hx f (by rw [hf]; exact List.mem_append_right _ List.mem_cons_self)
    refine .quiet rfl rfl rfl fun f hf' ↦ hx f ?_
    rw [hf]
    rcases List.mem_append.1 hf' with h | h
    · exact List.mem_append_left _ h
    · exact List.mem_append_right _ (List.mem_cons_of_mem _ h)
  | looped =>
    obtain ⟨running, failure, buffer, hr⟩ := x.scope.exists_reactor_tick
    refine .quiet rfl ?_ ?_ hx
    · exact (congrArg Reactor.nextToken hr).trans rfl
    · exact (congrArg Reactor.wakers hr).trans rfl
  | ordered ho =>
    obtain ⟨started, running, buffer, hr⟩ := Reactor.Order.exists_of_tick ho
    refine .quiet rfl ?_ ?_ hx
    · exact (congrArg Reactor.nextToken hr).trans rfl
    · exact (congrArg Reactor.wakers hr).trans rfl
  | others s c signals => exact .quiet rfl rfl rfl hx

/-! ### What is always true -/

/-- **What is always true**: tokens have been issued in order, what is stored has been reported, and
nobody has reported of a token that is not his own. -/
structure Sound (h : List (Nat × Report)) (x : Cloakroom K) : Prop where
  /-- Tokens have been issued in order. -/
  numbered : x.issued = Reactor.firstTokens x.issued.length
  /-- The next one comes after them. -/
  next : x.reactor.nextToken = Reactor.tokenAfter x.issued.length
  /-- What is stored has been reported. -/
  wakers : x.reactor.wakers = Report.written (h.map Prod.snd)
  /-- Everyone has reported from his place. -/
  placed : ∀ k ∈ h, k.1 < x.issued.length
  /-- Everyone has reported of his own token. -/
  own : ∀ k ∈ h, ∀ t, k.2.Touches t → x.issued[k.1]? = some t
  /-- What is left of futures that have been moved is just that. -/
  husked : x.Husked

omit [Kernel K] in
/-- **Every step keeps what is always true.** -/
theorem Does.sound (hd : x.Does n x') (hx : Sound h x) : Sound (h ++ n) x' := by
  have hwakers : x'.reactor.wakers = Report.written ((h ++ n).map Prod.snd) := by
    rw [hd.wakers, hx.wakers, List.map_append, Report.written, Report.written, List.foldl_append]
  have hplaced (k : Nat × Report) (hk : k ∈ h ++ n) : k.1 < x.issued.length :=
    (List.mem_append.1 hk).elim (hx.placed k) (hd.placed k)
  have hown (k : Nat × Report) (hk : k ∈ h ++ n) (t : Token) (ht : k.2.Touches t) :
      x.issued[k.1]? = some t :=
    (List.mem_append.1 hk).elim (hx.own k · t ht) (hd.own k · t ht)
  rcases hd.issued with ⟨hissued, hnext⟩ | ⟨hissued, hnext⟩
  · refine ⟨?_, ?_, hwakers, ?_, ?_, hd.husked⟩
    · rw [hissued]
      exact hx.numbered
    · rw [hissued, hnext]
      exact hx.next
    · rwa [hissued]
    · rwa [hissued]
  · -- What has been issued before is still there.
    have hlen : x'.issued.length = x.issued.length + 1 := by
      rw [hissued, List.length_append, List.length_singleton]
    refine ⟨?_, ?_, hwakers, fun k hk ↦ ?_, fun k hk t ht ↦ ?_, hd.husked⟩
    · rw [hlen, Reactor.firstTokens_succ, ← hx.numbered, ← hx.next, hissued]
    · rw [hlen, Reactor.tokenAfter_succ, ← hx.next, hnext]
    · rw [hlen]
      exact Nat.lt_succ_of_lt (hplaced k hk)
    · rw [hissued, List.getElem?_append_left (hplaced k hk)]
      exact hown k hk t ht

/-- In the beginning no token has been issued. -/
theorem Opened.sound (h₀ : x.Opened) : Sound [] x := by
  obtain ⟨requested, s, s', hcreate⟩ := h₀.created
  obtain ⟨poller, notifier, hr⟩ := Reactor.exists_of_create hcreate
  have hissued : x.issued = [] := by rw [issued, h₀.holders, List.map_nil]
  refine ⟨?_, ?_, ?_, nofun, nofun, fun f hf ↦ ?_⟩
  · rw [hissued]
    rfl
  · rw [hr, hissued]
    rfl
  · rw [hr]
    rfl
  · rw [h₀.husks] at hf
    cases hf

theorem Run.sound (hr : Run x₀ h x) (h₀ : x₀.Opened) : Sound h x := by
  induction hr with
  | refl => exact h₀.sound
  | step _ hs ih => exact (hs.does ih.husked).sound ih

theorem Run.trans (hr : Run x₀ h x) (hn : Run x n x') : Run x₀ (h ++ n) x' := by
  induction hn with
  | refl => rwa [List.append_nil]
  | step _ hs ih => exact List.append_assoc .. ▸ ih.step hs

/-! ### Places below the limit -/

omit [Kernel K] in
theorem Sound.eq_tokenAfter (hx : Sound h x) (ht : x.issued[i]? = some t) :
    Reactor.tokenAfter i = t := by
  rw [hx.numbered] at ht
  exact (Reactor.getElem?_firstTokens.1 ht).2

omit [Kernel K] in
/-- At the first places, a token tells the place of its holder. -/
theorem Sound.place_eq (hx : Sound h x) (hi : i < Reactor.freshTokens)
    (hj : j < Reactor.freshTokens) (hti : x.issued[i]? = some t) (htj : x.issued[j]? = some t) :
    i = j :=
  Reactor.tokenAfter_inj hi hj ((hx.eq_tokenAfter hti).trans (hx.eq_tokenAfter htj).symm)

omit [Kernel K] in
/-- **What is stored under a token** has been left from the place of its holder, and has not been
replaced or dropped from there since. -/
theorem Sound.stored_iff (hx : Sound h x) (hh : ∀ k ∈ h, k.1 < Reactor.freshTokens)
    (hi : i < Reactor.freshTokens) (ht : x.issued[i]? = some t) (w : Waker) :
    x.reactor.wakers.get? t = some w ↔
      Since (· = (i, .left t w)) (fun k ↦ k.1 = i ∧ k.2.Touches t) h := by
  -- Whoever has reported of the token is at the place of its holder.
  have hplace (k : Nat × Report) (hk : k ∈ h) (hkt : k.2.Touches t) : k.1 = i :=
    hx.place_eq (hh k hk) hi (hx.own k hk t hkt) ht
  rw [hx.wakers, Report.get?_written_eq_some_iff, since_map]
  refine since_congr (fun k hk ↦ ⟨fun hl ↦ ?_, fun hl ↦ ?_⟩) fun k hk ↦ ?_
  · have hki := hplace k hk (by rw [hl]; rfl)
    exact Prod.ext hki hl
  · show k.2 = _
    rw [hl]
  · exact ⟨fun hkt ↦ ⟨hplace k hk hkt, hkt⟩, And.right⟩

/-! ### Getting as far as the limit -/

/-- Any number of tokens can be issued. -/
theorem exists_issued (x : Cloakroom K) (n : Nat) :
    ∃ x', Run x [] x' ∧ x'.issued.length = x.issued.length + n := by
  induction n with
  | zero => exact ⟨x, .refl, rfl⟩
  | succ n ih =>
    obtain ⟨x', hr, hlen⟩ := ih
    refine ⟨_, hr.step .drawn, ?_⟩
    rw [issued_issue x' fun _ ↦ rfl, List.length_append, hlen]
    rfl

/-! ### Operations with nobody in between -/

/-- A future is constructed. -/
theorem Run.construct (hr : Run x₀ h x) (owned : Owned) (requested : Nat)
    (opening : ReadToEnd.Opening K) : Run x₀ h (x.construct owned requested opening) := by
  have hrun := (hr.step (.arrived owned requested opening)).step
    (.furnished (i := x.holders.length) List.getElem?_concat_length)
  rwa [List.append_nil, List.append_nil, put_issue] at hrun

/-- A poll goes on. -/
theorem Run.plays {opening : ReadToEnd.Opening K} {q q' : ReadToEnd.Reading × Environment K}
    (hr : Run x₀ h (x.polling i opening w q)) (hi : i < x.holders.length)
    (hp : ReadToEnd.Plays opening w q q') :
    ∃ n, Run x₀ (h ++ n) (x.polling i opening w q') := by
  obtain ⟨count, rfl⟩ := hp
  induction count generalizing h q with
  | zero => exact ⟨[], by rwa [List.append_nil]⟩
  | succ count ih =>
    -- A step of the poll is one of its maker, with nobody in between.
    have hnext := hr.step (.ticked (List.getElem?_set_self hi))
    rw [polling_polling] at hnext
    obtain ⟨n, hr'⟩ := ih hnext
    rw [List.append_assoc] at hr'
    exact ⟨_, hr'⟩

/-- A future is polled. -/
theorem Run.poll {f : ReadToEnd} {opening : ReadToEnd.Opening K} (hr : Run x₀ h x)
    (hi : x.holders[i]? = some (.future f opening none)) (w : Waker) :
    ∃ n, Run x₀ (h ++ n) ((x.withEnvironment (f.poll opening w x.environment).2.2).put i
      (.future (f.poll opening w x.environment).2.1 opening none)) := by
  have hlt := (List.getElem?_eq_some_iff.1 hi).1
  have hbegan : Run x₀ _ (x.polling i opening w (f.begin, x.environment)) := hr.step (.began w hi)
  obtain ⟨n, hended⟩ := hbegan.plays hlt (ReadToEnd.plays_poll f opening w x.environment)
  have hdone := hended.step (.ended (List.getElem?_set_self hlt))
  rw [put_polling, List.append_nil, List.append_nil] at hdone
  exact ⟨n, hdone⟩

/-- A future is destroyed. -/
theorem Run.drop {f : ReadToEnd} {opening : ReadToEnd.Opening K} (hr : Run x₀ h x)
    (hi : x.holders[i]? = some (.future f opening none)) :
    Run x₀ (h ++ f.parting.map (i, ·))
      ((x.withEnvironment (f.drop x.environment)).put i (.departed f.token)) := by
  have hrun := (hr.step (.dropped hi)).step
    (.others (f.drop x.environment).toSystem (f.surrender x.environment).config x.scope.signals)
  rw [List.append_nil] at hrun
  rw [f.drop_eq_surrender x.environment]
  exact hrun

/-! ### Tokens are fresh up to the limit -/

/-- **The first tokens are fresh**, the next one is that of the notifier, and the futures that have
got one of the first are apart from each other and from the notifier. -/
structure Apart (h : List (Nat × Report)) (x : Cloakroom K) : Prop where
  /-- The first tokens are pairwise distinct. -/
  distinct : (x.issued.take Reactor.freshTokens).Nodup
  /-- None of them is zero or that of the notifier. -/
  proper : ∀ t ∈ x.issued.take Reactor.freshTokens, t ≠ 0 ∧ t ≠ Reactor.notifyToken
  /-- The one after them is that of the notifier. -/
  reserved : ∀ t, x.issued[Reactor.freshTokens]? = some t → t = Reactor.notifyToken
  /-- So it is that which is issued next, to a caller or to a future, when they have been issued. -/
  next : x.issued.length = Reactor.freshTokens →
    x.environment.issueToken.1 = Reactor.notifyToken ∧
      ∀ owned requested,
        (ReadToEnd.create owned requested x.environment).1.token = Reactor.notifyToken
  /-- Two futures with one of the first tokens have different tokens. -/
  futures : ∀ {i j f g o o' p p'}, i < Reactor.freshTokens → j < Reactor.freshTokens → i ≠ j →
    x.holders[i]? = some (.future f o p) → x.holders[j]? = some (.future g o' p') →
      f.token ≠ g.token
  /-- As long as no more tokens have been issued, nobody else makes use of his. -/
  early : x.issued.length ≤ Reactor.freshTokens → ∀ k ∈ h, k.1 < Reactor.freshTokens
  /-- As long as nobody else makes use of his token, what is stored under the token of a future is
  what the future itself has left there, and has not replaced or dropped since. -/
  entries : (∀ k ∈ h, k.1 < Reactor.freshTokens) → ∀ {i f o p}, i < Reactor.freshTokens →
    x.holders[i]? = some (.future f o p) → ∀ w,
      x.reactor.wakers.get? f.token = some w ↔
        Since (· = (i, .left f.token w)) (fun k ↦ k.1 = i ∧ k.2.Touches f.token) h
  /-- An event under the token of such a future wakes whom the future has left there, and is not
  taken for one of the notifier, which it leaves alone. -/
  events : ∀ {i f o p}, i < Reactor.freshTokens → x.holders[i]? = some (.future f o p) →
    ∀ (conditions : Interests) (s : System K),
      (x.reactor.dispatch s ⟨conditions, f.token⟩).1 = x.reactor.wakers.get? f.token ∧
        (x.reactor.dispatch s ⟨conditions, f.token⟩).2.kernel = s.kernel
  /-- What is left of a future that has been moved refuses polls, and disappears without a
  trace. -/
  husks : ∀ f ∈ x.husks, ∀ (opening : ReadToEnd.Opening K) (w : Waker) (e : Environment K),
    (∃ err, f.poll opening w e = (.error err, f, e)) ∧ f.drop e = e

omit [Kernel K] in
/-- The token after the first ones is that of the notifier. -/
theorem Sound.eq_notifyToken (hx : Sound h x) (hlen : x.issued.length = Reactor.freshTokens) :
    x.environment.issueToken.1 = Reactor.notifyToken := by
  show x.reactor.nextToken = _
  rw [hx.next, hlen, Reactor.tokenAfter_freshTokens]

/-- **What is always true keeps futures apart.** -/
theorem Sound.apart (hx : Sound h x) : Apart h x where
  distinct := by
    have hsize := Reactor.freshTokens_add_two
    rw [hx.numbered, Reactor.take_firstTokens]
    exact Reactor.nodup_firstTokens (by omega)
  proper t ht := by
    rw [hx.numbered, Reactor.take_firstTokens, Reactor.firstTokens] at ht
    obtain ⟨i, hi, rfl⟩ := List.mem_map.1 ht
    have hlt : i < Reactor.freshTokens := by
      rw [List.mem_range] at hi
      omega
    exact ⟨Reactor.tokenAfter_ne_zero (Nat.le_of_lt hlt), Reactor.tokenAfter_ne_notifyToken hlt⟩
  reserved t ht := (hx.eq_tokenAfter ht).symm.trans Reactor.tokenAfter_freshTokens
  next hlen := by
    refine ⟨hx.eq_notifyToken hlen, fun owned requested ↦ ?_⟩
    rw [ReadToEnd.create_eq, ReadToEnd.token_furnish]
    exact hx.eq_notifyToken hlen
  futures {i j f g o o' p p'} hi hj hne hf hg heq := by
    have hti : x.issued[i]? = some f.token := getElem?_issued hf
    have htj : x.issued[j]? = some g.token := getElem?_issued hg
    exact hne (hx.place_eq hi hj hti (heq ▸ htj))
  early hlen k hk := Nat.lt_of_lt_of_le (hx.placed k hk) hlen
  entries hh {i f o p} hi hf w := hx.stored_iff hh hi (getElem?_issued hf) w
  events {i f o p} hi hf conditions s := by
    have ht : x.issued[i]? = some f.token := getElem?_issued hf
    have hne : f.token ≠ Reactor.notifyToken := by
      rw [← hx.eq_tokenAfter ht]
      exact Reactor.tokenAfter_ne_notifyToken hi
    rw [Reactor.dispatch_fst, Reactor.dispatch_kernel, if_neg hne, if_neg hne]
    exact ⟨rfl, rfl⟩
  husks f hf opening w e := by
    obtain ⟨g, rfl⟩ := hx.husked f hf
    exact g.left_move opening w e

/-- **Tokens are fresh up to the limit**, however issuing, constructing, polling, moving and
destroying are interleaved. The limit can be reached; a future that comes then has the token of the
notifier, and its events wake nobody. -/
theorem Run.fresh_up_to_limit (hr : Run x₀ h x) (h₀ : x₀.Opened) :
    Apart h x ∧
      (x.issued.length ≤ Reactor.freshTokens →
        ∃ x', Run x [] x' ∧ x'.issued.length = Reactor.freshTokens ∧
          ∃ y f o, Run x' [] y ∧ y.holders[Reactor.freshTokens]? = some (.future f o none) ∧
            f.token = Reactor.notifyToken ∧
              ∀ (conditions : Interests) (s : System K),
                (y.reactor.dispatch s ⟨conditions, f.token⟩).1 = none) := by
  refine ⟨(hr.sound h₀).apart, fun hle ↦ ?_⟩
  obtain ⟨x', hr', hlen⟩ := x.exists_issued (Reactor.freshTokens - x.issued.length)
  have hlimit : x'.issued.length = Reactor.freshTokens := by omega
  have htoken := ((hr.trans hr').sound h₀).apart.next hlimit
  refine ⟨x', hr', hlimit, x'.construct .nothing 0 .none,
    (ReadToEnd.create .nothing 0 x'.environment).1, .none, Run.refl.construct .nothing 0 .none,
    ?_, htoken.2 _ _, fun conditions s ↦ ?_⟩
  · rw [← hlimit, length_issued]
    exact List.getElem?_concat_length
  · rw [htoken.2, Reactor.dispatch_fst, if_pos rfl]

end

/-- A reactor that has just been created on a host with a pipe. -/
def hall : Cloakroom Host :=
  let (r, s) := Reactor.create 64 { kernel := (Host.openPipe default).2 }
  { scope := { environment := { toSystem := s, reactor := r.toOption.getD {} }, signals := {} } }

theorem opened_hall : hall.Opened where
  created := ⟨64, { kernel := (Host.openPipe default).2 }, _, rfl⟩
  holders := rfl
  husks := rfl

/-- Two futures are constructed at the same time, while somebody gets a token for himself. The first
one reads the pipe and leaves a waker; the holder of the second token leaves another one. -/
theorem fresh_up_to_limit_hall : ∃ (w : Waker) (h : List (Nat × Report)) (x : Cloakroom Host),
    Run hall h x ∧ hall.Opened ∧ x.issued = [1, 2, 3] ∧ ∃ f g o o',
      x.holders[0]? = some (.future f o none) ∧ x.holders[2]? = some (.future g o' none) ∧
        f.token ≠ g.token ∧ x.reactor.wakers.get? 1 = some w ∧
          Since (· = (0, .left f.token w)) (fun k ↦ k.1 = 0 ∧ k.2.Touches f.token) h ∧
            ¬ Since (· = (2, .left g.token w)) (fun k ↦ k.1 = 2 ∧ k.2.Touches g.token) h ∧
              ∃ x', Run x [] x' ∧ x'.issued.length = Reactor.freshTokens := by
  have hcome := (((.refl : Run hall [] hall).step (.arrived ⟨100⟩ 4 .none)).step .drawn).step
    (.arrived .nothing 4 .none)
  have hmade := (hcome.step (.furnished (i := 2) rfl)).step (.furnished (i := 0) rfl)
  have hbegan := hmade.step (.began (i := 0) ⟨some ⟨0⟩, 7, some ⟨0⟩⟩ rfl)
  have hadded := (((hbegan.step (.ticked (i := 0) rfl)).step (.ticked (i := 0) rfl)).step
    (.ticked (i := 0) rfl)).step (.ticked (i := 0) rfl)
  have hread := (hadded.step (.ticked (i := 0) rfl)).step (.ticked (i := 0) rfl)
  have hpending := (hread.step (.ticked (i := 0) rfl)).step (.ended (i := 0) rfl)
  have hleft := hpending.step (.left (i := 1) ⟨some ⟨0⟩, 8, some ⟨0⟩⟩ rfl)
  obtain ⟨hapart, hlimit⟩ := hleft.fresh_up_to_limit opened_hall
  obtain ⟨x', hr, hlen, -⟩ := hlimit (by decide)
  have hearly := hapart.early (by decide)
  refine ⟨⟨some ⟨0⟩, 7, some ⟨0⟩⟩, _, _, hleft, opened_hall, rfl, _, _, _, _, rfl, rfl, ?_, rfl, ?_,
    fun hs ↦ ?_, x', hr, hlen⟩
  · exact hapart.futures (i := 0) (j := 2) (by decide) (by decide) (by decide) rfl rfl
  · exact (hapart.entries hearly (i := 0) (by decide) rfl _).1 rfl
  · cases (hapart.entries hearly (i := 2) (by decide) rfl _).2 hs

end Cloakroom

end TaskRuntime
