import TaskRuntime.Net.Get
import TaskRuntime.Proofs.Ownership

/-!
# The socket of a request

The first poll of a request opens a socket for one address after another, and closes each that does
not connect. One that connects goes from hand to hand until the request owns it, unless the request
cannot be sent: then it is closed, too. All this is what three owners do by the operations of
`Holder.Op` (`Get.runTo_poll`): a candidate, the socket that has connected, and the future. So what
is proved about runs of owners holds of it.

From then on polls open and close nothing (`ReadToEnd.keeps_poll`), and the socket is closed with
the future (`Get.runTo_drop`).
-/

namespace TaskRuntime

open Function (update)

variable {K : Type} [Kernel K]

/-! ### Calls that open and close nothing -/

namespace Account

variable (a : Account K)

theorem record_connect (d : Descriptor) (address : Address) (k : K) :
    a.record (Get.connect d address k).2 = a.record k := by
  fun_induction Get.connect d address k with
  | case1 k k' h => simpa [h] using a.connect k d address
  | case2 k k' h ih => simpa [h, ih] using a.connect k d address
  | case3 k e k' h hne => simpa [h] using a.connect k d address

theorem record_sendAll (d : Descriptor) (text : Bytes) (k : K) :
    a.record (Kernel.sendAll d text k).2 = a.record k := by
  fun_induction Kernel.sendAll d text k with
  | case1 => rfl
  | case2 text k hne n k' h ih => simpa [h, ih] using a.send k d text
  | case3 text k hne k' h ih => simpa [h, ih] using a.send k d text
  | case4 text k hne e k' h he => simpa [h] using a.send k d text

theorem record_drain (d : Descriptor) (chunk : Nat) (pieces : List Bytes) (k : K) :
    a.record (ReadToEnd.drain d chunk pieces k).2.2 = a.record k := by
  fun_induction ReadToEnd.drain d chunk pieces k with
  | case1 pieces k k' h => simpa [h] using a.read k d chunk
  | case2 pieces k b bs k' h ih => simpa [h, ih] using a.read k d chunk
  | case3 pieces k k' h ih => simpa [h, ih] using a.read k d chunk
  | case4 pieces k e k' h hne hb => simpa [h] using a.read k d chunk
  | case5 pieces k e k' h hne hb => simpa [h] using a.read k d chunk

theorem record_setNonblocking (s : System K) (x : Owned) :
    a.record (s.setNonblocking x).2.kernel = a.record s.kernel := by
  have hget := a.isNonblocking s.kernel x.number
  unfold System.setNonblocking System.call
  rcases hk : Kernel.isNonblocking s.kernel x.number with ⟨e | _ | _, k⟩
  · simpa [hk] using hget
  · have hset := a.setNonblocking k x.number
    rcases hk' : Kernel.setNonblocking k x.number with ⟨e | u, k'⟩ <;>
      simp_all
  · simpa [hk] using hget

theorem record_register (e : Environment K) (source : Descriptor) (interests : Interests)
    (token : Token) :
    a.record (e.register source interests token).2.kernel = a.record e.kernel := by
  have hadd := a.add e.kernel e.reactor.poller source ⟨interests, token⟩
  unfold Environment.register Environment.onSystem Reactor.register
  rcases e.reactor.check with x | u
  · rfl
  · simp only [Poller.register, System.call, System.note]
    rcases hk : Kernel.add e.kernel e.reactor.poller source ⟨interests, token⟩ with ⟨x | u, k⟩ <;>
      simpa [hk] using hadd

theorem record_deregister (e : Environment K) (source : Descriptor) (token : Token) :
    a.record (e.deregister source token).2.kernel = a.record e.kernel := by
  have hremove := a.remove e.kernel e.reactor.poller source
  simp only [Environment.deregister, Reactor.deregister, Poller.deregister, System.call]
  rcases hk : Kernel.remove e.kernel e.reactor.poller source with ⟨x | u, k⟩ <;>
    simpa [hk, System.note] using hremove

end Account

/-! ### Runs to a system -/

namespace Holder.Estate

theorem update_nothing {v : Bytes → Owned} {n : Bytes} (hn : v n = .nothing) :
    update v n .nothing = v := by
  rw [← hn, Function.update_eq_self]

/-- A run that gets to a certain system, in which names own certain descriptors. -/
def RunTo (a : Account K) (x : Estate K) (h : List Incident) (s : System K)
    (v : Bytes → Owned) : Prop := ∃ y, Run a x h y ∧ y.system = s ∧ y.owns = v

namespace RunTo

variable {a : Account K} {x : Estate K} {h i : List Incident} {s t : System K}
  {v u : Bytes → Owned} {m n : Bytes} {d : Descriptor}

theorem bind (hr : RunTo a x h s v)
    (hk : ∀ y : Estate K, Run a x h y → y.system = s → y.owns = v → RunTo a y i t u) :
    RunTo a x (h ++ i) t u := by
  obtain ⟨y, hr, hs, hv⟩ := hr
  obtain ⟨z, hr', ht, hu⟩ := hk y hr hs hv
  exact ⟨z, hr.trans hr', ht, hu⟩

theorem refl (x : Estate K) : RunTo a x [] x.system x.owns := ⟨x, .refl, rfl, rfl⟩

/-- Nothing is opened or closed. -/
theorem calm (hs : a.record s.kernel = x.calls a) : RunTo a x [] s x.owns :=
  ⟨_, (Step.calm hs).run, rfl, rfl⟩

/-- After a run, nothing more is opened or closed. -/
theorem calm_after (hr : RunTo a x h s v) (hs : a.record t.kernel = a.record s.kernel) :
    RunTo a x h t v := by
  have hr' := hr.bind (i := []) (t := t) (u := v) fun y _ hy hv ↦ by
    subst hy hv
    exact calm hs
  rwa [List.append_nil] at hr'

/-- An operation of owners. -/
theorem op (p : Op) (hp : p.Allowed x.owns (x.calls a)) :
    RunTo a x (p.incidents x.owns) (x.after p).system (p.owns x.owns) :=
  ⟨_, (Step.op p hp).run, rfl, owned_run .file x.holders x.system p⟩

/-- An owner lets go of what it has, and is destroyed. -/
theorem discard (a : Account K) (x : Estate K) (n : Bytes) :
    RunTo a x ((x.owns n).incidents .closed) (x.system.release .file (x.owns n))
      (update x.owns n .nothing) :=
  op (.drop n) trivial

/-- An owner that a run has left with something is destroyed. -/
theorem discard_after {z : Owned} (hr : RunTo a x h s (update v n z)) (hn : v n = .nothing) :
    RunTo a x (h ++ z.incidents .closed) (s.release .file z) v := by
  refine hr.bind fun y _ hy hv ↦ ?_
  have hdrop := discard a y n
  rwa [hv, Function.update_self, Function.update_idem, update_nothing hn, hy] at hdrop

/-- A new owner takes over what a run has left another one with, which is then destroyed. -/
theorem handOver_after {z : Owned} (hr : RunTo a x h s (update v m z)) (hm : v m = .nothing)
    (hn : v n = .nothing) (hmn : m ≠ n) : RunTo a x h s (update v n z) := by
  have hassigned : RunTo a x (h ++ []) s (update v n z) := by
    refine hr.bind fun y _ hy hv ↦ ?_
    have hidle : owned (y.holders.insert m .nothing) n = .nothing := by
      have hyn : y.owns n = .nothing := by rw [hv, Function.update_of_ne hmn.symm, hn]
      rw [owned_insert, Function.update_of_ne hmn.symm]
      exact hyn
    have hassign := op (a := a) (x := y) (.assign m n) trivial
    have hincidents : Op.incidents y.owns (.assign m n) = [] := by
      simp [Op.incidents, hv, Function.update_of_ne hmn.symm, hn]
    have hsystem : (y.after (.assign m n)).system = s := by
      simp only [after, Op.run, if_neg hmn, replace, hidle]
      exact hy
    have howns : Op.owns y.owns (.assign m n) = update v n z := by
      rw [Op.owns, hv, Function.update_self, Function.update_idem, update_nothing hm]
    rwa [hincidents, hsystem, howns] at hassign
  -- The former owner has nothing left that would have to be closed.
  rw [List.append_nil, ← update_nothing (v := update v n z) (n := m)
    (by rw [Function.update_of_ne hmn, hm])] at hassigned
  have hdropped := hassigned.discard_after (by rw [Function.update_of_ne hmn, hm])
  rwa [Owned.incidents_nothing, List.append_nil] at hdropped

end RunTo

end Holder.Estate

/-! ### Connecting -/

/-- What an attempt to open something has got. -/
def Owned.won {E : Type} : Except E Owned → Owned
  | .ok x => x
  | .error _ => .nothing

namespace Get

open Holder Holder.Estate

/-- What attempts to connect do to descriptors: those that fail leave nothing behind, and what the
last one has connected is owned in the end. -/
def attempts (failed : List Descriptor) (x : Owned) : List Incident :=
  (failed.flatMap fun d ↦ [.opened d, .adopted d, .closed d]) ++
    (x.incidents .opened ++ x.incidents .adopted)

theorem attempts_cons (d : Descriptor) (failed : List Descriptor) (x : Owned) :
    attempts (d :: failed) x = [.opened d, .adopted d, .closed d] ++ attempts failed x := by
  simp [attempts]

/-- An attempt that has succeeded has failed after all, if what it has connected is closed. -/
theorem attempts_closed (failed : List Descriptor) (x : Owned) :
    ∃ failed', attempts failed x ++ x.incidents .closed = attempts failed' .nothing := by
  by_cases hx : x.isValid = true
  · exact ⟨failed ++ [x.number], by simp [attempts, Owned.incidents, hx, nothing_not_isValid]⟩
  · exact ⟨failed, by simp [attempts, Owned.incidents, hx, nothing_not_isValid]⟩

/-- Names of the owners that a request makes use of: none owns anything. -/
structure Spare (v : Bytes → Owned) where
  /-- The owner of a socket that is to be connected. -/
  candidate : Bytes
  /-- The owner of a socket that has been connected. -/
  socket : Bytes
  /-- The future. -/
  future : Bytes
  candidate_ne_socket : candidate ≠ socket
  socket_ne_future : socket ≠ future
  candidate_idle : v candidate = .nothing
  socket_idle : v socket = .nothing
  future_idle : v future = .nothing

/-- **An attempt is what owners do**: those that fail leave nothing behind, and what is got goes by
a name in the end. -/
def Tried {E : Type} (a : Account K) (x : Estate K) (v : Bytes → Owned) (n : Bytes)
    (r : Except E Owned × System K) : Prop :=
  ∃ failed, RunTo a x (attempts failed (Owned.won r.1)) r.2 (update v n (Owned.won r.1))

variable {a : Account K} {x : Estate K} {v : Bytes → Owned}

theorem Tried.of_calm {E : Type} {n : Bytes} {r : Except E Owned × System K} {s : System K}
    (hs : a.record s.kernel = x.calls a) (ht : Tried a ⟨x.holders, s⟩ v n r) : Tried a x v n r := by
  obtain ⟨failed, z, hr, hz⟩ := ht
  exact ⟨failed, z, (Step.calm hs).run.trans hr, hz⟩

/-- Where nothing is got, nothing need be done. -/
theorem Tried.of_idle {E : Type} {n : Bytes} {e : E} {s : System K} (hv : x.owns = v)
    (hn : v n = .nothing) (hs : a.record s.kernel = x.calls a) : Tried a x v n (.error e, s) := by
  refine ⟨[], ?_⟩
  have hr := RunTo.calm hs
  rwa [hv, ← update_nothing hn] at hr

/-- A socket that is opened has an owner at once, also while it is being connected. -/
theorem runTo_connect (hx : x.Arisen a) (hv : x.owns = v) (n : Spare v) {address : Address}
    {d : Descriptor} {k : K} (hk : Kernel.socket x.system.kernel address = (.ok d, k)) :
    RunTo a x [.opened d, .adopted d]
      { x.system with kernel := (connect d address k).2 } (update v n.candidate ⟨d⟩) := by
  obtain ⟨hd, hshut, hrecord⟩ := a.socket_ok hk
  have hopened : RunTo a x [.opened d] { x.system with kernel := k } v :=
    ⟨_, (Step.opened hd hshut hrecord).run, rfl, hv⟩
  refine (hopened.bind (i := [.adopted d]) (t := { x.system with kernel := k })
    (u := update v n.candidate ⟨d⟩) fun y _ hy hyv ↦ ?_).calm_after (a.record_connect d address k)
  have hcalls : y.calls a = x.calls a ++ [.opens d] := by
    rw [Estate.calls, hy]
    exact hrecord
  have havailable : Available y.owns (y.calls a) d := by
    intro _
    refine ⟨by simp [hcalls, FileCall.leaves], fun htaken ↦ ?_⟩
    -- Nobody can own what was shut before.
    rw [hyv, ← hv] at htaken
    exact Bool.false_ne_true (hshut.symm.trans (hx.alive hd htaken))
  have hadopt := RunTo.op (a := a) (x := y) (.adopt n.candidate d) havailable
  have hincidents : Op.incidents y.owns (.adopt n.candidate d) = [.adopted d] := by
    simp [Op.incidents, Owned.incidents, hyv, n.candidate_idle, nothing_not_isValid,
      Owned.isValid_iff.2 hd]
  have hsystem : (y.after (.adopt n.candidate d)).system = y.system := by
    have howns : owned y.holders n.candidate = .nothing := (congrFun hyv _).trans n.candidate_idle
    simp only [after, Op.run, replace, howns]
    rfl
  rwa [hincidents, hsystem, hy, hyv] at hadopt

/-- A socket that does not connect is closed. -/
theorem runTo_refused (hx : x.Arisen a) (hv : x.owns = v) (n : Spare v) {address : Address}
    {d : Descriptor} {k k' : K} {e : Errno}
    (hk : Kernel.socket x.system.kernel address = (.ok d, k))
    (hc : connect d address k = (.error e, k')) :
    RunTo a x [.opened d, .adopted d, .closed d]
      (({ x.system with kernel := k' } : System K).release .file ⟨d⟩) v := by
  obtain ⟨hd, -, -⟩ := a.socket_ok hk
  have hdropped := (runTo_connect hx hv n hk).discard_after n.candidate_idle
  rwa [hc, Owned.incidents_of_nonneg _ hd] at hdropped

/-- A socket that connects is handed over. -/
theorem runTo_connected (hx : x.Arisen a) (hv : x.owns = v) (n : Spare v) {address : Address}
    {d : Descriptor} {k k' : K} (hk : Kernel.socket x.system.kernel address = (.ok d, k))
    (hc : connect d address k = (.ok (), k')) :
    RunTo a x (attempts [] ⟨d⟩) { x.system with kernel := k' } (update v n.socket ⟨d⟩) := by
  obtain ⟨hd, -, -⟩ := a.socket_ok hk
  have hattempts : attempts [] ⟨d⟩ = [.opened d, .adopted d] := by
    simp [attempts, Owned.incidents_of_nonneg _ hd]
  have hover := (runTo_connect hx hv n hk).handOver_after n.candidate_idle n.socket_idle
    n.candidate_ne_socket
  rwa [hc, ← hattempts] at hover

/-- **Trying addresses**: in the end, the socket owns what has been connected. -/
theorem tried_connectAny (hx : x.Arisen a) (hv : x.owns = v) (n : Spare v) (last : Errno)
    (addresses : List Address) : Tried a x v n.socket (connectAny last addresses x.system) := by
  induction addresses generalizing x last with
  | nil => exact .of_idle hv n.socket_idle rfl
  | cons address rest ih =>
    rcases hk : Kernel.socket x.system.kernel address with ⟨e | d, k⟩
    · -- There is no socket for this address.
      have hany : connectAny last (address :: rest) x.system =
          connectAny e rest { x.system with kernel := k } := by
        simp only [connectAny, System.call, hk]
      have hcalm : a.record k = x.calls a := a.socket_error hk
      rw [hany]
      exact .of_calm hcalm (ih (x := ⟨x.holders, { x.system with kernel := k }⟩)
        (hx.run (Step.calm hcalm).run) hv e)
    rcases hc : connect d address k with ⟨e | u, k'⟩
    · -- The socket is closed before the next address is tried.
      have hany : connectAny last (address :: rest) x.system =
          connectAny e rest (({ x.system with kernel := k' } : System K).release .file ⟨d⟩) := by
        simp only [connectAny, System.call, hk, hc]
      obtain ⟨y, hr, hy, hyv⟩ := runTo_refused hx hv n hk hc
      obtain ⟨failed, z, hr', hz⟩ := ih (hx.run hr) hyv e
      rw [hany, ← hy]
      refine ⟨d :: failed, z, ?_, hz⟩
      rw [attempts_cons]
      exact hr.trans hr'
    · have hany : connectAny last (address :: rest) x.system =
          (.ok ⟨d⟩, { x.system with kernel := k' }) := by
        simp only [connectAny, System.call, hk, hc]
      rw [hany]
      exact ⟨[], runTo_connected hx hv n hk hc⟩

/-- **Opening a connection** to a host and a port. -/
theorem tried_openConnection (hx : x.Arisen a) (hv : x.owns = v) (n : Spare v) (host : Bytes)
    (port : Int) : Tried a x v n.socket (openConnection host port x.system) := by
  have hcalm := a.resolve x.system.kernel (Bytes.upToNul host) port
  unfold openConnection System.call
  dsimp only
  rcases hk : Kernel.resolve x.system.kernel (Bytes.upToNul host) port with
    ⟨reason | addresses, k⟩ <;> rw [hk] at hcalm
  · exact .of_idle hv n.socket_idle hcalm
  · have htried := tried_connectAny (x := ⟨x.holders, { x.system with kernel := k }⟩)
      (hx.run (Step.calm hcalm).run) hv n ⟨0⟩ addresses
    dsimp only at htried ⊢
    rcases hc : connectAny ⟨0⟩ addresses { x.system with kernel := k } with ⟨e | y, s⟩ <;>
      rw [hc] at htried <;> exact .of_calm hcalm htried

/-- **Opening a request**: in the end, the future owns the socket. -/
theorem tried_opening (hx : x.Arisen a) (hv : x.owns = v) (n : Spare v) (host : Bytes)
    (port : Int) (path : Bytes) :
    Tried a x v n.future (opening host port path .nothing x.system) := by
  unfold opening
  dsimp only
  generalize Bytes.utf8 "HTTP GET " ++ path ++ Bytes.utf8 " -> " ++ host ++ Bytes.utf8 ":" ++
    Numeral.ofInt port = message
  have hcalm : a.record (x.system.note .debug message).kernel = x.calls a := rfl
  have htried := tried_openConnection (x := ⟨x.holders, x.system.note .debug message⟩)
    (hx.run (Step.calm hcalm).run) hv n host port
  refine .of_calm hcalm ?_
  dsimp only at htried
  rcases hc : openConnection host port (x.system.note .debug message) with ⟨e | c, s⟩ <;>
    rw [hc] at htried <;> obtain ⟨failed, hopened⟩ := htried
  · refine ⟨failed, ?_⟩
    rwa [Owned.won, update_nothing n.socket_idle, ← update_nothing n.future_idle] at hopened
  dsimp only [Owned.won] at hopened
  have hsent := hopened.calm_after
    (t := { s with kernel := (Kernel.sendAll c.number (Http.getRequest path) s.kernel).2 })
    (a.record_sendAll c.number (Http.getRequest path) s.kernel)
  unfold System.call
  dsimp only
  rcases hk : Kernel.sendAll c.number (Http.getRequest path) s.kernel with ⟨e | u, k⟩ <;>
    rw [hk] at hsent
  · -- A connection whose request cannot be sent is closed.
    obtain ⟨failed', hfailed⟩ := attempts_closed failed c
    have hdropped := hsent.discard_after n.socket_idle
    rw [hfailed, ← update_nothing n.future_idle] at hdropped
    exact ⟨failed', hdropped⟩
  · exact ⟨failed, hsent.handOver_after n.socket_idle n.future_idle n.socket_ne_future⟩

end Get

/-! ### Polls and destruction -/

namespace ReadToEnd

variable {a : Account K} {f : ReadToEnd} {e : Environment K} {w : Waker} {o : Opening K}

/-- **A future keeps its descriptor**, and nothing is opened or closed. -/
structure Keeps (a : Account K) (f : ReadToEnd) (e : Environment K) (f' : ReadToEnd)
    (e' : Environment K) : Prop where
  owned : f'.owned = f.owned
  started : f'.started = f.started
  calm : a.record e'.kernel = a.record e.kernel

theorem keeps_conclude (a : Account K) (f : ReadToEnd) (w : Waker) (e : Environment K)
    (pause : Pause) : Keeps a f e (f.conclude w e pause).2.1 (f.conclude w e pause).2.2 := by
  cases pause with
  | endOfFile =>
    unfold conclude
    dsimp only
    generalize Bytes.utf8 "Completed read (token " ++ f.tokenText ++ Bytes.utf8 ", " ++
      Numeral.ofNat f.buffer.length ++ Bytes.utf8 " bytes)" = message
    have hcalm := a.record_deregister (e.note .debug message) f.owned.number f.token
    rcases hd : (e.note .debug message).deregister f.owned.number f.token with ⟨x | u, e'⟩ <;>
      rw [hd] at hcalm <;> exact ⟨rfl, rfl, hcalm⟩
  | wouldBlock =>
    unfold conclude
    dsimp only
    generalize Bytes.utf8 "WOULD BLOCK (token " ++ f.tokenText ++ Bytes.utf8 ")" = message
    have hcalm : a.record ((e.note .debug message).setWaker f.token w).2.kernel =
      a.record e.kernel := rfl
    rcases hs : (e.note .debug message).setWaker f.token w with ⟨x | u, e'⟩ <;>
      rw [hs] at hcalm <;> exact ⟨rfl, rfl, hcalm⟩
  | failed x => exact ⟨rfl, rfl, rfl⟩

theorem keeps_advance (a : Account K) (f : ReadToEnd) (w : Waker) (e : Environment K) :
    Keeps a f e (f.advance w e).2.1 (f.advance w e).2.2 := by
  have hcalm := a.record_drain f.owned.number f.chunk [] e.kernel
  unfold advance
  rcases hd : drain f.owned.number f.chunk [] e.kernel with ⟨pause, pieces, k⟩
  rw [hd] at hcalm
  have hkeeps := keeps_conclude a { f with buffer := f.buffer ++ pieces.reverse.flatten } w
    { e with kernel := k } pause
  exact ⟨hkeeps.owned, hkeeps.started, hkeeps.calm.trans hcalm⟩

/-- There has been a first poll, or there will never be one that prepares anything. -/
def Attempted (f : ReadToEnd) : Prop := f.started = true ∨ f.finished = true

/-- After the first poll, polls open and close nothing. -/
theorem keeps_poll (a : Account K) (hf : f.Attempted) :
    Keeps a f e (f.poll o w e).2.1 (f.poll o w e).2.2 ∧ (f.poll o w e).2.1.Attempted := by
  unfold poll
  split
  · exact ⟨⟨rfl, rfl, rfl⟩, hf⟩
  · next hfinished =>
    have hs : f.started = true := hf.resolve_right hfinished
    rw [prepare, if_pos hs]
    have hkeeps := keeps_advance a f w e
    exact ⟨hkeeps, .inl (hkeeps.started.trans hs)⟩

/-- The system after a first poll has been announced. -/
def announced (f : ReadToEnd) (e : Environment K) : System K :=
  e.toSystem.note .debug
    (Bytes.utf8 "FIRST POLL - STARTING OPERATION (token " ++ f.tokenText ++ Bytes.utf8 ")")

/-- What is prepared owns what its opening has got, and nothing else is opened or closed. -/
theorem prepare_first (a : Account K) (hs : f.started = false) (hidle : f.owned = .nothing) :
    (f.prepare o w e).2.1.started = true ∧
      (f.prepare o w e).2.1.owned = Owned.won (o .nothing (f.announced e)).1 ∧
      a.record (f.prepare o w e).2.2.kernel =
        a.record (o .nothing (f.announced e)).2.kernel := by
  have hnotStarted : ¬ f.started = true := by simp [hs]
  simp only [prepare, if_neg hnotStarted, Environment.onSystem, Environment.note, announced, hidle]
  generalize e.toSystem.note .debug _ = s
  rcases o .nothing s with ⟨x | owned, s⟩
  · exact ⟨rfl, rfl, rfl⟩
  dsimp only
  have hmode := a.record_setNonblocking s owned
  rcases hm : s.setNonblocking owned with ⟨x | u, s'⟩ <;> rw [hm] at hmode
  · exact ⟨rfl, rfl, hmode⟩
  dsimp only
  have hregister := a.record_register { e with toSystem := s' } owned.number
    (Interests.readable ||| Interests.edge) f.token
  rcases hr : Environment.register { e with toSystem := s' } owned.number
    (Interests.readable ||| Interests.edge) f.token with ⟨x | u, e'⟩ <;> rw [hr] at hregister
  · exact ⟨rfl, rfl, hregister.trans hmode⟩
  dsimp only
  have hwaker : a.record (e'.setWaker f.token w).2.kernel = a.record e'.kernel := rfl
  rcases hw : e'.setWaker f.token w with ⟨x | u, e''⟩ <;> rw [hw] at hwaker <;>
    exact ⟨rfl, rfl, hwaker.trans (hregister.trans hmode)⟩

/-- **After a first poll**, a future owns what its opening has got. -/
theorem poll_first (a : Account K) (hf : f.finished = false) (hs : f.started = false)
    (hidle : f.owned = .nothing) :
    (f.poll o w e).2.1.started = true ∧
      (f.poll o w e).2.1.owned = Owned.won (o .nothing (f.announced e)).1 ∧
      a.record (f.poll o w e).2.2.kernel =
        a.record (o .nothing (f.announced e)).2.kernel := by
  obtain ⟨hstarted, howned, hcalm⟩ := prepare_first (o := o) (e := e) (w := w) a hs hidle
  rw [poll, if_neg (by simp [hf])]
  rcases hp : f.prepare o w e with ⟨x | u, f', e'⟩ <;> rw [hp] at hstarted howned hcalm
  · exact ⟨hstarted, howned, hcalm⟩
  · have hkeeps := keeps_advance a f' w e'
    exact ⟨hkeeps.started.trans hstarted, hkeeps.owned.trans howned, hkeeps.calm.trans hcalm⟩

/-- A future that is destroyed lets go of its descriptor, and nothing else is opened or closed. -/
theorem drop_eq (a : Account K) (f : ReadToEnd) (e : Environment K) :
    ∃ s : System K, a.record s.kernel = a.record e.kernel ∧
      (f.drop e).toSystem = s.release .file f.owned := by
  unfold drop
  split
  · have hcalm := a.record_deregister e f.owned.number f.token
    rcases hd : e.deregister f.owned.number f.token with ⟨x | u, e'⟩ <;> rw [hd] at hcalm
    · exact ⟨(e'.note .warning (dropFailure x)).toSystem, hcalm, rfl⟩
    · exact ⟨e'.toSystem, hcalm, rfl⟩
  · exact ⟨e.toSystem, rfl, rfl⟩

end ReadToEnd

namespace Get

open Holder Holder.Estate

variable {a : Account K} {x : Estate K} {v : Bytes → Owned}

/-- A request that has not been polled owns nothing. -/
structure Fresh (g : Get) : Prop where
  started : g.answer.started = false
  idle : g.answer.owned = .nothing

omit [Kernel K] in
theorem fresh_create (host : Bytes) (port : Int) (path : Bytes) (e : Environment K) :
    (create host port path e).1.Fresh := ⟨rfl, rfl⟩

/-- **The first poll of a request** is what owners do. -/
theorem runTo_poll (hx : x.Arisen a) (hv : x.owns = v) (n : Spare v) {g : Get} (hg : g.Fresh)
    (w : Waker) {e : Environment K} (he : e.toSystem = x.system) :
    (g.poll w e).2.1.answer.Attempted ∧
      ∃ failed, RunTo a x (attempts failed (g.poll w e).2.1.answer.owned)
        (g.poll w e).2.2.toSystem (update v n.future (g.poll w e).2.1.answer.owned) := by
  unfold poll
  by_cases hf : g.answer.finished = true
  · rw [ReadToEnd.poll, if_pos hf]
    dsimp only
    rw [he, hg.idle, update_nothing n.future_idle, ← hv]
    exact ⟨.inr hf, [], .refl x⟩
  · obtain ⟨hstarted, howned, hcalm⟩ := ReadToEnd.poll_first (o := opening g.host g.port g.path)
      (e := e) (w := w) a (by simpa using hf) hg.started hg.idle
    have hs : a.record (g.answer.announced e).kernel = x.calls a := by rw [Estate.calls, ← he]; rfl
    obtain ⟨failed, hr⟩ := Tried.of_calm hs (tried_opening (x := ⟨x.holders, g.answer.announced e⟩)
      (hx.run (Step.calm hs).run) hv n g.host g.port g.path)
    dsimp only at hr ⊢
    rw [← howned] at hr
    exact ⟨.inl hstarted, failed, hr.calm_after hcalm⟩

/-- **A request that is destroyed** is an owner that lets go of its socket. -/
theorem runTo_drop (a : Account K) {n : Bytes} {g : Get} {e : Environment K}
    (hn : x.owns n = g.answer.owned) (he : e.toSystem = x.system) :
    RunTo a x (g.answer.owned.incidents .closed) (g.drop e).toSystem
      (update x.owns n .nothing) := by
  obtain ⟨s, hs, hdrop⟩ := g.answer.drop_eq a e
  have hcalm : a.record s.kernel = x.calls a := hs.trans (by rw [he]; rfl)
  have hdropped := (RunTo.calm hcalm).bind fun y _ hy hyv ↦ by
    have hd := RunTo.discard a y n
    rwa [hyv, hn, hy, ← hdrop] at hd
  exact hdropped

end Get

/-! ### A kernel that keeps its account -/

/-- A kernel that keeps account of what is opened and closed, and of nothing else. -/
structure Ledger where
  /-- What has been opened and closed. -/
  calls : List FileCall := []

namespace Ledger

/-- The descriptor that a call is about. -/
def number : FileCall → Int
  | .opens d | .closes d => d

/-- A number that is larger than those of all calls. -/
def unused (calls : List FileCall) : Int := calls.foldr (fun c n ↦ max (number c + 1) n) 0

theorem unused_nonneg (calls : List FileCall) : 0 ≤ unused calls := by
  induction calls with
  | nil => exact Int.le_refl 0
  | cons c calls ih =>
    show 0 ≤ max (number c + 1) (unused calls)
    omega

theorem number_lt_unused {calls : List FileCall} {c : FileCall} (hc : c ∈ calls) :
    number c < unused calls := by
  induction calls with
  | nil => cases hc
  | cons b calls ih =>
    show number c < max (number b + 1) (unused calls)
    rcases List.mem_cons.1 hc with rfl | hc
    · omega
    · have := ih hc
      omega

theorem opens_mem_of_foldl {d : Descriptor} {calls : List FileCall} {b : Bool}
    (h : calls.foldl (FileCall.leaves d) b = true) : b = true ∨ .opens d ∈ calls := by
  induction calls generalizing b with
  | nil => exact .inl h
  | cons c calls ih =>
    rcases ih h with hb | hmem
    · cases c with
      | opens d' =>
        rcases Bool.or_eq_true_iff.1 hb with hb | hd
        · exact .inl hb
        · exact .inr (List.mem_cons.2 (.inl (congrArg FileCall.opens (of_decide_eq_true hd).symm)))
      | closes d' => exact .inl (Bool.and_eq_true_iff.1 hb).1
    · exact .inr (List.mem_cons_of_mem _ hmem)

theorem isOpen_unused (calls : List FileCall) : FileCall.isOpen (unused calls) calls = false := by
  refine Bool.eq_false_iff.2 fun hopen ↦ ?_
  have hmem := (opens_mem_of_foldl hopen).resolve_left Bool.false_ne_true
  have hlt : unused calls < unused calls := number_lt_unused hmem
  exact Int.lt_irrefl _ hlt

/-- No socket is connected to the first port, and no descriptor is closed without complaint. -/
instance : Kernel Ledger where
  createPoller l := (.error .tooManyFiles, l)
  createNotifier l := (.error .tooManyFiles, l)
  add l _ _ _ := (.ok (), l)
  remove l _ _ := (.ok (), l)
  wait l _ _ _ := (.ok [], l)
  isNonblocking l _ := (.ok false, l)
  setNonblocking l _ := (.ok (), l)
  read l _ _ := (.error .wouldBlock, l)
  write l _ _ := (.error .badDescriptor, l)
  close l d := (.error .badDescriptor, ⟨l.calls ++ [.closes d]⟩)
  resolve l host port := (.ok [⟨host, 1⟩, ⟨host, port⟩], l)
  socket l _ := (.ok (unused l.calls), ⟨l.calls ++ [.opens (unused l.calls)]⟩)
  connect l _ address := (if address.port = 1 then .error .refused else .ok (), l)
  send l _ text := (.ok text.length, l)
  patience _ := 0
  read_data h := by cases h
  read_interrupted h := by cases h
  connect_interrupted h := by
    split at h <;> cases h
  send_interrupted h := by cases h
  send_pos htext h := by
    cases h
    exact List.length_pos_iff.2 htext

/-- The account that a ledger keeps. -/
def account : Account Ledger where
  record := calls
  socket_ok h := by
    cases h
    exact ⟨unused_nonneg _, isOpen_unused _, rfl⟩
  socket_error h := by cases h
  close _ _ := rfl
  resolve _ _ _ := rfl
  connect _ _ _ := rfl
  send _ _ _ := rfl
  read _ _ _ := rfl
  isNonblocking _ _ := rfl
  setNonblocking _ _ := rfl
  add _ _ _ _ := rfl
  remove _ _ _ := rfl

open Holder Holder.Estate

/-- Nobody owns anything, and nothing is open. -/
def vacant : Estate Ledger := ⟨.empty, { kernel := {} }⟩

/-- Somebody has opened a descriptor, and a first owner has taken it. -/
def adopting : Estate Ledger :=
  Estate.after ⟨.empty, { kernel := ⟨[.opens 0]⟩ }⟩ (.adopt [1] 0)

theorem run_adopting : Run account vacant [.opened 0, .adopted 0] adopting := by
  have hopened : Run account vacant [.opened 0] ⟨.empty, { kernel := ⟨[.opens 0]⟩ }⟩ :=
    (Step.opened (Int.le_refl 0) rfl rfl).run
  refine hopened.snoc (Step.op (.adopt [1] 0) fun _ ↦ ⟨by decide, ?_⟩)
  rintro ⟨n, hn⟩
  exact absurd hn (by show Owned.nothing ≠ ⟨0⟩; decide)

/-- Names that are still to be had. -/
def spare : Get.Spare adopting.owns where
  candidate := [2]
  socket := [3]
  future := [4]
  candidate_ne_socket := by decide
  socket_ne_future := by decide
  candidate_idle := rfl
  socket_idle := rfl
  future_idle := rfl

/-- What a request reaches. -/
def surroundings : Environment Ledger := { toSystem := adopting.system }

/-- A request whose first address refuses. -/
def request : Get := (Get.create [104] 80 [47] surroundings).1

end Ledger

/-! ### The main result -/

namespace Holder.Estate

/-- **Descriptors are closed exactly once**, whatever owners do from when nobody owned anything.
The first poll of a request, however it ends, is something that owners do, and so is its
destruction; polls in between open and close nothing. -/
theorem closed_exactly_once (a : Account K) {x₀ x : Estate K} {h : List Incident} (hv : x₀.Vacant)
    (hr : Run a x₀ h x) :
    Orderly a x₀ h x ∧
    (∀ (n : Get.Spare x.owns) (g : Get) (w : Waker) (e : Environment K), g.Fresh →
      e.toSystem = x.system → (g.poll w e).2.1.answer.Attempted ∧ ∃ failed y,
        Run a x (Get.attempts failed (g.poll w e).2.1.answer.owned) y ∧
        y.system = (g.poll w e).2.2.toSystem ∧
        y.owns = update x.owns n.future (g.poll w e).2.1.answer.owned ∧
        Orderly a x₀ (h ++ Get.attempts failed (g.poll w e).2.1.answer.owned) y) ∧
    (∀ (g : Get) (w : Waker) (e : Environment K), g.answer.Attempted →
      (g.poll w e).2.1.answer.Attempted ∧ (g.poll w e).2.1.answer.owned = g.answer.owned ∧
        a.record (g.poll w e).2.2.kernel = a.record e.kernel) ∧
    ∀ (n : Bytes) (g : Get) (e : Environment K), x.owns n = g.answer.owned →
      e.toSystem = x.system → ∃ y,
        Run a x (g.answer.owned.incidents .closed) y ∧
        y.system = (g.drop e).toSystem ∧ y.owns = update x.owns n .nothing ∧
        Orderly a x₀ (h ++ g.answer.owned.incidents .closed) y := by
  refine ⟨hr.orderly hv, fun n g w e hg he ↦ ?_, fun g w e hg ↦ ?_, fun n g e hn he ↦ ?_⟩
  · obtain ⟨hattempted, failed, y, hy, hsystem, howns⟩ :=
      Get.runTo_poll ⟨x₀, h, hv, hr⟩ rfl n hg w he
    exact ⟨hattempted, failed, y, hy, hsystem, howns, (hr.trans hy).orderly hv⟩
  · obtain ⟨hkeeps, hattempted⟩ := ReadToEnd.keeps_poll (f := g.answer) (e := e) (w := w)
      (o := Get.opening g.host g.port g.path) a hg
    exact ⟨hattempted, hkeeps.owned, hkeeps.calm⟩
  · obtain ⟨y, hy, hsystem, howns⟩ := Get.runTo_drop a hn he
    exact ⟨y, hy, hsystem, howns, (hr.trans hy).orderly hv⟩

open Ledger in
/-- A request is polled next to an owner, in a kernel that refuses its first address and complains
whenever something is closed. -/
theorem closed_exactly_once_ledger :
    vacant.Vacant ∧ Run account vacant [.opened 0, .adopted 0] adopting ∧
    Orderly account vacant [.opened 0, .adopted 0] adopting ∧
    ∃ failed y,
      Run account adopting (Get.attempts failed (request.poll .idle surroundings).2.1.answer.owned)
        y ∧
      y.system = (request.poll .idle surroundings).2.2.toSystem ∧
      y.owns =
        update adopting.owns [4] (request.poll .idle surroundings).2.1.answer.owned ∧
      Orderly account vacant ([.opened 0, .adopted 0] ++
        Get.attempts failed (request.poll .idle surroundings).2.1.answer.owned) y := by
  have hv : vacant.Vacant := fun _ ↦ nothing_not_isValid
  have hall := closed_exactly_once account hv run_adopting
  exact ⟨hv, run_adopting, hall.1,
    (hall.2.1 spare request .idle surroundings (Get.fresh_create ..) rfl).2⟩

end Holder.Estate

end TaskRuntime
