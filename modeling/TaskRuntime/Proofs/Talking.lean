import TaskRuntime.Proofs.Dialogue

/-!
# Steps of a dialogue

The steps of the server (`Dialogue.Talking.serve`) and of the client (`Dialogue.Talking.ask`) leave
each byte of request and answer in one place, and those that are not idle leave less to do. The head
is complete with the last byte of the request, so the server answers when there is nothing left to
read for it; and what it closes has been emptied.

So what is sound goes on to be (`Dialogue.Sound.move`), through all of a run (`Dialogue.Run.sound`).
-/

namespace TaskRuntime

namespace Dialogue

variable {K : Type}

theorem eq_gone {v : DelayServer.Serving} (h : isGone v = true) : v = .gone := by
  cases v with
  | gone => rfl
  | _ => cases h

/-- When all of the request has been read, none of it is anywhere else. -/
theorem Talking.all_read {line : Line} {request answer : Bytes} {x : Dialogue K}
    {v : DelayServer.Serving} {t : Traffic} (hx : Talking line request answer x v t)
    (h : seen request v = request) : t.toServer.content = [] ∧ unsent x.poll = [] := by
  have hasked := hx.asked
  rw [h, List.append_assoc] at hasked
  exact List.append_eq_nil_iff.1 (List.append_right_eq_self.1 hasked)

/-- The server is not gone as long as the client has something to send. -/
theorem Talking.server_open {line : Line} {request answer : Bytes} {x : Dialogue K}
    {v : DelayServer.Serving} {t : Traffic} (hx : Talking line request answer x v t)
    (h : unsent x.poll ≠ []) : t.toClient.closed = false := by
  refine Bool.eq_false_iff.2 fun hc ↦ h (hx.all_read ?_).2
  rw [eq_gone (hx.closed.symm.trans hc)]
  rfl

/-! ### The server -/

theorem kernel_noteDelay (d : Descriptor) (head : Bytes) (s : System K) :
    (DelayServer.noteDelay d head s).kernel = s.kernel := by
  rw [DelayServer.noteDelay]
  split <;> rfl

section

variable [Kernel K] {rule : LineRule K} {line : Line} {delay : Int} {message : Bytes}
  {x x' : Dialogue K} {v v' : DelayServer.Serving} {t : Traffic} {s : System K}

/-- The dialogue after a step of the server. -/
def served (x : Dialogue K) (v v' : DelayServer.Serving) (s : System K) : Dialogue K :=
  { x with
    environment := { x.environment with kernel := s.kernel }
    server := some v'
    heard := x.heard ++ (match v with | .noting head => [head] | _ => [])
    serverLog := s.log
    serverTag := s.tag }

/-- **What a step of the server leaves**: each byte in one place, and less to do unless the server
is where it was. -/
structure Served (rule : LineRule K) (line : Line) (request answer : Bytes) (x : Dialogue K)
    (v v' : DelayServer.Serving) (t t' : Traffic) (s : System K) : Prop where
  /-- The traffic. -/
  traffic : rule.traffic s.kernel line = some t'
  /-- Request and answer. -/
  talking : Talking line request answer (x.served v v' s) v' t'
  /-- There is less to do. -/
  less : v' = v ∨ left answer (x.served v v' s) v' t' < left answer x v t

/-- A step of the server that reads. -/
theorem Talking.hear {head answer : Bytes} (ha : DelayServer.Askable delay message)
    (hx : Talking line (DelayServer.request delay message) answer x (.reading head) t)
    (ht : rule.traffic x.environment.kernel line = some t)
    (hw : ¬Listens line.server x.environment.kernel (.reading head))
    (h : DelayServer.Serving.tick line.server (.reading head) x.system = (v', s)) :
    ∃ t', Served rule line (DelayServer.request delay message) answer x (.reading head) v' t t'
      s := by
  obtain ⟨hasked, htold, hcomplete, hopen, hclosed, hstarted, hclient, hheard⟩ := hx
  replace hheard : x.heard ++ [] = [] := by rw [hheard]; rfl
  rw [DelayServer.Serving.tick] at h
  cases hhead : DelayServer.isHead head with
  | true =>
    rw [hhead, if_pos rfl] at h
    obtain ⟨rfl, rfl⟩ := Prod.mk.inj h
    have hall : head = DelayServer.request delay message :=
      DelayServer.eq_of_isHead ha ⟨_, by rw [← List.append_assoc]; exact hasked⟩ hhead
    subst hall
    refine ⟨t, ht, ⟨hasked, htold, rfl, hopen, hclosed, hstarted, hclient, hheard⟩, .inr ?_⟩
    simp [left, served, unsaid, serverSteps]
  | false =>
    rw [hhead, if_neg Bool.false_ne_true] at h
    rcases hr : Kernel.read x.environment.kernel line.server DelayServer.pieceSize with ⟨r, k⟩
    obtain ⟨t', hreads, ht'⟩ := rule.read .server ht (by decide) hr
    dsimp only [System.call, system] at h
    rw [hr] at h
    cases hreads with
    | ended _ hc => cases hopen.symm.trans hc
    | @piece b bs rest hcontent =>
      obtain ⟨rfl, rfl⟩ := Prod.mk.inj h
      have hcontent : t.toServer.content = b :: bs ++ rest := hcontent
      refine ⟨_, ht', ⟨?_, htold, trivial, hopen, hclosed, hstarted, hclient, hheard⟩, .inr ?_⟩
      · rw [hcontent] at hasked
        rw [← hasked]
        simp [seen, served, Traffic.put]
      · simp only [left, served, unsaid, serverSteps, Traffic.put, hcontent, List.length_append,
          List.length_cons]
        omega
    | @idle e he =>
      have he : e = .interrupted :=
        he.resolve_right fun hwould ↦ hw ⟨hhead, e, by rw [hr], hwould⟩
      dsimp only at h
      rw [if_pos he] at h
      obtain ⟨rfl, rfl⟩ := Prod.mk.inj h
      exact ⟨t, ht', ⟨hasked, htold, trivial, hopen, hclosed, hstarted, hclient, hheard⟩, .inl rfl⟩

/-- A step of the server that sends. -/
theorem Talking.say {request answer rest : Bytes}
    (hx : Talking line request answer x (.sending rest) t)
    (ht : rule.traffic x.environment.kernel line = some t)
    (hw : ¬Listens line.server x.environment.kernel (.sending rest))
    (h : DelayServer.Serving.tick line.server (.sending rest) x.system = (v', s)) :
    ∃ t', Served rule line request answer x (.sending rest) v' t t' s := by
  obtain ⟨hasked, htold, hcomplete, hopen, hclosed, hstarted, hclient, hheard⟩ := hx
  replace hheard : x.heard ++ [] = [request] := by rw [hheard]; rfl
  dsimp only [DelayServer.Serving.tick, System.call, system] at h
  rw [Kernel.sendSome] at h
  by_cases hrest : rest = []
  · subst hrest
    rw [if_pos rfl] at h
    obtain ⟨rfl, rfl⟩ := Prod.mk.inj h
    refine ⟨t, ht, ⟨hasked, htold, trivial, hopen, hclosed, hstarted, hclient, hheard⟩, .inr ?_⟩
    simp [left, served, unsaid, serverSteps]
  · rw [if_neg hrest] at h
    rcases hr : Kernel.send x.environment.kernel line.server rest with ⟨r, k⟩
    obtain ⟨t', hsends, ht'⟩ := rule.send .server ht ⟨hclosed, hopen⟩ hrest hr
    rw [hr] at h
    cases hsends with
    | taken n =>
      obtain ⟨rfl, rfl⟩ := Prod.mk.inj h
      refine ⟨_, ht', ⟨hasked, ?_, trivial, hopen, hclosed, hstarted, hclient, hheard⟩, .inr ?_⟩
      · refine Eq.trans ?_ htold
        simp [unsaid, served, Traffic.put, Traffic.toward, Side.other]
      · have hpos := Kernel.send_pos hrest hr
        have hlength := List.length_pos_iff.2 hrest
        simp only [left, served, unsaid, serverSteps, Traffic.put, Traffic.toward, Side.other,
          List.length_append, List.length_take, List.length_drop]
        omega
    | @idle e he =>
      have he : e = .interrupted :=
        he.resolve_right fun hwould ↦ hw ⟨hrest, e, by rw [hr], hwould⟩
      dsimp only at h
      rw [if_pos he] at h
      obtain ⟨rfl, rfl⟩ := Prod.mk.inj h
      exact ⟨t, ht', ⟨hasked, htold, trivial, hopen, hclosed, hstarted, hclient, hheard⟩, .inl rfl⟩

/-- **A step of the server** leaves each byte in one place. -/
theorem Talking.serve (ha : DelayServer.Askable delay message)
    (hx : Talking line (DelayServer.request delay message) (DelayServer.success message) x v t)
    (ht : rule.traffic x.environment.kernel line = some t)
    (hw : ¬Listens line.server x.environment.kernel v)
    (h : v.tick line.server x.system = (v', s)) :
    ∃ t', Served rule line (DelayServer.request delay message) (DelayServer.success message) x v v'
      t t' s := by
  cases v with
  | reading head => exact hx.hear ha ht hw h
  | noting head =>
    obtain ⟨hasked, htold, hcomplete, hopen, hclosed, hstarted, hclient, hheard⟩ := hx
    obtain ⟨rfl, rfl⟩ := Prod.mk.inj h
    have hall : head = DelayServer.request delay message := hcomplete
    subst hall
    have hanswer := DelayServer.answer_request ha
    refine ⟨t, ?_, ⟨hasked, ?_, trivial, hopen, hclosed, hstarted, hclient, ?_⟩, .inr ?_⟩
    · rw [kernel_noteDelay]
      exact ht
    · rw [hanswer]
      exact htold
    · show x.heard ++ [_] = _
      rw [hheard]
      rfl
    · simp [left, served, unsaid, serverSteps, hanswer]
  | sending rest => exact hx.say ht hw h
  | closing =>
    have hempty : t.toServer.content = [] := (hx.all_read rfl).1
    obtain ⟨hasked, htold, hcomplete, hopen, hclosed, hstarted, hclient, hheard⟩ := hx
    obtain ⟨rfl, rfl⟩ := Prod.mk.inj h
    refine ⟨_, rule.close ht hempty, ⟨hasked, htold, trivial, hopen, rfl, hstarted, hclient,
      (List.append_nil _).trans hheard⟩, .inr ?_⟩
    simp [left, served, unsaid, serverSteps]
  | gone =>
    obtain ⟨hasked, htold, hcomplete, hopen, hclosed, hstarted, hclient, hheard⟩ := hx
    obtain ⟨rfl, rfl⟩ := Prod.mk.inj h
    exact ⟨t, ht, ⟨hasked, htold, trivial, hopen, hclosed, hstarted, hclient,
      (List.append_nil _).trans hheard⟩, .inl rfl⟩

/-! ### The client -/

variable {e e' : Environment K} {f : ReadToEnd} {w : Waker} {a : Get.Asking}

/-- What an operation on the client's end leaves. -/
structure Kept (rule : LineRule K) (line : Line) (t : Traffic) (e e' : Environment K) : Prop where
  /-- The traffic. -/
  traffic : rule.traffic e'.kernel line = some t
  /-- The poller is the same. -/
  poller : e'.reactor.poller = e.reactor.poller
  /-- The reactor has failed if it had. -/
  failure : e'.reactor.failure = e.reactor.failure

/-- The client's end can be put into non-blocking mode. -/
theorem kept_setNonblocking (ht : rule.traffic e.kernel line = some t)
    (ho : f.owned = ⟨line.client⟩) :
    ∃ e', e.onSystem (·.setNonblocking f.owned) = (.ok (), e') ∧ Kept rule line t e e' := by
  obtain ⟨b, k, hb, hk⟩ := rule.isNonblocking ht
  rw [Environment.onSystem, System.setNonblocking, ho]
  dsimp only [System.call]
  rw [hb]
  cases b with
  | true => exact ⟨_, rfl, hk, rfl, rfl⟩
  | false =>
    obtain ⟨k', hset, hk'⟩ := rule.setNonblocking hk
    dsimp only
    rw [hset]
    exact ⟨_, rfl, hk', rfl, rfl⟩

/-- It can be registered. -/
theorem kept_register (ht : rule.traffic e.kernel line = some t) (hw : t.watched = false)
    (hp : e.reactor.poller = line.poller) (ho : f.owned = ⟨line.client⟩) (interests : Interests) :
    ∃ e', e.onSystem (fun s ↦ Poller.register s e.reactor.poller f.owned.number f.token
      interests) = (.ok (), e') ∧ Kept rule line { t with watched := true } e e' := by
  obtain ⟨k, hadd, hk⟩ := rule.add ⟨interests, f.token⟩ ht hw
  rw [Environment.onSystem, Poller.register, hp, ho]
  dsimp only [System.call, System.note]
  rw [hadd]
  exact ⟨_, rfl, hk, rfl, rfl⟩

/-- It can be taken out of the poller. -/
theorem kept_deregister (ht : rule.traffic e.kernel line = some t) (hw : t.watched = true)
    (hp : e.reactor.poller = line.poller) (ho : f.owned = ⟨line.client⟩) :
    ∃ e', e.onSystem (fun s ↦ Poller.deregister s e.reactor.poller f.owned.number) = (.ok (), e') ∧
      Kept rule line { t with watched := false } e e' := by
  obtain ⟨k, hremove, hk⟩ := rule.remove ht hw
  rw [Environment.onSystem, Poller.deregister, hp, ho]
  dsimp only [System.call]
  rw [hremove]
  exact ⟨_, rfl, hk, rfl, rfl⟩

/-- A waker can be left as long as the reactor has not failed. -/
theorem kept_setWaker (ht : rule.traffic e.kernel line = some t) (hf : e.reactor.failure = none)
    (token : Token) (w : Waker) :
    ∃ e', e.setWaker token w = (.ok (), e') ∧ Kept rule line t e e' := by
  rw [Environment.setWaker, Reactor.setWaker, Reactor.check, hf]
  exact ⟨_, rfl, ht, rfl, hf.symm⟩

/-- The dialogue after a step of the client. -/
def asked (x : Dialogue K) (w : Waker) (a : Get.Asking) (e : Environment K) : Dialogue K :=
  { x with
    environment := e
    get := { x.get with answer := a.future }
    poll := some (w, a.stage) }

/-- What a step of a poll that gets nowhere goes on with. -/
inductive Idles : Get.Stage → Get.Stage → Prop
  /-- A send has been interrupted. -/
  | sending {connection : Owned} {rest : Bytes} :
    Idles (.sending connection rest) (.sending connection rest)
  /-- A read has been interrupted. -/
  | reading : Idles (.polling .reading) (.polling .reading)
  /-- There was nothing to read. -/
  | rearming : Idles (.polling .reading) (.polling .rearming)
  /-- The poll is pending. -/
  | pending : Idles (.polling .rearming) (.polling (.complete (.ok .pending)))
  /-- The poll has ended. -/
  | complete {r : Polled Bytes} : Idles (.polling (.complete r)) (.polling (.complete r))

/-- **What a step of the client leaves**: each byte in one place, and less to do unless it is
idle. -/
structure Asked (rule : LineRule K) (line : Line) (request answer : Bytes) (x : Dialogue K)
    (v : DelayServer.Serving) (t t' : Traffic) (w : Waker) (stage : Get.Stage) (a : Get.Asking)
    (e : Environment K) : Prop where
  /-- At least one byte is read at once. -/
  chunk : 0 < a.future.chunk
  /-- Traffic and reactor. -/
  kept : Kept rule line t' x.environment e
  /-- Request and answer. -/
  talking : Talking line request answer (x.asked w a e) v t'
  /-- There is less to do. -/
  less : Idles stage a.stage ∧ a.future = x.get.answer ∨
    left answer (x.asked w a e) v t' < left answer x v t

/-- A step of a poll that leaves request and answer where they are. -/
theorem Talking.go {request answer : Bytes} {m m' : ReadToEnd.Moment} {watched : Bool}
    (hx : Talking line request answer x v t) (hpoll : x.poll = some (w, .polling m))
    (hk : Kept rule line { t with watched } x.environment e) (hchunk : 0 < f.chunk)
    (hr : received answer f = received answer x.get.answer) (hs : f.started = true)
    (hc : Client line answer f watched (some (w, .polling m')))
    (hl : Idles (.polling m) (.polling m') ∧ f = x.get.answer ∨
      clientSteps f (some (w, .polling m')) <
        clientSteps x.get.answer (some (w, .polling m))) :
    Asked rule line request answer x v t { t with watched } w (.polling m) ⟨f, .polling m'⟩ e where
  chunk := hchunk
  kept := hk
  talking :=
    { asked := by
        have hasked := hx.asked
        rw [hpoll] at hasked
        exact hasked
      told := by
        have htold := hx.told
        rw [← hr] at htold
        exact htold
      complete := hx.complete
      open_ := hx.open_
      closed := hx.closed
      started := hs
      client := hc
      heard := hx.heard }
  less := by
    refine hl.imp_right fun hl ↦ ?_
    rw [left, left, hpoll]
    exact Nat.add_lt_add_left hl _

/-- A step of the client that sends. -/
theorem Talking.send {request answer : Bytes} {connection : Owned} {rest : Bytes}
    (hx : Talking line request answer x v t) (ht : rule.traffic x.environment.kernel line = some t)
    (hc : 0 < x.get.answer.chunk) (hpoll : x.poll = some (w, .sending connection rest))
    (hw : ¬Asks x.environment.kernel (.sending connection rest))
    (h : Get.Asking.tick x.get w ⟨x.get.answer, .sending connection rest⟩ x.environment =
      (a, e)) :
    ∃ t', Asked rule line request answer x v t t' w (.sending connection rest) a e := by
  have hserver (hrest : rest ≠ []) : t.toClient.closed = false :=
    hx.server_open (by rw [hpoll]; exact hrest)
  obtain ⟨hasked, htold, hcomplete, hopen, hclosed, hstarted, hclient, hheard⟩ := hx
  rw [hpoll] at hasked hclient
  obtain ⟨rfl, howned, hwatched, hbuffer, hfinished⟩ := hclient
  dsimp only [Get.Asking.tick, Environment.onSystem, System.call] at h
  rw [Kernel.sendSome] at h
  by_cases hrest : rest = []
  · subst hrest
    rw [if_pos rfl, howned] at h
    obtain ⟨rfl, rfl⟩ := Prod.mk.inj h
    refine ⟨t, hc, ⟨ht, rfl, rfl⟩, ⟨hasked, htold, hcomplete, hopen, hclosed, hstarted,
      ⟨rfl, hwatched, hbuffer, hfinished⟩, hheard⟩, .inr ?_⟩
    simp [left, Dialogue.asked, unsent, clientSteps, hpoll]
  · rw [if_neg hrest] at h
    rcases hr : Kernel.send x.environment.kernel line.client rest with ⟨r, k⟩
    obtain ⟨t', hsends, ht'⟩ := rule.send .client ht ⟨hserver hrest, hopen⟩ hrest hr
    rw [hr] at h
    cases hsends with
    | taken n =>
      obtain ⟨rfl, rfl⟩ := Prod.mk.inj h
      refine ⟨_, hc, ⟨ht', rfl, rfl⟩, ⟨?_, htold, hcomplete, hopen, hclosed, hstarted,
        ⟨rfl, howned, hwatched, hbuffer, hfinished⟩, hheard⟩, .inr ?_⟩
      · refine Eq.trans ?_ hasked
        simp [unsent, Dialogue.asked, Traffic.put, Traffic.toward, Side.other]
      · have hpos := Kernel.send_pos hrest hr
        have hlength := List.length_pos_iff.2 hrest
        simp only [left, Dialogue.asked, unsent, clientSteps, hpoll, Traffic.put, Traffic.toward,
          Side.other, List.length_append, List.length_take, List.length_drop]
        omega
    | @idle y he =>
      have he : y = .interrupted :=
        he.resolve_right fun hwould ↦ hw ⟨hrest, y, by rw [hr], hwould⟩
      dsimp only at h
      rw [if_pos he] at h
      obtain ⟨rfl, rfl⟩ := Prod.mk.inj h
      exact ⟨t, hc, ⟨ht', rfl, rfl⟩, ⟨hasked, htold, hcomplete, hopen, hclosed, hstarted,
        ⟨rfl, howned, hwatched, hbuffer, hfinished⟩, hheard⟩, .inl ⟨.sending, rfl⟩⟩

/-- A step of the client that reads. -/
theorem Talking.read {request answer : Bytes} (hx : Talking line request answer x v t)
    (ht : rule.traffic x.environment.kernel line = some t) (hc : 0 < x.get.answer.chunk)
    (hpoll : x.poll = some (w, .polling .reading))
    (h : Get.Asking.tick x.get w ⟨x.get.answer, .polling .reading⟩ x.environment = (a, e)) :
    ∃ t', Asked rule line request answer x v t t' w (.polling .reading) a e := by
  have hread : Reading line x.get.answer t.watched := by
    have hclient := hx.client
    rw [hpoll] at hclient
    exact hclient
  have htold := hx.told
  rw [received, hread.finished, if_neg Bool.false_ne_true] at htold
  dsimp only [Get.Asking.tick, ReadToEnd.Reading.tick, ReadToEnd.Reading.read] at h
  rcases hr : Kernel.read x.environment.kernel x.get.answer.owned.number x.get.answer.chunk with
    ⟨r, k⟩
  have hclient : Kernel.read x.environment.kernel line.client x.get.answer.chunk = (r, k) := by
    rw [hread.owned] at hr
    exact hr
  obtain ⟨t', hreads, ht'⟩ := rule.read .client ht hc hclient
  rw [hr] at h
  cases hreads with
  | ended hn hclosed =>
    obtain ⟨rfl, rfl⟩ := Prod.mk.inj h
    -- The server is gone and nothing is on its way, so everything has been read.
    have hall : x.get.answer.buffer = answer := by
      rw [eq_gone (hx.closed.symm.trans hclosed), show t.toClient.content = [] from hn] at htold
      simpa [unsaid] using htold
    exact ⟨t, hx.go hpoll ⟨ht', rfl, rfl⟩ hc rfl hx.started
      ⟨⟨hread.owned, hread.watched, hread.finished⟩, hall⟩ (.inr (show 3 < 6 by decide))⟩
  | @piece b bs rest hcontent =>
    obtain ⟨rfl, rfl⟩ := Prod.mk.inj h
    have hcontent : t.toClient.content = b :: bs ++ rest := hcontent
    refine ⟨_, hc, ⟨ht', rfl, rfl⟩, ⟨?_, ?_, hx.complete, hx.open_, hx.closed, hx.started,
      ⟨hread.owned, hread.watched, hread.finished⟩, hx.heard⟩, .inr ?_⟩
    · have hasked := hx.asked
      rw [hpoll] at hasked
      exact hasked
    · rw [hcontent] at htold
      refine Eq.trans ?_ htold
      simp [received, hread.finished, Dialogue.asked, Traffic.put]
    · simp only [left, Dialogue.asked, unsent, clientSteps, hpoll, Traffic.put, hcontent,
        List.length_append, List.length_cons]
      omega
  | @idle y he =>
    dsimp only at h
    rcases he with rfl | he
    · rw [if_pos rfl] at h
      obtain ⟨rfl, rfl⟩ := Prod.mk.inj h
      exact ⟨t, hx.go hpoll ⟨ht', rfl, rfl⟩ hc rfl hx.started hread (.inl ⟨.reading, rfl⟩)⟩
    · have hne : y ≠ .interrupted := by
        rintro rfl
        cases he
      rw [if_neg hne, if_pos he] at h
      obtain ⟨rfl, rfl⟩ := Prod.mk.inj h
      exact ⟨t, hx.go hpoll ⟨ht', rfl, rfl⟩ hc rfl hx.started hread (.inl ⟨.rearming, rfl⟩)⟩

/-- **A step of the client** leaves each byte in one place. -/
theorem Talking.ask {request answer : Bytes} {stage : Get.Stage}
    (hx : Talking line request answer x v t) (ht : rule.traffic x.environment.kernel line = some t)
    (hp : x.environment.reactor.poller = line.poller)
    (hf : x.environment.reactor.failure = none) (hc : 0 < x.get.answer.chunk)
    (hpoll : x.poll = some (w, stage)) (hw : ¬Asks x.environment.kernel stage)
    (h : Get.Asking.tick x.get w ⟨x.get.answer, stage⟩ x.environment = (a, e)) :
    ∃ t', Asked rule line request answer x v t t' w stage a e := by
  have hclient := hx.client
  rw [hpoll] at hclient
  cases stage with
  | connecting => exact hclient.elim
  | sending connection rest => exact hx.send ht hc hpoll hw h
  | polling m =>
    dsimp only [Get.Asking.tick, ReadToEnd.Reading.tick] at h
    cases m with
    | opening => exact hclient.elim
    | unblocking =>
      have hprep : Preparing line x.get.answer t.watched := hclient
      obtain ⟨e', hset, hkept⟩ := kept_setNonblocking ht hprep.owned
      rw [hset] at h
      obtain ⟨rfl, rfl⟩ := Prod.mk.inj h
      exact ⟨t, hx.go hpoll hkept hc rfl hx.started hprep (.inr (show 9 < 10 by decide))⟩
    | checking =>
      rw [Reactor.check, hf] at h
      obtain ⟨rfl, rfl⟩ := Prod.mk.inj h
      exact ⟨t, hx.go hpoll ⟨ht, rfl, rfl⟩ hc rfl hx.started hclient
        (.inr (show 8 < 9 by decide))⟩
    | adding =>
      have hprep : Preparing line x.get.answer t.watched := hclient
      obtain ⟨e', hadd, hkept⟩ := kept_register ht hprep.watched hp hprep.owned
        (Interests.readable ||| Interests.edge)
      rw [hadd] at h
      obtain ⟨rfl, rfl⟩ := Prod.mk.inj h
      exact ⟨_, hx.go hpoll hkept hc rfl hx.started ⟨hprep.owned, rfl, hprep.finished⟩
        (.inr (show 7 < 8 by decide))⟩
    | arming =>
      obtain ⟨e', hset, hkept⟩ := kept_setWaker ht hf x.get.answer.token w
      rw [hset] at h
      obtain ⟨rfl, rfl⟩ := Prod.mk.inj h
      exact ⟨t, hx.go hpoll hkept hc rfl hx.started hclient (.inr (show 6 < 7 by decide))⟩
    | reading => exact hx.read ht hc hpoll h
    | rearming =>
      obtain ⟨e', hset, hkept⟩ := kept_setWaker ht hf x.get.answer.token w
      rw [hset] at h
      obtain ⟨rfl, rfl⟩ := Prod.mk.inj h
      exact ⟨t, hx.go hpoll hkept hc rfl hx.started hclient (.inl ⟨.pending, rfl⟩)⟩
    | forgetting =>
      obtain ⟨rfl, rfl⟩ := Prod.mk.inj h
      exact ⟨t, hx.go hpoll ⟨ht, rfl, rfl⟩ hc rfl hx.started hclient
        (.inr (show 2 < 3 by decide))⟩
    | removing =>
      obtain ⟨hread, hall⟩ : Reading line x.get.answer t.watched ∧ x.get.answer.buffer = answer :=
        hclient
      obtain ⟨e', hremove, hkept⟩ := kept_deregister ht hread.watched hp hread.owned
      rw [hremove] at h
      obtain ⟨rfl, rfl⟩ := Prod.mk.inj h
      have hsame : received answer x.get.answer = answer := by
        rw [received, hread.finished, if_neg Bool.false_ne_true, hall]
      exact ⟨_, hx.go hpoll hkept hc hsame.symm hx.started ⟨rfl, hall⟩
        (.inr (show 1 < 2 by decide))⟩
    | complete r =>
      obtain ⟨rfl, rfl⟩ := Prod.mk.inj h
      exact ⟨t, hx.go hpoll ⟨ht, rfl, rfl⟩ hc rfl hx.started hclient (.inl ⟨.complete, rfl⟩)⟩

/-! ### All steps -/

/-- What begins is a poll that connects, or one that reads. -/
theorem stage_begin (hf : f.finished = false) :
    (Get.begin f).stage = if f.started then .polling .reading else .connecting := by
  rw [Get.begin, ReadToEnd.begin, hf]
  cases f.started <;> rfl

/-- Connecting prepares the future, and nothing else. -/
theorem of_connecting {g : Get} {f f' : ReadToEnd} {connection : Owned} {text : Bytes}
    (h : Get.Asking.tick g w ⟨f, .connecting⟩ e = (⟨f', .sending connection text⟩, e')) :
    f' = { f with started := true } ∧ e'.reactor = e.reactor := by
  dsimp only [Get.Asking.tick, Environment.onSystem] at h
  generalize Get.openConnection (K := K) g.host g.port _ = opened at h
  rcases opened with ⟨_ | c, s⟩
  · cases h
  · obtain ⟨ha, rfl⟩ := Prod.mk.inj h
    exact ⟨((Get.Asking.mk.inj ha).1).symm, rfl⟩

theorem Fresh.sound (hf : x.Fresh line delay message) : x.Sound rule line delay message where
  path := hf.path
  chunk := hf.chunk
  poller := hf.poller
  alive := hf.alive
  past := ⟨0, by simp [hf.past, hf.finished]⟩
  talk := .inl ⟨hf.server, hf.started, hf.buffer, hf.finished, hf.owned, .inl hf.poll, hf.heard⟩

/-- **What holds goes on to hold**, whoever makes a step. -/
theorem Sound.move (ha : DelayServer.Askable delay message) (hx : x.Sound rule line delay message)
    (hm : Move rule line x x') : x'.Sound rule line delay message := by
  obtain ⟨hpath, hchunk, hpoller, halive, hpast, htalk⟩ := hx
  cases hm with
  | others hp hf ht =>
    refine ⟨hpath, hchunk, hp.trans hpoller, hf, hpast, htalk.imp ?_ ?_⟩
    · rintro ⟨hs, hsilent⟩
      exact ⟨hs, hsilent.started, hsilent.buffer, hsilent.finished, hsilent.owned, hsilent.poll,
        hsilent.heard⟩
    · rintro ⟨v, t, hs, htraffic, hx⟩
      exact ⟨v, t, hs, ht.trans htraffic, hx.asked, hx.told, hx.complete, hx.open_, hx.closed,
        hx.started, hx.client, hx.heard⟩
  | begin w hp hf =>
    refine ⟨hpath, hchunk, hpoller, halive, ?_, htalk.imp ?_ ?_⟩
    · obtain ⟨n, hpast⟩ := hpast
      exact ⟨n, by simpa [hf] using hpast⟩
    · rintro ⟨hs, hsilent⟩
      refine ⟨hs, hsilent.started, hsilent.buffer, hsilent.finished, hsilent.owned, .inr ⟨w, ?_⟩,
        hsilent.heard⟩
      show some (w, _) = _
      rw [stage_begin hf, hsilent.started]
      rfl
    · rintro ⟨v, t, hs, htraffic, hx⟩
      have hstage : (Get.begin x.get.answer).stage = .polling .reading := by
        rw [stage_begin hf, hx.started]
        rfl
      have hread : Reading line x.get.answer t.watched := by
        have hclient := hx.client
        rw [hp] at hclient
        exact hclient.resolve_left (by simp [hf])
      have hasked := hx.asked
      rw [hp] at hasked
      exact ⟨v, t, hs, htraffic, by rw [hstage]; exact hasked, hx.told, hx.complete, hx.open_,
        hx.closed, hx.started, by rw [hstage]; exact hread, hx.heard⟩
  | @connect w f e hp hs h ht =>
    obtain ⟨rfl, hreactor⟩ := of_connecting h
    rcases htalk with ⟨-, hsilent⟩ | ⟨v, t, hv, -⟩
    · refine ⟨hpath, hchunk, ?_, ?_, ?_, .inr ⟨.reading [], {}, rfl, ht, ?_⟩⟩
      · exact hreactor ▸ hpoller
      · exact hreactor ▸ halive
      · obtain ⟨n, hpast⟩ := hpast
        exact ⟨n, by simpa [hsilent.finished] using hpast⟩
      · refine ⟨?_, ?_, trivial, rfl, rfl, rfl, ?_, hsilent.heard⟩
        · show [] ++ [] ++ Http.getRequest x.get.path = _
          rw [hpath]
          rfl
        · simp [received, hsilent.finished, hsilent.buffer, unsaid]
        · exact ⟨rfl, hsilent.owned, rfl, hsilent.buffer, hsilent.finished⟩
    · cases hs.symm.trans hv
  | @ask w stage a e hp hs hw h =>
    rcases htalk with ⟨-, hsilent⟩ | ⟨v, t, hv, htraffic, hx⟩
    · rcases hsilent.poll with hnone | ⟨w', hconnecting⟩
      · cases hp.symm.trans hnone
      · cases hp.symm.trans hconnecting
        exact absurd rfl hs
    · obtain ⟨t', hchunk', hkept, hx', -⟩ := hx.ask htraffic hpoller halive hchunk hp hw h
      refine ⟨hpath, hchunk', hkept.poller.trans hpoller, hkept.failure.trans halive, ?_,
        .inr ⟨v, t', hv, hkept.traffic, hx'⟩⟩
      obtain ⟨n, hpast⟩ := hpast
      exact ⟨n, by simpa [hp] using hpast⟩
  | @finish w r hp =>
    rcases htalk with ⟨-, hsilent⟩ | ⟨v, t, hv, htraffic, hx⟩
    · rcases hsilent.poll with hnone | ⟨w', hconnecting⟩
      · cases hp.symm.trans hnone
      · cases hp.symm.trans hconnecting
    · obtain ⟨n, hpast⟩ := hpast
      have hpast : x.past = List.replicate n (.ok .pending) := by simpa [hp] using hpast
      have hasked := hx.asked
      have hclient := hx.client
      rw [hp] at hasked hclient
      rcases r with y | _ | b
      · exact hclient.elim
      · have hread : Reading line x.get.answer t.watched := hclient
        refine ⟨hpath, hchunk, hpoller, halive, ⟨n + 1, ?_⟩, .inr ⟨v, t, hv, htraffic, hasked,
          hx.told, hx.complete, hx.open_, hx.closed, hx.started, .inr hread, hx.heard⟩⟩
        simp [hpast, hread.finished, List.replicate_succ']
      · obtain ⟨hfinished, rfl⟩ : x.get.answer.finished = true ∧ b = _ := hclient
        refine ⟨hpath, hchunk, hpoller, halive, ⟨n, ?_⟩, .inr ⟨v, t, hv, htraffic, hasked,
          hx.told, hx.complete, hx.open_, hx.closed, hx.started, .inl hfinished, hx.heard⟩⟩
        simp [hpast, hfinished]
  | @serve v v' s hs hw h =>
    rcases htalk with ⟨hnone, -⟩ | ⟨v₀, t, hv, htraffic, hx⟩
    · cases hs.symm.trans hnone
    · cases hs.symm.trans hv
      obtain ⟨t', ht', hx', -⟩ := hx.serve ha htraffic hw h
      exact ⟨hpath, hchunk, hpoller, halive, hpast, .inr ⟨v', t', rfl, ht', hx'⟩⟩

theorem Run.sound (ha : DelayServer.Askable delay message) {x₀ : Dialogue K}
    (hx : x₀.Sound rule line delay message) (hr : Run rule line x₀ x) :
    x.Sound rule line delay message := by
  induction hr with
  | refl => exact hx
  | step _ hm ih => exact ih.move ha hm

theorem Run.trans {x₀ : Dialogue K} (hr : Run rule line x₀ x) (hr' : Run rule line x x') :
    Run rule line x₀ x' := by
  induction hr' with
  | refl => exact hr
  | step _ hm ih => exact ih.step hm

end

end Dialogue

end TaskRuntime
