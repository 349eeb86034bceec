import TaskRuntime.Proofs.Cable
import TaskRuntime.Proofs.Talking

/-!
# Every request is answered

However a request and its answer are cut on their way, they are read as what they were written for,
and the polls of the request result in the answer and in nothing else (`Dialogue.Run.agrees`).

That the answer comes is shown from what is left to do. As long as the request has not been
answered, somebody can make a step that leaves less, once the kernel lets the call return
(`Dialogue.Sound.advances`):

* the client, as long as it has to send and the server has read what is on its way;
* the server, as long as there is nothing on its way to the client;
* otherwise the client, which polls again if it has to, and reads.

So whatever has happened, the answer can still be read to its end (`Dialogue.Sound.resolves`).
-/

namespace TaskRuntime

namespace Dialogue

variable {K : Type} [Kernel K] {rule : LineRule K} {line : Line} {delay : Int} {message : Bytes}
  {x x' : Dialogue K} {v : DelayServer.Serving} {t : Traffic} {w : Waker} {stage : Get.Stage}

omit [Kernel K] in
/-- A call that succeeds does not have to wait. -/
theorem not_waits {A : Type} {a : A} {r : Except Errno A × K} {k : K} (h : r = (.ok a, k)) :
    ¬Waits r := by
  rintro ⟨e, he, -⟩
  rw [h] at he
  cases he

omit [Kernel K] in
/-- Something has been taken from a text. -/
theorem drop_ne {text : Bytes} {n : Nat} (ht : text ≠ []) (hn : 0 < n) : text.drop n ≠ text := by
  intro h
  have hlength := congrArg List.length h
  have hpos := List.length_pos_iff.2 ht
  rw [List.length_drop] at hlength
  omega

/-- There is less to do after some steps. -/
def Advances (rule : LineRule K) (line : Line) (answer : Bytes) (x : Dialogue K)
    (v : DelayServer.Serving) (t : Traffic) : Prop :=
  ∃ x' v' t', Run rule line x x' ∧ x'.server = some v' ∧
    rule.traffic x'.environment.kernel line = some t' ∧ left answer x' v' t' < left answer x v t

/-- Steps that leave as much to do can be made before. -/
theorem Advances.of_run {answer : Bytes} (hr : Run rule line x x')
    (hl : left answer x' v t = left answer x v t) (h : Advances rule line answer x' v t) :
    Advances rule line answer x v t := by
  obtain ⟨x'', v'', t'', hr', hs, ht, hless⟩ := h
  exact ⟨x'', v'', t'', hr.trans hr', hs, ht, hl ▸ hless⟩

/-- The kernel is in another state. -/
def inKernel (x : Dialogue K) (k : K) : Dialogue K :=
  { x with environment := { x.environment with kernel := k } }

/-- The kernel may have come to be in another state that has the same traffic. -/
theorem Sound.run_inKernel (hx : x.Sound rule line delay message)
    (ht : rule.traffic x.environment.kernel line = some t) {k : K}
    (hk : rule.traffic k line = some t) : Run rule line x (x.inKernel k) :=
  .step .refl (.others (e := { x.environment with kernel := k }) rfl hx.alive (hk.trans ht.symm))

theorem Sound.inKernel (hx : x.Sound rule line delay message)
    (ht : rule.traffic x.environment.kernel line = some t) {k : K}
    (hk : rule.traffic k line = some t) (ha : DelayServer.Askable delay message) :
    (x.inKernel k).Sound rule line delay message :=
  (hx.run_inKernel ht hk).sound ha hx

/-- What holds of a dialogue with a connection. -/
theorem Sound.talking (hx : x.Sound rule line delay message) (hs : x.server = some v)
    (ht : rule.traffic x.environment.kernel line = some t) :
    Talking line (DelayServer.request delay message) (DelayServer.success message) x v t := by
  rcases hx.talk with ⟨hnone, -⟩ | ⟨v', t', hs', ht', hx⟩
  · cases hs.symm.trans hnone
  · cases hs.symm.trans hs'
    cases ht.symm.trans ht'
    exact hx

/-! ### Steps of the server -/

/-- A step of the server that changes something. -/
theorem Sound.serves (ha : DelayServer.Askable delay message)
    (hx : x.Sound rule line delay message) (hs : x.server = some v)
    (ht : rule.traffic x.environment.kernel line = some t)
    (hw : ¬Listens line.server x.environment.kernel v)
    (hne : (v.tick line.server x.system).1 ≠ v) :
    Advances rule line (DelayServer.success message) x v t := by
  obtain ⟨t', ht', -, hless⟩ := (hx.talking hs ht).serve ha ht hw rfl
  exact ⟨_, _, t', .step .refl (.serve hs hw rfl), rfl, ht', hless.resolve_left hne⟩

/-- The server reads what is on its way. -/
theorem Sound.hears (ha : DelayServer.Askable delay message)
    (hx : x.Sound rule line delay message) {head : Bytes} (hs : x.server = some (.reading head))
    (ht : rule.traffic x.environment.kernel line = some t) (hc : t.toServer.content ≠ []) :
    Advances rule line (DelayServer.success message) x (.reading head) t := by
  have htalking := hx.talking hs ht
  have hhead : DelayServer.isHead head = false := by
    refine Bool.eq_false_iff.2 fun hhead ↦ hc (htalking.all_read ?_).1
    exact DelayServer.eq_of_isHead ha
      ⟨_, by rw [← List.append_assoc]; exact htalking.asked⟩ hhead
  obtain ⟨k, hk, bs, k', hr⟩ :=
    rule.delivers (n := DelayServer.pieceSize) .server ht (by decide) (.inl hc)
  have hr : Kernel.read k line.server DelayServer.pieceSize = (.ok bs, k') := hr
  refine .of_run (hx.run_inKernel ht hk) rfl ((hx.inKernel ht hk ha).serves ha hs hk ?_ ?_)
  · exact fun hw ↦ not_waits hr hw.2
  · rw [DelayServer.Serving.tick, hhead, if_neg Bool.false_ne_true]
    dsimp only [System.call, system, Dialogue.inKernel]
    rw [hr]
    cases bs with
    | nil => exact fun h ↦ by cases h
    | cons b bs => simp

/-- **The server can go on** as long as it is not gone, the client has sent all of its request, and
nothing is on its way to the client. -/
theorem Sound.server_advances (ha : DelayServer.Askable delay message)
    (hx : x.Sound rule line delay message) (hs : x.server = some v)
    (ht : rule.traffic x.environment.kernel line = some t) (hsent : unsent x.poll = [])
    (hc : t.toClient.content = []) (hv : isGone v = false) :
    Advances rule line (DelayServer.success message) x v t := by
  have htalking := hx.talking hs ht
  cases v with
  | reading head =>
    cases hhead : DelayServer.isHead head with
    | true =>
      refine hx.serves ha hs ht (fun hw ↦ ?_) ?_
      · cases hhead.symm.trans hw.1
      · rw [DelayServer.Serving.tick, hhead, if_pos rfl]
        exact fun h ↦ by cases h
    | false =>
      -- The rest of the request is on its way.
      refine hx.hears ha hs ht fun hnone ↦ ?_
      have hasked := htalking.asked
      rw [hnone, hsent, List.append_nil, List.append_nil, seen] at hasked
      rw [hasked, DelayServer.isHead_request] at hhead
      cases hhead
  | noting head => exact hx.serves ha hs ht id fun h ↦ by cases h
  | sending rest =>
    by_cases hrest : rest = []
    · subst hrest
      refine hx.serves ha hs ht (fun hw ↦ hw.1 rfl) ?_
      dsimp only [DelayServer.Serving.tick, System.call]
      rw [Kernel.sendSome, if_pos rfl]
      exact fun h ↦ by cases h
    · obtain ⟨k, hk, n, k', hr⟩ :=
        rule.takes .server ht ⟨htalking.closed.trans hv, htalking.open_⟩ hc hrest
      have hr : Kernel.send k line.server rest = (.ok n, k') := hr
      refine .of_run (hx.run_inKernel ht hk) rfl ((hx.inKernel ht hk ha).serves ha hs hk ?_ ?_)
      · exact fun hw ↦ not_waits hr hw.2
      · dsimp only [DelayServer.Serving.tick, System.call, system, Dialogue.inKernel]
        rw [Kernel.sendSome, if_neg hrest, hr]
        intro hsame
        exact drop_ne hrest (Kernel.send_pos hrest hr) (DelayServer.Serving.sending.inj hsame)
  | closing => exact hx.serves ha hs ht id fun h ↦ by cases h
  | gone => cases hv

/-! ### Steps of the client -/

/-- A step of the client that is not idle. -/
theorem Sound.asks (hx : x.Sound rule line delay message) (hs : x.server = some v)
    (ht : rule.traffic x.environment.kernel line = some t) (hp : x.poll = some (w, stage))
    (hw : ¬Asks x.environment.kernel stage)
    {a : Get.Asking} {e : Environment K}
    (h : Get.Asking.tick x.get w ⟨x.get.answer, stage⟩ x.environment = (a, e))
    (hne : Idles stage a.stage → a.future ≠ x.get.answer) :
    Advances rule line (DelayServer.success message) x v t := by
  have htalking := hx.talking hs ht
  have hstage : stage ≠ .connecting := by
    rintro rfl
    have hclient := htalking.client
    rw [hp] at hclient
    exact hclient
  obtain ⟨t', -, hkept, -, hless⟩ := htalking.ask ht hx.poller hx.alive hx.chunk hp hw h
  exact ⟨_, v, t', .step .refl (.ask hp hstage hw h), hs, hkept.traffic,
    hless.resolve_left fun hidle ↦ hne hidle.1 hidle.2⟩

/-- The client can send if the server has read what has been sent. -/
theorem Sound.sends (ha : DelayServer.Askable delay message)
    (hx : x.Sound rule line delay message) (hs : x.server = some v)
    (ht : rule.traffic x.environment.kernel line = some t) {connection : Owned} {rest : Bytes}
    (hp : x.poll = some (w, .sending connection rest)) (hc : t.toServer.content = []) :
    Advances rule line (DelayServer.success message) x v t := by
  have htalking := hx.talking hs ht
  have hclient := htalking.client
  rw [hp] at hclient
  obtain ⟨rfl, -⟩ := hclient
  by_cases hrest : rest = []
  · subst hrest
    obtain ⟨f, e, htick⟩ : ∃ f e, Get.Asking.tick x.get w
        ⟨x.get.answer, .sending ⟨line.client⟩ []⟩ x.environment =
          (⟨f, .polling .unblocking⟩, e) := by
      dsimp only [Get.Asking.tick, Environment.onSystem, System.call]
      rw [Kernel.sendSome, if_pos rfl]
      exact ⟨_, _, rfl⟩
    exact hx.asks hs ht hp (fun hw ↦ hw.1 rfl) htick fun h ↦ by cases h
  · have hopen : t.Open := ⟨htalking.server_open (by rw [hp]; exact hrest), htalking.open_⟩
    obtain ⟨k, hk, n, k', hr⟩ := rule.takes .client ht hopen hc hrest
    have hr : Kernel.send k line.client rest = (.ok n, k') := hr
    obtain ⟨e, htick⟩ : ∃ e, Get.Asking.tick x.get w
        ⟨x.get.answer, .sending ⟨line.client⟩ rest⟩ (x.inKernel k).environment =
          (⟨x.get.answer, .sending ⟨line.client⟩ (rest.drop n)⟩, e) := by
      dsimp only [Get.Asking.tick, Environment.onSystem, System.call, Dialogue.inKernel]
      rw [Kernel.sendSome, if_neg hrest, hr]
      exact ⟨_, rfl⟩
    refine .of_run (hx.run_inKernel ht hk) rfl
      ((hx.inKernel ht hk ha).asks hs hk hp ?_ htick ?_)
    · exact fun hw ↦ not_waits hr hw.2
    · generalize hdrop : rest.drop n = rest'
      intro hidle
      cases hidle
      exact absurd hdrop (drop_ne hrest (Kernel.send_pos hrest hr))

/-- The client is about to read, or to poll again. -/
inductive Loops (f : ReadToEnd) : Option (Waker × Get.Stage) → Prop
  /-- Nobody polls, though there is something to poll for. -/
  | unpolled (hf : f.finished = false) : Loops f none
  /-- It is about to read. -/
  | reading {w : Waker} : Loops f (some (w, .polling .reading))
  /-- It is about to leave its waker. -/
  | rearming {w : Waker} (hf : f.finished = false) : Loops f (some (w, .polling .rearming))
  /-- It is about to return. -/
  | pending {w : Waker} (hf : f.finished = false) :
    Loops f (some (w, .polling (.complete (.ok .pending))))

omit [Kernel K] in
/-- As much is left to do wherever the client is in its loop. -/
theorem left_eq_of_loops {answer : Bytes} (hl : Loops x.get.answer x.poll)
    (hl' : Loops x.get.answer x'.poll) (hg : x'.get = x.get) :
    left answer x' v t = left answer x v t := by
  have hsteps {p : Option (Waker × Get.Stage)} (hl : Loops x.get.answer p) :
      clientSteps x.get.answer p = 6 ∧ unsent p = [] := by
    cases hl with
    | unpolled hf => exact ⟨by rw [clientSteps, hf]; rfl, rfl⟩
    | _ => exact ⟨rfl, rfl⟩
  rw [left, left, hg, (hsteps hl).1, (hsteps hl).2, (hsteps hl').1, (hsteps hl').2]

/-- Steps that have left request and answer where they were. -/
structure Around (rule : LineRule K) (line : Line) (t : Traffic) (x x' : Dialogue K) : Prop where
  /-- The steps. -/
  run : Run rule line x x'
  /-- The future is the same. -/
  get : x'.get = x.get
  /-- The server is where it was. -/
  server : x'.server = x.server
  /-- The traffic is the same. -/
  traffic : rule.traffic x'.environment.kernel line = some t

/-- A client that is about to poll again comes to read. -/
theorem Sound.rereads (hx : x.Sound rule line delay message) (hs : x.server = some v)
    (ht : rule.traffic x.environment.kernel line = some t) (hl : Loops x.get.answer x.poll) :
    ∃ x' w, Around rule line t x x' ∧ x'.poll = some (w, .polling .reading) := by
  have hbegin {x' : Dialogue K} (h : Around rule line t x x') (hp : x'.poll = none)
      (hf : x.get.answer.finished = false) :
      ∃ x' w, Around rule line t x x' ∧ x'.poll = some (w, .polling .reading) := by
    refine ⟨_, .idle, ⟨h.run.step (.begin .idle hp (h.get ▸ hf)), h.get, h.server, h.traffic⟩, ?_⟩
    show some (_, _) = _
    rw [stage_begin (h.get ▸ hf), h.get, (hx.talking hs ht).started]
    rfl
  have hfinish {x' : Dialogue K} {w : Waker} (h : Around rule line t x x')
      (hp : x'.poll = some (w, .polling (.complete (.ok .pending))))
      (hf : x.get.answer.finished = false) :
      ∃ x' w, Around rule line t x x' ∧ x'.poll = some (w, .polling .reading) :=
    hbegin ⟨h.run.step (.finish hp), h.get, h.server, h.traffic⟩ rfl hf
  generalize hp : x.poll = p at hl
  cases hl with
  | unpolled hf => exact hbegin ⟨.refl, rfl, rfl, ht⟩ hp hf
  | @reading w => exact ⟨x, w, ⟨.refl, rfl, rfl, ht⟩, hp⟩
  | @rearming w hf =>
    obtain ⟨e, hset, hkept⟩ := kept_setWaker ht hx.alive x.get.answer.token w
    have htick : Get.Asking.tick x.get w ⟨x.get.answer, .polling .rearming⟩ x.environment =
        (⟨x.get.answer, .polling (.complete (.ok .pending))⟩, e) := by
      dsimp only [Get.Asking.tick, ReadToEnd.Reading.tick]
      rw [hset]
      rfl
    have hrun : Run rule line x _ := .step .refl (.ask hp (fun h ↦ by cases h) id htick)
    exact hfinish ⟨hrun, rfl, rfl, hkept.traffic⟩ rfl hf
  | pending hf => exact hfinish ⟨.refl, rfl, rfl, ht⟩ hp hf

/-- The client reads if there is something to read, or the end. -/
theorem Sound.reads (ha : DelayServer.Askable delay message)
    (hx : x.Sound rule line delay message) (hs : x.server = some v)
    (ht : rule.traffic x.environment.kernel line = some t) (hl : Loops x.get.answer x.poll)
    (hc : t.toClient.content ≠ [] ∨ t.toClient.closed = true) :
    Advances rule line (DelayServer.success message) x v t := by
  obtain ⟨x', w, h, hp⟩ := hx.rereads hs ht hl
  have hx' : x'.Sound rule line delay message := h.run.sound ha hx
  have hs' : x'.server = some v := h.server.trans hs
  have hread : Reading line x'.get.answer t.watched := by
    have hclient := (hx'.talking hs' h.traffic).client
    rw [hp] at hclient
    exact hclient
  obtain ⟨k, hk, bs, k', hr⟩ := rule.delivers .client h.traffic hx'.chunk hc
  have hr : Kernel.read k x'.get.answer.owned.number x'.get.answer.chunk = (.ok bs, k') := by
    rw [hread.owned]
    exact hr
  have hleft : left (DelayServer.success message) x' v t =
      left (DelayServer.success message) x v t := left_eq_of_loops hl (hp ▸ .reading) h.get
  have hx'' := hx'.inKernel h.traffic hk ha
  refine .of_run h.run hleft (.of_run (hx'.run_inKernel h.traffic hk) rfl ?_)
  obtain ⟨f, m, e, htick, hne⟩ : ∃ f m e, Get.Asking.tick x'.get w
      ⟨x'.get.answer, .polling .reading⟩ (x'.inKernel k).environment = (⟨f, .polling m⟩, e) ∧
        (Idles (.polling .reading) (.polling m) → f ≠ x'.get.answer) := by
    dsimp only [Get.Asking.tick, ReadToEnd.Reading.tick, ReadToEnd.Reading.read,
      Dialogue.inKernel]
    rw [hr]
    cases bs with
    | nil => exact ⟨_, .forgetting, _, rfl, fun h ↦ by cases h⟩
    | cons b bs =>
      refine ⟨_, .reading, _, rfl, fun _ hsame ↦ ?_⟩
      exact absurd (List.append_right_eq_self.1 (congrArg ReadToEnd.buffer hsame))
        (List.cons_ne_nil b bs)
  exact hx''.asks hs' hk hp id htick hne

/-! ### All together -/

omit [Kernel K] in
/-- Only a server that reads has something on its way. -/
theorem Talking.eq_reading {request answer : Bytes} (hx : Talking line request answer x v t)
    (hc : t.toServer.content ≠ []) : ∃ head, v = .reading head := by
  cases v with
  | reading head => exact ⟨head, rfl⟩
  | _ => exact absurd (hx.all_read rfl).1 hc

/-- Somebody can go on while the client is in its loop. -/
theorem Sound.loop_advances (ha : DelayServer.Askable delay message)
    (hx : x.Sound rule line delay message) (hs : x.server = some v)
    (ht : rule.traffic x.environment.kernel line = some t) (hl : Loops x.get.answer x.poll) :
    Advances rule line (DelayServer.success message) x v t := by
  by_cases hc : t.toClient.content = [] ∧ isGone v = false
  · refine hx.server_advances ha hs ht ?_ hc.1 hc.2
    generalize x.poll = p at hl
    cases hl <;> rfl
  · refine hx.reads ha hs ht hl ?_
    rw [(hx.talking hs ht).closed, ← Bool.not_eq_false]
    exact Classical.not_and_iff_not_or_not.1 hc

/-- **Somebody can go on** as long as the request has not been answered. -/
theorem Sound.advances (ha : DelayServer.Askable delay message)
    (hx : x.Sound rule line delay message) (hs : x.server = some v)
    (ht : rule.traffic x.environment.kernel line = some t) (hr : ¬x.Resolved) :
    Advances rule line (DelayServer.success message) x v t := by
  have htalking := hx.talking hs ht
  have hclient := htalking.client
  rcases hp : x.poll with _ | ⟨w, stage⟩
  · have hf : x.get.answer.finished = false := Bool.eq_false_iff.2 fun hf ↦ hr ⟨hp, hf⟩
    exact hx.loop_advances ha hs ht (hp ▸ .unpolled hf)
  rw [hp] at hclient
  cases stage with
  | connecting => exact hclient.elim
  | sending connection rest =>
    by_cases hc : t.toServer.content = []
    · exact hx.sends ha hs ht hp hc
    · obtain ⟨head, rfl⟩ := htalking.eq_reading hc
      exact hx.hears ha hs ht hc
  | polling m =>
    cases m with
    | opening => exact hclient.elim
    | reading => exact hx.loop_advances ha hs ht (hp ▸ .reading)
    | rearming =>
      have hread : Reading line x.get.answer t.watched := hclient
      exact hx.loop_advances ha hs ht (hp ▸ .rearming hread.finished)
    | complete r =>
      rcases r with y | _ | b
      · exact hclient.elim
      · have hread : Reading line x.get.answer t.watched := hclient
        exact hx.loop_advances ha hs ht (hp ▸ .pending hread.finished)
      · obtain ⟨hfinished, -⟩ : x.get.answer.finished = true ∧ b = _ := hclient
        refine ⟨_, v, t, .step .refl (.finish hp), hs, ht, ?_⟩
        simp [left, unsent, clientSteps, hp, hfinished]
    | _ => exact hx.asks hs ht hp id rfl fun h ↦ by cases h

/-- **The answer can be read to its end**, whatever has happened. -/
theorem Sound.resolves (ha : DelayServer.Askable delay message)
    (hx : x.Sound rule line delay message) (hs : x.server = some v)
    (ht : rule.traffic x.environment.kernel line = some t) :
    ∃ x', Run rule line x x' ∧ x'.Resolved := by
  induction hn : left (DelayServer.success message) x v t using Nat.strongRecOn generalizing x v t
    with
  | ind n ih =>
    by_cases hr : x.Resolved
    · exact ⟨x, .refl, hr⟩
    · obtain ⟨x', v', t', hrun, hs', ht', hless⟩ := hx.advances ha hs ht hr
      obtain ⟨x'', hrun', hresolved⟩ := ih _ (hn ▸ hless) (hrun.sound ha hx) hs' ht' rfl
      exact ⟨x'', hrun.trans hrun', hresolved⟩

/-- **Request and answer agree.** -/
structure Agrees (rule : LineRule K) (line : Line) (delay : Int) (message : Bytes)
    (x : Dialogue K) : Prop where
  /-- At most one head is taken for complete. -/
  once : x.heard.length ≤ 1
  /-- A head that is taken for complete is read as what the request asks for. -/
  parsed : ∀ head ∈ x.heard, DelayServer.Target.ofHead head = ⟨some delay, some message⟩
  /-- It is answered with the message. -/
  answered : ∀ head ∈ x.heard, DelayServer.answer head = DelayServer.success message
  /-- This answer says so: success, the length of the message, and the message. -/
  tells : DelayServer.Tells (DelayServer.success message) message
  /-- Polls are pending until one results in this answer, and in nothing else. -/
  past : ∃ n, x.past = List.replicate n (.ok .pending) ∧ ¬x.Resolved ∨
    x.past = List.replicate n (.ok .pending) ++ [.ok (.ready (DelayServer.success message))] ∧
      x.Resolved ∧ x.heard.length = 1
  /-- Once there is a connection, it can come to this. -/
  resolves : x.server.isSome → ∃ x', Run rule line x x' ∧ x'.Resolved

/-- The server has heard the request when it has been answered. -/
theorem Sound.heard_of_resolved (hx : x.Sound rule line delay message) (hr : x.Resolved) :
    x.heard = [DelayServer.request delay message] := by
  rcases hx.talk with ⟨-, hsilent⟩ | ⟨v, t, -, -, hx⟩
  · cases hr.finished.symm.trans hsilent.finished
  · have htold := hx.told
    rw [received, hr.finished, if_pos rfl, List.append_assoc] at htold
    have hunsaid := (List.append_eq_nil_iff.1 (List.append_right_eq_self.1 htold)).2
    have hne : DelayServer.success message ≠ [] := by
      rw [DelayServer.success_eq, List.append_assoc, List.append_assoc]
      exact List.append_ne_nil_of_left_ne_nil (by decide) _
    rw [hx.heard]
    cases v with
    | reading head => exact absurd hunsaid hne
    | noting head => exact absurd hunsaid hne
    | _ => rfl

/-- A fresh request gets a connection over a cable. -/
theorem Fresh.run_cable {x : Dialogue Cable} (hx : x.Fresh Cable.line delay message) :
    ∃ x', Run Cable.rule Cable.line x x' ∧ x'.server.isSome := by
  have hstage : (Get.begin x.get.answer).stage = .connecting := by
    rw [stage_begin hx.finished, hx.started]
    rfl
  have hbegin : Run Cable.rule Cable.line x { x with poll := some (Waker.idle, .connecting) } :=
    hstage ▸ .step .refl (.begin .idle hx.poll hx.finished)
  obtain ⟨f, e, htick, ht⟩ : ∃ f e, Get.Asking.tick x.get .idle
      ⟨x.get.answer, .connecting⟩ x.environment =
        (⟨f, .sending ⟨Cable.line.client⟩ (Http.getRequest x.get.path)⟩, e) ∧
      Cable.rule.traffic e.kernel Cable.line = some {} := by
    have hopen (s : System Cable) : Get.openConnection x.get.host x.get.port s =
        (.ok ⟨Cable.line.client⟩, (Get.openConnection x.get.host x.get.port s).2) :=
      Prod.ext (Cable.openConnection_eq _ _ s).1 rfl
    dsimp only [Get.Asking.tick, Environment.onSystem]
    rw [hopen]
    exact ⟨_, _, rfl,
      Cable.trafficOn_eq_some_iff.2 ⟨rfl, (Cable.openConnection_eq _ _ _).2⟩⟩
  exact ⟨_, hbegin.step (.connect rfl hx.server htick ht), rfl⟩

/-- **A request and its answer agree end to end**, however both are cut on their way. -/
theorem Run.agrees (ha : DelayServer.Askable delay message) {x₀ : Dialogue K}
    (hf : x₀.Fresh line delay message) (hr : Run rule line x₀ x) :
    x.Agrees rule line delay message := by
  have hx : x.Sound rule line delay message := hr.sound ha hf.sound
  have hheard : x.heard = [] ∨ x.heard = [DelayServer.request delay message] := by
    rcases hx.talk with ⟨-, hsilent⟩ | ⟨v, t, -, -, hx⟩
    · exact .inl hsilent.heard
    · rw [hx.heard]
      cases v with
      | reading head => exact .inl rfl
      | noting head => exact .inl rfl
      | _ => exact .inr rfl
  have hmem {head : Bytes} (h : head ∈ x.heard) : head = DelayServer.request delay message := by
    rcases hheard with hnone | hone
    · rw [hnone] at h
      cases h
    · rw [hone] at h
      exact List.mem_singleton.1 h
  refine ⟨?_, fun head h ↦ ?_, fun head h ↦ ?_, DelayServer.tells_success message, ?_, fun hs ↦ ?_⟩
  · rcases hheard with h | h <;> simp [h]
  · rw [hmem h, DelayServer.ofHead_request ha]
  · rw [hmem h, DelayServer.answer_request ha]
  · obtain ⟨n, hpast⟩ := hx.past
    by_cases hres : x.poll = none ∧ x.get.answer.finished = true
    · rw [if_pos hres] at hpast
      exact ⟨n, .inr ⟨hpast, ⟨hres.1, hres.2⟩, by rw [hx.heard_of_resolved ⟨hres.1, hres.2⟩]; rfl⟩⟩
    · rw [if_neg hres, List.append_nil] at hpast
      exact ⟨n, .inl ⟨hpast, fun h ↦ hres ⟨h.poll, h.finished⟩⟩⟩
  · rcases hx.talk with ⟨hnone, -⟩ | ⟨v, t, hv, ht, -⟩
    · rw [hnone] at hs
      cases hs
    · exact hx.resolves ha hv ht

/-- A request for a text with a slash and a line break after 5 ms, over a cable that may cut it:
some run resolves, and agrees. -/
theorem agrees_cut : ∃ x₀ x : Dialogue Cable,
    x₀.environment.kernel.fates = [.moves 9, .interrupted, .wouldBlock, .moves 0, .moves 30] ∧
    DelayServer.Askable 5 (Bytes.utf8 "a/b\r\n") ∧ x₀.Fresh Cable.line 5 (Bytes.utf8 "a/b\r\n") ∧
    Run Cable.rule Cable.line x₀ x ∧ x.Resolved ∧
    x.Agrees Cable.rule Cable.line 5 (Bytes.utf8 "a/b\r\n") := by
  have ha : DelayServer.Askable 5 (Bytes.utf8 "a/b\r\n") :=
    { nonneg := by decide
      small := by decide
      space := by decide
      blank := fun h ↦ absurd (Bytes.hasInfix_iff.2 h) (by decide)
      fits := by
        have hfive : Numeral.ofInt 5 = [53] := by
          show Numeral.ofNat 5 = _
          rw [Numeral.ofNat, if_pos (by decide)]
          rfl
        rw [DelayServer.request, DelayServer.path, hfive]
        decide }
  let e : Environment Cable :=
    { kernel := { fates := [.moves 9, .interrupted, .wouldBlock, .moves 0, .moves 30] }
      reactor := { poller := Cable.line.poller } }
  have hf := fresh_create (e := e) (Bytes.utf8 "127.0.0.1") 8080 5
    (Bytes.utf8 "a/b\r\n") rfl rfl
  obtain ⟨x, hr, hs⟩ := hf.run_cable
  obtain ⟨x', hr', hresolved⟩ := (Run.agrees ha hf hr).resolves hs
  exact ⟨_, x', rfl, ha, hf, hr.trans hr', hresolved, Run.agrees ha hf (hr.trans hr')⟩

end Dialogue

end TaskRuntime
