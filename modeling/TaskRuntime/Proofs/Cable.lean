import TaskRuntime.Net.Get
import TaskRuntime.Proofs.Lines

/-!
# A cable

A kernel that has one connection to offer, and cuts what goes over it. What befalls the calls on the
connection is fixed in advance, call by call: one is interrupted, finds that it would have to wait,
or moves at most so many bytes (`Cable.Fate`). When all of this has happened, nothing is in the way
any more.

What holds of connections holds of this one (`Cable.rule`), so requests over a cable are answered.
-/

namespace TaskRuntime

namespace Cable

/-- What befalls a call. -/
inductive Fate
  /-- It is interrupted. -/
  | interrupted
  /-- It would have to wait. -/
  | wouldBlock
  /-- It moves one byte, or at most so many more. -/
  | moves (more : Nat)

end Cable

/-- A connection, and what is going to befall the calls on it. -/
structure Cable where
  /-- What befalls the next calls. -/
  fates : List Cable.Fate := []
  /-- What is on its way, once there is a connection. -/
  traffic : Option Traffic := none

namespace Cable

/-- The descriptors of the connection. -/
def line : Line where
  client := 3
  server := 4
  poller := 5

/-- The end that a descriptor stands for. -/
def side? (d : Descriptor) : Option Side :=
  if d = line.client then some .client else if d = line.server then some .server else none

/-- How many of so many bytes the next call may move. -/
def allows (c : Cable) (n : Nat) : Except Errno Nat × Cable :=
  match c.fates with
  | [] => (.ok n, c)
  | .interrupted :: fates => (.error .interrupted, { c with fates })
  | .wouldBlock :: fates => (.error .wouldBlock, { c with fates })
  | .moves more :: fates => (.ok (min n (more + 1)), { c with fates })

/-- A read at an end. -/
def readAt (c : Cable) (s : Side) (t : Traffic) (n : Nat) : Except Errno Bytes × Cable :=
  if n = 0 then (.ok [], c)
  else
    match c.allows n with
    | (.error e, c) => (.error e, c)
    | (.ok n, c) =>
      let f := t.toward s
      if f.content = [] then (if f.closed then .ok [] else .error .wouldBlock, c)
      else (.ok (f.content.take n),
        { c with traffic := some (t.put { f with content := f.content.drop n } s) })

/-- A send at an end. -/
def sendAt (c : Cable) (s : Side) (t : Traffic) (text : Bytes) : Except Errno Nat × Cable :=
  match c.allows text.length with
  | (.error e, c) => (.error e, c)
  | (.ok n, c) =>
    let f := t.toward s.other
    (.ok n, { c with
      traffic := some (t.put { f with content := f.content ++ text.take n } s.other) })

/-- A call on an end, if there is one. -/
def onSide {A : Type} (c : Cable) (d : Descriptor)
    (f : Side → Traffic → Except Errno A × Cable) : Except Errno A × Cable :=
  match side? d, c.traffic with
  | some s, some t => f s t
  | _, _ => (.error .badDescriptor, c)

/-- A call that changes the traffic, if there is any. -/
def onTraffic (c : Cable) (f : Traffic → Traffic) : Except Errno Unit × Cable :=
  match c.traffic with
  | some t => (.ok (), { c with traffic := some (f t) })
  | none => (.error .badDescriptor, c)

/-- Closes an end; only that the server does matters. -/
def closeAt (c : Cable) (d : Descriptor) : Except Errno Unit × Cable :=
  if d = line.server then
    c.onTraffic fun t ↦ { t with toClient := { t.toClient with closed := true } }
  else (.ok (), c)

/-- How many more times a call may have to be repeated: no more often than something befalls it, or
there is something on its way. -/
def patience (c : Cable) : Nat :=
  c.fates.length +
    match c.traffic with
    | some t => t.toClient.content.length + t.toServer.content.length
    | none => 0

section

variable {c c' : Cable} {s : Side} {t t' : Traffic} {n m : Nat} {e : Errno} {bs text : Bytes}
  {r : Except Errno Bytes} {r' : Except Errno Nat} {d : Descriptor}

/-- A call may move something. -/
theorem of_allows_ok (h : c.allows n = (.ok m, c')) :
    c'.traffic = c.traffic ∧ c'.fates.length ≤ c.fates.length ∧ (0 < n → 0 < m) := by
  rw [allows] at h
  split at h <;> cases h
  · exact ⟨rfl, Nat.le_refl _, id⟩
  · next more fates hf =>
    refine ⟨rfl, ?_, fun hn ↦ by omega⟩
    rw [hf]
    exact Nat.le_succ _

/-- Or it is idle. -/
theorem of_allows_error (h : c.allows n = (.error e, c')) :
    c'.traffic = c.traffic ∧ c'.fates.length < c.fates.length ∧ Traffic.Idle e := by
  rw [allows] at h
  split at h <;> cases h
  · next fates hf => exact ⟨rfl, by rw [hf]; exact Nat.lt_succ_self _, .inl rfl⟩
  · next fates hf => exact ⟨rfl, by rw [hf]; exact Nat.lt_succ_self _, .inr rfl⟩

/-- **A read at an end** comes to what a read can come to. -/
theorem reads_readAt (ht : c.traffic = some t) (hn : 0 < n) (h : c.readAt s t n = (r, c')) :
    ∃ t', t.Reads s r t' ∧ c'.traffic = some t' ∧ c'.fates.length ≤ c.fates.length ∧
      (r = .error .interrupted → c'.fates.length < c.fates.length) := by
  rw [readAt, if_neg (Nat.ne_of_gt hn)] at h
  rcases ha : c.allows n with ⟨e | m, k⟩
  · rw [ha] at h
    cases h
    obtain ⟨hk, hfates, he⟩ := of_allows_error ha
    exact ⟨t, .idle he, hk.trans ht, Nat.le_of_lt hfates, fun _ ↦ hfates⟩
  · rw [ha] at h
    dsimp only at h
    obtain ⟨hk, hfates, hm⟩ := of_allows_ok ha
    cases hcontent : (t.toward s).content with
    | nil =>
      rw [hcontent, if_pos rfl] at h
      cases hclosed : (t.toward s).closed with
      | true =>
        rw [hclosed, if_pos rfl] at h
        cases h
        exact ⟨t, .ended hcontent hclosed, hk.trans ht, hfates, nofun⟩
      | false =>
        rw [hclosed, if_neg Bool.false_ne_true] at h
        cases h
        exact ⟨t, .idle (.inr rfl), hk.trans ht, hfates, nofun⟩
    | cons b rest =>
      obtain ⟨m, rfl⟩ := Nat.exists_eq_succ_of_ne_zero (Nat.ne_of_gt (hm hn))
      rw [hcontent, if_neg (List.cons_ne_nil _ _)] at h
      cases h
      refine ⟨_, .piece ?_, rfl, hfates, nofun⟩
      rw [hcontent, List.cons_append, List.drop_succ_cons, List.take_append_drop]

/-- **So does a send at an end.** -/
theorem sends_sendAt (ht : c.traffic = some t) (h : c.sendAt s t text = (r', c')) :
    ∃ t', t.Sends s text r' t' ∧ c'.traffic = some t' ∧
      (r' = .error .interrupted → c'.fates.length < c.fates.length) := by
  rw [sendAt] at h
  rcases ha : c.allows text.length with ⟨e | m, k⟩
  · rw [ha] at h
    cases h
    obtain ⟨hk, hfates, he⟩ := of_allows_error ha
    exact ⟨t, .idle he, hk.trans ht, fun _ ↦ hfates⟩
  · rw [ha] at h
    cases h
    exact ⟨_, .taken m, rfl, nofun⟩

/-- A send takes at least one byte, if there is one. -/
theorem pos_of_sendAt (htext : text ≠ []) (h : c.sendAt s t text = (.ok n, c')) : 0 < n := by
  rw [sendAt] at h
  rcases ha : c.allows text.length with ⟨e | m, k⟩
  · rw [ha] at h
    cases h
  · rw [ha] at h
    cases h
    exact (of_allows_ok ha).2.2 (List.length_pos_iff.2 htext)

/-- A call on an end finds the end and the traffic, or the descriptor stands for nothing. -/
theorem of_onSide {A : Type} {f : Side → Traffic → Except Errno A × Cable} {r : Except Errno A}
    (h : c.onSide d f = (r, c')) :
    (∃ s t, c.traffic = some t ∧ f s t = (r, c')) ∨ r = .error .badDescriptor := by
  rw [onSide] at h
  split at h
  · next s t _ ht => exact .inl ⟨s, t, ht, h⟩
  · exact .inr (Prod.mk.inj h).1.symm

/-- A read that is repeated uses up patience. -/
theorem patience_readAt (h : c.onSide d (c.readAt · · n) = (r, c'))
    (hr : r = .error .interrupted ∨ ∃ b bs, r = .ok (b :: bs)) : c'.patience < c.patience := by
  rcases of_onSide h with ⟨s, t, ht, h⟩ | hbad
  case inr => rcases hr with rfl | ⟨b, bs, rfl⟩ <;> cases hbad
  have hn : 0 < n := by
    refine Nat.pos_of_ne_zero fun hn ↦ ?_
    rw [readAt, if_pos hn] at h
    rcases hr with rfl | ⟨b, bs, rfl⟩ <;> cases h
  obtain ⟨t', hreads, ht', hle, hlt⟩ := reads_readAt ht hn h
  rw [patience, patience, ht, ht']
  cases hreads with
  | ended => rcases hr with hr | ⟨b, bs, hr⟩ <;> cases hr
  | @piece b bs rest hcontent =>
    have hlength := congrArg List.length hcontent
    rw [List.length_append, List.length_cons] at hlength
    cases s with
    | client =>
      have hlength : t.toClient.content.length = _ := hlength
      dsimp only [Traffic.put]
      omega
    | server =>
      have hlength : t.toServer.content.length = _ := hlength
      dsimp only [Traffic.put]
      omega
  | idle _ =>
    rcases hr with hr | ⟨b, bs, hr⟩
    · exact Nat.add_lt_add_right (hlt hr) _
    · cases hr

/-- A send that is interrupted does, too. -/
theorem patience_sendAt (h : c.onSide d (c.sendAt · · text) = (.error .interrupted, c')) :
    c'.patience < c.patience := by
  rcases of_onSide h with ⟨s, t, ht, h⟩ | hbad
  · obtain ⟨t', hsends, ht', hlt⟩ := sends_sendAt ht h
    rw [patience, patience, ht, ht']
    cases hsends with
    | idle _ => exact Nat.add_lt_add_right (hlt rfl) _
  · cases hbad

end

instance : Kernel Cable where
  createPoller c := (.ok line.poller, c)
  createNotifier c := (.error .tooManyFiles, c)
  add c _ _ _ := c.onTraffic fun t ↦ { t with watched := true }
  remove c _ _ := c.onTraffic fun t ↦ { t with watched := false }
  wait c _ _ _ := (.ok [], c)
  isNonblocking c _ := (.ok false, c)
  setNonblocking c _ := (.ok (), c)
  read c d n := c.onSide d (c.readAt · · n)
  write c _ _ := (.error .badDescriptor, c)
  close := closeAt
  resolve c host port := (.ok [⟨host, port⟩], c)
  socket c _ := (.ok line.client, c)
  connect c _ _ := (.ok (), { c with traffic := some {} })
  send c d text := c.onSide d (c.sendAt · · text)
  patience := patience
  read_data h := patience_readAt h (.inr ⟨_, _, rfl⟩)
  read_interrupted h := patience_readAt h (.inl rfl)
  connect_interrupted h := by cases h
  send_interrupted h := patience_sendAt h
  send_pos htext h := by
    rcases of_onSide h with ⟨s, t, -, h⟩ | hbad
    · exact pos_of_sendAt htext h
    · cases hbad

section

variable {c c' : Cable} {l : Line} {t : Traffic} {s : Side}

/-- What is on its way on a line. -/
def trafficOn (c : Cable) (l : Line) : Option Traffic := if l = line then c.traffic else none

theorem trafficOn_eq_some_iff : c.trafficOn l = some t ↔ l = line ∧ c.traffic = some t := by
  rw [trafficOn]
  split
  · next hl => exact ⟨fun h ↦ ⟨hl, h⟩, And.right⟩
  · next hl => exact iff_of_false nofun fun h ↦ hl h.1

theorem onSide_eq {A : Type} {f : Side → Traffic → Except Errno A × Cable}
    (ht : c.traffic = some t) : c.onSide (line.at s) f = f s t := by
  rw [onSide, show side? (line.at s) = some s by cases s <;> rfl, ht]

theorem onTraffic_eq {f : Traffic → Traffic} (ht : c.traffic = some t) :
    c.onTraffic f = (.ok (), { c with traffic := some (f t) }) := by
  rw [onTraffic, ht]

end

/-- **What holds of connections holds of a cable.** -/
def rule : LineRule Cable where
  traffic := trafficOn
  read s _ _ h hn hr := by
    obtain ⟨rfl, ht⟩ := trafficOn_eq_some_iff.1 h
    obtain ⟨t', hreads, ht', -⟩ := reads_readAt ht hn ((onSide_eq ht).symm.trans hr)
    exact ⟨t', hreads, trafficOn_eq_some_iff.2 ⟨rfl, ht'⟩⟩
  send s _ _ h _ _ hr := by
    obtain ⟨rfl, ht⟩ := trafficOn_eq_some_iff.1 h
    obtain ⟨t', hsends, ht', -⟩ := sends_sendAt ht ((onSide_eq ht).symm.trans hr)
    exact ⟨t', hsends, trafficOn_eq_some_iff.2 ⟨rfl, ht'⟩⟩
  close h _ := by
    obtain ⟨rfl, ht⟩ := trafficOn_eq_some_iff.1 h
    refine trafficOn_eq_some_iff.2 ⟨rfl, ?_⟩
    show (closeAt _ line.server).2.traffic = _
    rw [closeAt, if_pos rfl, onTraffic_eq ht]
  isNonblocking h := ⟨false, _, rfl, h⟩
  setNonblocking h := ⟨_, rfl, h⟩
  add _ h _ := by
    obtain ⟨rfl, ht⟩ := trafficOn_eq_some_iff.1 h
    exact ⟨_, onTraffic_eq ht, trafficOn_eq_some_iff.2 ⟨rfl, rfl⟩⟩
  remove h _ := by
    obtain ⟨rfl, ht⟩ := trafficOn_eq_some_iff.1 h
    exact ⟨_, onTraffic_eq ht, trafficOn_eq_some_iff.2 ⟨rfl, rfl⟩⟩
  delivers {c l t} s n h hn hc := by
    obtain ⟨rfl, ht⟩ := trafficOn_eq_some_iff.1 h
    -- Nothing is in the way any more.
    refine ⟨{ c with fates := [] }, trafficOn_eq_some_iff.2 ⟨rfl, ht⟩, ?_⟩
    show ∃ bs c', onSide { c with fates := [] } (line.at s) _ = _
    rw [onSide_eq (c := { c with fates := [] }) ht, readAt, if_neg (Nat.ne_of_gt hn), allows]
    dsimp only
    by_cases hcontent : (t.toward s).content = []
    · rw [if_pos hcontent, hc.resolve_left (absurd hcontent)]
      exact ⟨_, _, rfl⟩
    · rw [if_neg hcontent]
      exact ⟨_, _, rfl⟩
  takes {c l t} s text h _ _ _ := by
    obtain ⟨rfl, ht⟩ := trafficOn_eq_some_iff.1 h
    refine ⟨{ c with fates := [] }, trafficOn_eq_some_iff.2 ⟨rfl, ht⟩, ?_⟩
    show ∃ n c', onSide { c with fates := [] } (line.at s) _ = _
    rw [onSide_eq (c := { c with fates := [] }) ht, sendAt, allows]
    exact ⟨_, _, rfl⟩

/-- A cable connects. -/
theorem openConnection_eq (host : Bytes) (port : Int) (s : System Cable) :
    (Get.openConnection host port s).1 = .ok ⟨line.client⟩ ∧
      (Get.openConnection host port s).2.kernel.traffic = some {} := by
  have hconnect (a : Address) (c : Cable) :
      Get.connect line.client a c = (.ok (), { c with traffic := some {} }) := by
    rw [Get.connect]
    rfl
  rw [Get.openConnection]
  dsimp only [System.call, Kernel.resolve, Get.connectAny, Kernel.socket]
  rw [hconnect]
  exact ⟨rfl, rfl⟩

end Cable

end TaskRuntime
