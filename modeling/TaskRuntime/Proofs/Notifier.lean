import TaskRuntime.Proofs.HostEdges

/-!
# Notifiers

A notifier is readable from a write to it until it is read. The loop of the reactor has it
registered with its poller for readability, and not for changes of it: the poller reports it as long
as it is readable, however often it has been reported. `NotifierRule` says what this means for a
kernel, and `Host.notifierRule` that a host keeps to it.
-/

namespace TaskRuntime

/-- **The rule of notifiers.** -/
structure NotifierRule (K : Type) [Kernel K] where
  /-- A poller watches a notifier. -/
  watched : K → Descriptor → Descriptor → Prop
  /-- A notifier has been written to, and has not been read since. -/
  readable : K → Descriptor → Prop
  /-- A write makes the notifier readable. -/
  write : ∀ {k k' : K} {p d : Descriptor} {bytes : Bytes} {n : Nat}, watched k p d →
    Kernel.write k d bytes = (.ok n, k') → watched k' p d ∧ readable k' d
  /-- A write that fails does not make it unreadable. -/
  write_error : ∀ {k k' : K} {p d : Descriptor} {bytes : Bytes} {x : Errno}, watched k p d →
    Kernel.write k d bytes = (.error x, k') → watched k' p d ∧ (readable k d → readable k' d)
  /-- Neither does a wait. -/
  wait : ∀ {k : K} {p d : Descriptor} (n : Nat) (timeout : Option Int), watched k p d →
    watched (Kernel.wait k p n timeout).2 p d ∧
      (readable k d → readable (Kernel.wait k p n timeout).2 d)
  /-- A wait that finds a readable notifier does not go on waiting. -/
  delivers : ∀ {k : K} {p d : Descriptor} {n : Nat} (timeout : Option Int), watched k p d →
    readable k d → 0 < n → (Kernel.wait k p n timeout).1 ≠ .ok []
  /-- A notifier that is read is still watched. -/
  read : ∀ {k : K} {p d : Descriptor} (n : Nat), watched k p d →
    watched (Kernel.read k d n).2 p d

namespace NotifierRule

variable {K : Type} [Kernel K] (rule : NotifierRule K) {k : K} {p d : Descriptor}

/-- An event of the notifier waits to be delivered. -/
def Pending (k : K) (p d : Descriptor) : Prop := rule.watched k p d ∧ rule.readable k d

/-- A notifier that has been emptied is still watched. -/
theorem watched_drainNotifier (hw : rule.watched k p d) :
    rule.watched (Reactor.drainNotifier d k) p d := by
  fun_induction Reactor.drainNotifier d k with
  | case1 k b bs k' h ih =>
    have hread := rule.read 8 hw
    rw [h] at hread
    exact ih hread
  | case2 k x k' hne h =>
    have hread := rule.read 8 hw
    rwa [h] at hread

end NotifierRule

/-! ### Notifiers of a host -/

namespace Host

/-- What a poller is to report on a source that has been registered for readability. -/
def askedWhile : Interests := Interests.readable ||| Interests.broken ||| Interests.hangUp

/-- The interest in a notifier. -/
def noticeOf (d : Descriptor) : Interest := ⟨d, askedWhile, Reactor.notifyToken⟩

/-- A notifier has something to read. -/
def Rung (h : Host) (d : Descriptor) : Prop :=
  ∃ i, h.source? d = some (.notifier i) ∧ (h.stream i).content ≠ []

/-- **A poller of a host watches a notifier**: it is registered, and queued if it is readable. -/
structure Watches (h : Host) (poller d : Descriptor) (n i : Nat) (p : Poller) : Prop where
  /-- The poller is there. -/
  behind : h.Behind poller n p
  /-- So is the notifier. -/
  source : h.source? d = some (.notifier i)
  /-- The notifier has a stream. -/
  stream : i < h.streams.length
  /-- The notifier is registered. -/
  interest : p.interest? d = some (noticeOf d)
  /-- If it is readable, it is queued. -/
  queued : (h.stream i).content ≠ [] → d ∈ p.queue

section

variable {h : Host} {poller d : Descriptor} {n i : Nat} {p : Poller}

theorem stream_setStream_self (hi : i < h.streams.length) (s : Stream) :
    (h.setStream i s).stream i = s := by
  rw [stream, setStream, List.getD_eq_getElem?_getD, List.getElem?_set_self hi]
  rfl

theorem Watches.rung (hw : h.Watches poller d n i p) (hr : h.Rung d) :
    (h.stream i).content ≠ [] := by
  obtain ⟨j, hj, hcontent⟩ := hr
  obtain rfl := Source.notifier.inj (Option.some.inj (hw.source.symm.trans hj))
  exact hcontent

/-- A readable notifier has something to report. -/
theorem Watches.report_ne_zero (hw : h.Watches poller d n i p) (hr : h.Rung d) :
    h.report (noticeOf d) ≠ 0 := by
  rw [report, noticeOf, hw.source]
  show h.conditions (.notifier i) &&& askedWhile ≠ 0
  rw [conditions, if_neg (by simpa using hw.rung hr)]
  decide

/-- A write puts one more notification into the notifier, and tells the poller. -/
theorem Watches.write (hw : h.Watches poller d n i p) (bytes : Bytes) :
    ∃ h', h.write d bytes = (.ok bytes.length, h') ∧ (∃ q, h'.Watches poller d n i q) ∧
      h'.Rung d := by
  let rung : Host := h.setStream i { h.stream i with content := 1 :: (h.stream i).content }
  have hself : rung.stream i = _ := stream_setStream_self hw.stream _
  have hwrite : h.write d bytes =
      (.ok bytes.length, rung.notify (.notifier i) Interests.readable) := by
    rw [Host.write, hw.source]
  refine ⟨_, hwrite, ⟨(rung.descriptorsOf (.notifier i)).foldl
    (fun p d ↦ p.notify d Interests.readable) p, ?_⟩, i, hw.source, ?_⟩
  · refine ⟨⟨hw.behind.1, ?_⟩, hw.source, ?_, ?_, fun _ ↦ ?_⟩
    · show (rung.pollers.map _)[n]? = _
      rw [List.getElem?_map, show rung.pollers[n]? = some p from hw.behind.2]
      rfl
    · show i < (h.streams.set i _).length
      rw [List.length_set]
      exact hw.stream
    · rw [interest?_foldl_notify]
      exact hw.interest
    · exact mem_of_foldl_notify (mem_descriptorsOf hw.source) hw.interest
        (show askedWhile &&& ~~~modeBits ≠ 0 by decide)
        (.inr (show Interests.meets Interests.readable askedWhile = true by decide))
  · show (rung.stream i).content ≠ []
    rw [hself]
    exact List.cons_ne_nil _ _

/-- A readable notifier that is in the queue is delivered, or others are. -/
theorem collect_ne_nil {j : Interest} (hi : p.interest? d = some j) (hreport : h.report j ≠ 0)
    {count : Nat} (hc : 0 < count) {queue : List Descriptor} (hd : d ∈ queue) :
    (h.collect p count queue).1 ≠ [] := by
  fun_induction collect h p count queue with
  | case1 => cases hd
  | case2 queue => exact absurd hc (Nat.lt_irrefl 0)
  | case3 count x rest hnone ih =>
    rcases List.mem_cons.1 hd with rfl | hd
    · cases hnone.symm.trans hi
    · exact ih hc hd
  | case4 count x rest k hk events hzero ih =>
    rcases List.mem_cons.1 hd with rfl | hd
    · obtain rfl := Option.some.inj (hk.symm.trans hi)
      exact absurd hzero hreport
    · exact ih hc hd
  | case5 => exact List.cons_ne_nil _ _

/-- A wait leaves the notifier as it is, and in the queue. -/
theorem Watches.wait (hw : h.Watches poller d n i p) (count : Nat) (timeout : Option Int) :
    (∃ q, (h.wait poller count timeout).2.Watches poller d n i q) ∧
      (h.Rung d → (h.wait poller count timeout).2.Rung d ∧
        (0 < count → (h.wait poller count timeout).1 ≠ .ok [])) := by
  have hnil (hr : h.Rung d) (hc : 0 < count) : (h.collect p count p.queue).1 ≠ [] :=
    collect_ne_nil hw.interest (hw.report_ne_zero hr) hc (hw.queued (hw.rung hr))
  have hstays (hr : h.Rung d) : d ∈ (h.collect p count p.queue).2.1 ++
      (((h.collect p count p.queue).2.2.filter fun i ↦
        !Interests.meets i.event.events Interests.edge).map (·.descriptor)) := by
    have hqueued := hw.queued (hw.rung hr)
    rcases mem_collect hw.interest (hw.report_ne_zero hr) count p.queue hqueued with
      hleft | ⟨hagain, -⟩
    · exact List.mem_append_left _ hleft
    · -- The poller goes on reporting what is not registered for changes alone.
      have hmode : (!Interests.meets askedWhile Interests.edge) = true := by decide
      exact List.mem_append_right _
        (List.mem_map.2 ⟨noticeOf d, List.mem_filter.2 ⟨hagain, hmode⟩, rfl⟩)
  unfold Host.wait
  rw [hw.behind.1, hw.behind.poller?]
  dsimp only
  generalize h.collect p count p.queue = collected at hnil hstays ⊢
  obtain ⟨events, left, reported⟩ := collected
  dsimp only at hnil hstays ⊢
  have hafter : (h.setPoller n { p with queue := left ++
      ((reported.filter fun i ↦ !Interests.meets i.event.events Interests.edge).map
        (·.descriptor)) }).Watches poller d n i _ :=
    ⟨hw.behind.setPoller _, hw.source, hw.stream, hw.interest,
      fun hcontent ↦ hstays ⟨i, hw.source, hcontent⟩⟩
  split
  · next hnone =>
    exact ⟨⟨_, hafter⟩, fun hr ↦ ⟨hr, fun _ ↦ by simp⟩⟩
  · exact ⟨⟨_, hafter⟩, fun hr ↦ ⟨hr, fun hc he ↦ hnil hr hc (Except.ok.inj he)⟩⟩

/-- A notifier that is read is empty. -/
theorem Watches.read (hw : h.Watches poller d n i p) (count : Nat) :
    (h.read d count).2.Watches poller d n i p := by
  unfold Host.read
  rw [hw.source]
  dsimp only
  split
  · exact hw
  · refine ⟨hw.behind, hw.source, ?_, hw.interest, fun hcontent ↦ ?_⟩
    · rw [setStream, List.length_set]
      exact hw.stream
    · rw [stream_setStream_self hw.stream] at hcontent
      exact absurd rfl hcontent

end

/-- **A host keeps to the rule of notifiers.** -/
def notifierRule : NotifierRule Host where
  watched h poller d := ∃ n i p, h.Watches poller d n i p
  readable := Rung
  write := by
    rintro h h' poller d bytes count ⟨n, i, p, hw⟩ hk
    obtain ⟨h'', hwrite, ⟨q, hq⟩, hr⟩ := hw.write bytes
    obtain ⟨-, rfl⟩ := Prod.mk.inj (hwrite.symm.trans hk)
    exact ⟨⟨n, i, q, hq⟩, hr⟩
  write_error := by
    rintro h h' poller d bytes x ⟨n, i, p, hw⟩ hk
    obtain ⟨h'', hwrite, -, -⟩ := hw.write bytes
    cases (Prod.mk.inj (hwrite.symm.trans hk)).1
  wait := by
    rintro h poller d count timeout ⟨n, i, p, hw⟩
    obtain ⟨⟨q, hq⟩, hr⟩ := hw.wait count timeout
    exact ⟨⟨n, i, q, hq⟩, fun h ↦ (hr h).1⟩
  delivers := by
    rintro h poller d count timeout ⟨n, i, p, hw⟩ hr hc
    exact ((hw.wait count timeout).2 hr).2 hc
  read := by
    rintro h poller d count ⟨n, i, p, hw⟩
    exact ⟨n, i, p, hw.read count⟩

end Host

end TaskRuntime
