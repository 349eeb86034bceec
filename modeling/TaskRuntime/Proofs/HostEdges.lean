import TaskRuntime.Kernel.Host
import TaskRuntime.Proofs.EdgeRule

/-!
# The host obeys the edge rule

The pollers of a host report on the ends of pipes as the edge rule has it (`Host.edgeRule`): an
event is pending as long as the descriptor is in the queue of the poller, registering a descriptor
that is readable puts it there, and so does every write and the end of the other side. A wait that
takes a readable descriptor out of the queue reports it.

What is asked of the host is that no two descriptors share a pipe but for its two ends
(`Host.Sound`). Then nothing but writing to a pipe or closing its other end makes it readable.
-/

namespace TaskRuntime

/-- The value of a key stands among the entries. -/
theorem Table.mem_entries_of_get? {K V : Type} [DecidableEq K] {t : Table K V} {k : K} {v : V}
    (hg : t.get? k = some v) : (k, v) ∈ t.entries := by
  obtain ⟨l, hl⟩ := t
  have hfind : find k l = some v := hg
  show (k, v) ∈ l
  clear hg hl
  induction l with
  | nil => cases hfind
  | cons e rest ih =>
    rw [find] at hfind
    split at hfind
    · next he =>
      obtain rfl := Option.some.inj hfind
      exact he ▸ List.mem_cons_self
    · exact List.mem_cons_of_mem _ (ih hfind)

namespace Host

/-- A source reads from a stream or writes to it. -/
def Source.On (i : Nat) : Source → Prop
  | readEnd j => j = i
  | writeEnd j => j = i
  | notifier j => j = i
  | file j => j = i
  | connection j k => j = i ∨ k = i
  | _ => False

/-- **A sound host**: its pollers are there, and nobody shares a pipe. -/
structure Sound (h : Host) : Prop where
  /-- There is a poller behind each descriptor of one. -/
  pollers : ∀ d n, h.source? d = some (.poller n) → n < h.pollers.length
  /-- A pipe that has a descriptor to read from can be read. -/
  reader : ∀ d i, h.source? d = some (.readEnd i) → (h.stream i).reader = true
  /-- Beside that descriptor, a pipe has only its other end. -/
  apart : ∀ d i, h.source? d = some (.readEnd i) → ∀ d' s, d' ≠ d → h.source? d' = some s →
    s.On i → s = .writeEnd i

/-- What a poller is to report on a source that has been registered for changes of readability. -/
def asked : Interests :=
  Interests.readable ||| Interests.edge ||| Interests.broken ||| Interests.hangUp

/-- The interest in a source that has been registered for changes of readability. -/
def interestOf (r : Registration) : Interest := ⟨r.source, asked, r.token⟩

/-- The interest in a descriptor. -/
def Poller.interest? (p : Poller) (d : Descriptor) : Option Interest :=
  p.interests.find? (·.descriptor = d)

/-- The poller behind a descriptor. -/
def Behind (h : Host) (d : Descriptor) (n : Nat) (p : Poller) : Prop :=
  h.source? d = some (.poller n) ∧ h.pollers[n]? = some p

/-- There are bytes to read from a stream, or its end can be read. -/
def Stream.Readable (s : Stream) : Prop := s.content ≠ [] ∨ s.writer = false

/-- **What a host has to tell** about the ends of pipes that are registered for changes. -/
def edges : Edges Host where
  sound := Sound
  readable h d := ∃ i, h.source? d = some (.readEnd i) ∧ (h.stream i).Readable
  watched h r := ∃ n p, h.Behind r.poller n p ∧ p.interest? r.source = some (interestOf r)
  pending h r := ∃ n p, h.Behind r.poller n p ∧ r.source ∈ p.queue

section

variable {h h' : Host} {r : Registration} {p : Poller} {d x : Descriptor} {c : Interests}
  {n i : Nat}

/-! ### Streams and pollers -/

theorem Behind.poller? (hb : h.Behind d n p) : h.poller? d = some (n, p) := by
  simp [Host.poller?, hb.1, List.getD_eq_getElem?_getD, hb.2]

theorem behind_of_poller? (hs : h.Sound) (hp : h.poller? d = some (n, p)) : h.Behind d n p := by
  unfold Host.poller? at hp
  split at hp
  · next m hsource =>
    obtain ⟨rfl, rfl⟩ := Prod.mk.inj (Option.some.inj hp)
    have hlt := hs.pollers d m hsource
    refine ⟨hsource, ?_⟩
    rw [List.getD_eq_getElem?_getD, List.getElem?_eq_getElem hlt]
    rfl
  · cases hp

/-- Another stream stays as it is, and the stream itself is replaced, if there is one. -/
theorem stream_setStream (h : Host) (i j : Nat) (s : Stream) :
    i = j ∧ (h.setStream i s).stream j = s ∨ (h.setStream i s).stream j = h.stream j := by
  simp only [stream, setStream, List.getD_eq_getElem?_getD]
  by_cases hij : i = j
  · obtain rfl := hij
    by_cases hi : i < h.streams.length
    · exact .inl ⟨rfl, by rw [List.getElem?_set_self hi]; rfl⟩
    · refine .inr ?_
      rw [List.set_eq_of_length_le (by omega)]
  · exact .inr (by rw [List.getElem?_set_ne hij])

theorem stream_setStream_of_ne (h : Host) {i j : Nat} (s : Stream) (hij : i ≠ j) :
    (h.setStream i s).stream j = h.stream j :=
  (stream_setStream h i j s).resolve_left fun hs ↦ hij hs.1

/-- A poller is replaced. -/
theorem Behind.setPoller (hb : h.Behind d n p) (q : Poller) : (h.setPoller n q).Behind d n q := by
  refine ⟨hb.1, ?_⟩
  obtain ⟨hlt, -⟩ := List.getElem?_eq_some_iff.1 hb.2
  exact List.getElem?_set_self hlt

/-- A readable source has something to report. -/
theorem report_ne_zero (hr : edges.readable h r.source) : h.report (interestOf r) ≠ 0 := by
  obtain ⟨j, hj, hreadable⟩ := hr
  rw [report, interestOf, hj]
  show h.conditions (.readEnd j) &&& asked ≠ 0
  rw [conditions]
  rcases hc : (h.stream j).content with _ | ⟨b, bs⟩
  · rcases hreadable with hcontent | hwriter
    · exact absurd hc hcontent
    · rw [hwriter]
      decide
  · simp only [List.isEmpty_cons, Bool.false_eq_true, if_false]
    cases (h.stream j).writer <;> decide

/-! ### What others do to pollers -/

/-- What happens to every poller is of no concern to a registration if it leaves its interest, loses
no entry of its source, and queues the source if that becomes readable. -/
theorem spares_of_map {g : Poller → Poller} (hw : edges.watched h r)
    (hs : h'.source? r.poller = h.source? r.poller) (hp : h'.pollers = h.pollers.map g)
    (hi : ∀ p, (g p).interest? r.source = p.interest? r.source)
    (hq : ∀ p, r.source ∈ p.queue → r.source ∈ (g p).queue)
    (hr : edges.readable h' r.source → edges.readable h r.source ∨
      ∀ p, p.interest? r.source = some (interestOf r) → r.source ∈ (g p).queue) :
    edges.Spares r h h' := by
  have hbehind {n p} (hb : h.Behind r.poller n p) : h'.Behind r.poller n (g p) := by
    refine ⟨hs.trans hb.1, ?_⟩
    rw [hp, List.getElem?_map, hb.2]
    rfl
  obtain ⟨n, p, hb, hinterest⟩ := hw
  refine ⟨⟨n, g p, hbehind hb, (hi p).trans hinterest⟩, fun hread ↦ ?_, fun _ hpend ↦ ?_⟩
  · exact (hr hread).imp_right fun hqueued ↦ ⟨n, g p, hbehind hb, hqueued p hinterest⟩
  · obtain ⟨m, q, hb', hmem⟩ := hpend
    exact ⟨m, g q, hbehind hb', hq q hmem⟩

theorem interests_enqueue (p : Poller) (d : Descriptor) :
    (p.enqueue d).interests = p.interests := by
  unfold Poller.enqueue
  split <;> rfl

@[simp] theorem interest?_notify (p : Poller) (d x : Descriptor) (c : Interests) :
    (p.notify d c).interest? x = p.interest? x := by
  unfold Poller.notify
  split
  · rfl
  · split
    · rfl
    · split
      · rw [Poller.interest?, interests_enqueue, Poller.interest?]
      · rfl

theorem mem_enqueue : x ∈ (p.enqueue d).queue ↔ x = d ∨ x ∈ p.queue := by
  unfold Poller.enqueue
  split
  · next hd =>
    have hmem : d ∈ p.queue := by simpa using hd
    exact ⟨.inr, fun hx ↦ hx.elim (fun e ↦ e ▸ hmem) id⟩
  · simp [or_comm]

theorem mem_notify (hx : x ∈ p.queue) : x ∈ (p.notify d c).queue := by
  unfold Poller.notify
  split
  · exact hx
  · split
    · exact hx
    · split
      · exact mem_enqueue.2 (.inr hx)
      · exact hx

/-- An interest is queued if it asks for what has changed. -/
theorem mem_of_notify {j : Interest} (hi : p.interest? d = some j)
    (hm : j.event.events &&& ~~~modeBits ≠ 0) (hc : c = 0 ∨ Interests.meets c j.event.events) :
    d ∈ (p.notify d c).queue := by
  unfold Poller.notify
  rw [show p.interests.find? (·.descriptor = d) = some j from hi]
  dsimp only
  rw [if_neg hm, if_pos hc]
  exact mem_enqueue.2 (.inl rfl)

section

variable {ds : List Descriptor}

@[simp] theorem interest?_foldl_notify (p : Poller) (ds : List Descriptor) (x : Descriptor)
    (c : Interests) :
    (ds.foldl (fun p d ↦ p.notify d c) p).interest? x = p.interest? x := by
  induction ds generalizing p with
  | nil => rfl
  | cons d ds ih => rw [List.foldl_cons, ih, interest?_notify]

theorem mem_foldl_notify {p : Poller} (hx : x ∈ p.queue) :
    x ∈ (ds.foldl (fun p d ↦ p.notify d c) p).queue := by
  induction ds generalizing p with
  | nil => exact hx
  | cons d ds ih => exact ih (mem_notify hx)

theorem mem_of_foldl_notify {j : Interest} (hd : d ∈ ds) (hi : p.interest? d = some j)
    (hm : j.event.events &&& ~~~modeBits ≠ 0) (hc : c = 0 ∨ Interests.meets c j.event.events) :
    d ∈ (ds.foldl (fun p d ↦ p.notify d c) p).queue := by
  induction ds generalizing p with
  | nil => cases hd
  | cons e ds ih =>
    rcases List.mem_cons.1 hd with rfl | hd
    · exact mem_foldl_notify (p := p.notify d c) (mem_of_notify hi hm hc)
    · exact ih hd (by rw [interest?_notify]; exact hi)

end

/-- A descriptor is among those on its source. -/
theorem mem_descriptorsOf {s : Source} (hd : h.source? d = some s) : d ∈ h.descriptorsOf s := by
  obtain ⟨f, hf, rfl⟩ := Option.map_eq_some_iff.1 hd
  exact List.mem_map.2 ⟨(d, f), List.mem_filter.2 ⟨Table.mem_entries_of_get? hf, by simp⟩, rfl⟩

/-- **Telling the pollers of a change** is of no concern to a registration, if what has become
readable is what has changed. -/
theorem spares_notify {s : Source} (hw : edges.watched h r)
    (hs : h'.source? r.poller = h.source? r.poller) (hp : h'.pollers = h.pollers)
    (hc : c = 0 ∨ Interests.meets c asked)
    (hr : edges.readable h' r.source → edges.readable h r.source ∨ h'.source? r.source = some s) :
    edges.Spares r h (h'.notify s c) := by
  refine spares_of_map (g := (h'.descriptorsOf s).foldl fun p d ↦ p.notify d c) hw hs ?_ ?_ ?_ ?_
  · rw [notify, hp]
  · exact fun p ↦ interest?_foldl_notify p _ _ _
  · exact fun p ↦ mem_foldl_notify
  · intro hread
    exact (hr hread).imp_right fun hsource p hi ↦
      mem_of_foldl_notify (mem_descriptorsOf hsource) hi (show asked &&& ~~~modeBits ≠ 0 by decide)
        hc

/-! ### What system calls do -/

/-- A call that changes streams alone, and makes none readable. -/
theorem spares_of_streams (hw : edges.watched h r) (hs : h'.files = h.files)
    (hp : h'.pollers = h.pollers) (hr : ∀ i, (h'.stream i).Readable → (h.stream i).Readable) :
    edges.Spares r h h' := by
  have hsource (d : Descriptor) : h'.source? d = h.source? d := by rw [source?, hs, source?]
  refine spares_of_map (g := id) hw (hsource _) (by rw [hp, List.map_id]) (fun _ ↦ rfl)
    (fun _ hq ↦ hq) ?_
  rintro ⟨i, hi, hread⟩
  exact .inl ⟨i, (hsource _).symm.trans hi, hr i hread⟩

/-- Taking something out of a stream does not make it readable. -/
theorem readable_of_setStream {s : Stream} (hs : s.Readable → (h.stream i).Readable) (j : Nat)
    (hr : ((h.setStream i s).stream j).Readable) : (h.stream j).Readable := by
  rcases stream_setStream h i j s with ⟨rfl, he⟩ | he
  · rw [he] at hr
    exact hs hr
  · rwa [he] at hr

theorem spares_read (hw : edges.watched h r) (d : Descriptor) (n : Nat) :
    edges.Spares r h (h.read d n).2 := by
  have htake (i : Nat) : edges.Spares r h
      (h.setStream i { h.stream i with content := (h.stream i).content.drop n }) := by
    refine spares_of_streams hw rfl rfl (readable_of_setStream (Or.imp_left fun hc he ↦ hc ?_))
    show List.drop n (h.stream i).content = []
    rw [he, List.drop_nil]
  have hempty (i : Nat) : edges.Spares r h
      (h.setStream i { h.stream i with content := [] }) :=
    spares_of_streams hw rfl rfl (readable_of_setStream (Or.imp_left fun hc ↦ absurd rfl hc))
  have hsame : edges.Spares r h h := .refl hw
  unfold read
  split
  · dsimp only
    split
    · exact hsame
    · exact htake _
  · dsimp only
    split
    · exact hsame
    · exact hempty _
  · dsimp only
    split
    · exact hsame
    · exact htake _
  · exact htake _
  all_goals exact hsame

/-- A read that fails changes nothing. -/
theorem eq_of_read_error {x : Errno} (hr : h.read d n = (.error x, h')) : h' = h := by
  have hif {p : Prop} [Decidable p] {e : Errno} {bytes : Bytes} {k : Host}
      (hk : (if p then (.error e, h) else (.ok bytes, k)) = (Except.error x, h')) : h' = h := by
    split at hk
    · exact (Prod.mk.inj hk).2.symm
    · cases (Prod.mk.inj hk).1
  unfold read at hr
  split at hr
  · exact hif hr
  · exact hif hr
  · exact hif hr
  · cases (Prod.mk.inj hr).1
  · cases (Prod.mk.inj hr).1
  · cases (Prod.mk.inj hr).1
  · exact (Prod.mk.inj hr).2.symm
  · exact (Prod.mk.inj hr).2.symm
  · exact (Prod.mk.inj hr).2.symm

/-- A read that fails has found nothing to read. -/
theorem not_readable_of_read {x : Errno} (hr : h.read d n = (.error x, h')) :
    ¬ edges.readable h' d := by
  obtain rfl := eq_of_read_error hr
  rintro ⟨i, hi, hread⟩
  unfold read at hr
  rw [hi] at hr
  dsimp only at hr
  split at hr
  · next hnone =>
    rcases hread with hcontent | hwriter
    · exact hcontent (List.isEmpty_iff.1 hnone.1)
    · rw [hwriter] at hnone
      exact Bool.false_ne_true hnone.2
  · cases (Prod.mk.inj hr).1

/-- **A change of a stream that is told of** is of no concern to a registration. -/
theorem spares_told {s : Source} {z : Stream} (hw : edges.watched h r)
    (hc : c = 0 ∨ Interests.meets c asked)
    (ht : h.source? r.source = some (.readEnd i) → s = .readEnd i) :
    edges.Spares r h ((h.setStream i z).notify s c) := by
  refine spares_notify hw rfl rfl hc ?_
  rintro ⟨j, hj, hread⟩
  by_cases hij : i = j
  · obtain rfl := hij
    rw [ht hj]
    exact .inr hj
  · rw [stream_setStream_of_ne h z hij] at hread
    exact .inl ⟨j, hj, hread⟩

/-- A change of a stream is of no concern to a registration of something else. -/
theorem spares_setStream {z : Stream} (hw : edges.watched h r)
    (hi : h.source? r.source ≠ some (.readEnd i)) : edges.Spares r h (h.setStream i z) := by
  refine spares_of_map (g := id) hw rfl (List.map_id _).symm (fun _ ↦ rfl) (fun _ hq ↦ hq) ?_
  rintro ⟨j, hj, hread⟩
  have hij : i ≠ j := by
    rintro rfl
    exact hi hj
  rw [stream_setStream_of_ne h z hij] at hread
  exact .inl ⟨j, hj, hread⟩

theorem spares_write (hs : h.Sound) (hw : edges.watched h r) (d : Descriptor) (bytes : Bytes) :
    edges.Spares r h (h.write d bytes).2 := by
  have hsame : edges.Spares r h h := .refl hw
  unfold write
  split
  · dsimp only
    split
    · exact spares_told hw (.inr (by decide)) fun _ ↦ rfl
    · exact hsame
  · next i hd =>
    refine spares_told hw (.inr (by decide)) fun hr ↦ ?_
    have hne : d ≠ r.source := by
      rintro rfl
      rw [hr] at hd
      cases hd
    cases hs.apart _ _ hr d _ hne hd rfl
  · exact hsame
  · exact hsame

/-- Dropping another descriptor is of no concern to a registration. -/
theorem spares_drop (hw : edges.watched h r) (hd : d ≠ r.source) (hp : d ≠ r.poller) :
    edges.Spares r h (h.drop d) := by
  have hsource {x : Descriptor} (hx : d ≠ x) : (h.drop d).source? x = h.source? x := by
    rw [source?, drop]
    dsimp only
    rw [Table.get?_erase, if_neg hx, source?]
  refine spares_of_map (g := (·.forget d)) hw (hsource hp) rfl (fun p ↦ ?_) (fun p hq ↦ ?_) ?_
  · show (p.interests.filter (·.descriptor ≠ d)).find? (·.descriptor = r.source) = _
    rw [List.find?_filter]
    refine congrArg (List.find? · p.interests) (funext fun i ↦ ?_)
    by_cases hi : i.descriptor = r.source <;> simp [hi, Ne.symm hd]
  · exact List.mem_filter.2 ⟨hq, by simpa using Ne.symm hd⟩
  · rintro ⟨j, hj, hread⟩
    exact .inl ⟨j, (hsource hd).symm.trans hj, hread⟩

theorem spares_close (hs : h.Sound) (hw : edges.watched h r) (hd : d ≠ r.source)
    (hp : d ≠ r.poller) : edges.Spares r h (h.close d).2 := by
  have hdrop := spares_drop hw hd hp
  have hsource : (h.drop d).source? r.source = h.source? r.source := by
    rw [source?, drop]
    dsimp only
    rw [Table.get?_erase, if_neg hd, source?]
  unfold close
  split
  · exact .refl hw
  · next s hsd =>
    dsimp only
    split
    · next i =>
      -- Nobody can read any more: this makes nothing readable.
      have hstill : edges.Spares r (h.drop d)
          ((h.drop d).setStream i { (h.drop d).stream i with reader := false }) :=
        spares_of_streams hdrop.watched rfl rfl (readable_of_setStream id)
      refine hdrop.trans ?_
      split
      · exact hstill.trans (spares_notify hstill.watched rfl rfl (.inl rfl) .inl)
      · exact hstill
    · next i =>
      -- Nobody can write any more: whoever can read is told.
      refine hdrop.trans ?_
      split
      · exact spares_told hdrop.watched (.inl rfl) fun _ ↦ rfl
      · next hreader =>
        refine spares_setStream hdrop.watched fun hr ↦ hreader ?_
        have hreads : (h.stream i).reader = true := hs.reader _ _ (hsource.symm.trans hr)
        rcases stream_setStream (h.drop d) i i
          { (h.drop d).stream i with writer := false } with ⟨-, he⟩ | he
        · rw [he]
          exact hreads
        · rw [he]
          exact hreads
    · next i o =>
      have hstill : edges.Spares r (h.drop d)
          ((h.drop d).setStream i { (h.drop d).stream i with reader := false }) :=
        spares_of_streams hdrop.watched rfl rfl (readable_of_setStream id)
      refine hdrop.trans (hstill.trans (spares_setStream hstill.watched fun hr ↦ ?_))
      cases hs.apart _ _ (hsource.symm.trans hr) d _ hd hsd (.inr rfl)
    · exact hdrop

theorem poller?_of_checkControl (hc : h.checkControl d x = .ok (n, p)) :
    h.poller? d = some (n, p) := by
  unfold checkControl at hc
  split at hc
  · cases hc
  · cases hc
  · split at hc
    · split at hc
      · cases hc
      · next q hq =>
        split at hc
        · cases hc
        · rw [hq, Except.ok.inj hc]
    · cases hc

/-- **Registering a source** puts it into the queue if it is readable. -/
theorem watched_of_add (hs : h.Sound)
    (ha : h.add r.poller r.source ⟨Interests.readable ||| Interests.edge, r.token⟩ = (.ok (), h')) :
    edges.watched h' r ∧ (edges.readable h' r.source → edges.pending h' r) := by
  unfold add at ha
  split at ha
  · cases (Prod.mk.inj ha).1
  · next n p hcheck =>
    split at ha
    · cases (Prod.mk.inj ha).1
    · next hnew =>
      have hb := behind_of_poller? hs (poller?_of_checkControl hcheck)
      have hnone : p.interest? r.source = none := by
        rw [Poller.interest?, List.find?_eq_none]
        exact fun i hi he ↦ hnew (List.any_eq_true.2 ⟨i, hi, he⟩)
      have hadded : Poller.interest? ⟨p.interests ++ [interestOf r], p.queue⟩ r.source =
          some (interestOf r) := by
        rw [Poller.interest?, List.find?_append, show p.interests.find? _ = none from hnone]
        simp [interestOf]
      obtain ⟨-, rfl⟩ := Prod.mk.inj ha
      refine ⟨⟨n, _, hb.setPoller _, ?_⟩, fun hread ↦ ⟨n, _, hb.setPoller _, ?_⟩⟩
      · split
        · exact hadded
        · rw [Poller.interest?, interests_enqueue]
          exact hadded
      · have hreport : h.report (interestOf r) ≠ 0 := report_ne_zero hread
        show r.source ∈ (if h.report (interestOf r) = 0 then _ else _ : Poller).queue
        rw [if_neg hreport]
        exact mem_enqueue.2 (.inl rfl)

/-- **Going through the queue**: a descriptor with something to report stays in the queue or is
reported. -/
theorem mem_collect {i : Interest} (hi : p.interest? d = some i) (hreport : h.report i ≠ 0)
    (count : Nat) (queue : List Descriptor) (hd : d ∈ queue) :
    d ∈ (h.collect p count queue).2.1 ∨ i ∈ (h.collect p count queue).2.2 ∧
      ∃ e ∈ (h.collect p count queue).1, e.token = i.event.token := by
  fun_induction collect h p count queue with
  | case1 => cases hd
  | case2 queue => exact .inl hd
  | case3 count x rest hnone ih =>
    rcases List.mem_cons.1 hd with rfl | hd
    · cases hnone.symm.trans hi
    · exact ih hd
  | case4 count x rest j hj events hzero ih =>
    rcases List.mem_cons.1 hd with rfl | hd
    · obtain rfl := Option.some.inj (hj.symm.trans hi)
      exact absurd hzero hreport
    · exact ih hd
  | case5 count x rest j hj events hsome reported left again hrest ih =>
    rw [hrest] at ih
    rcases List.mem_cons.1 hd with rfl | hd
    · obtain rfl := Option.some.inj (hj.symm.trans hi)
      exact .inr ⟨List.mem_cons_self, _, List.mem_cons_self, rfl⟩
    · rcases ih hd with hleft | ⟨hi, e, he, htoken⟩
      · exact .inl hleft
      · exact .inr ⟨List.mem_cons_of_mem _ hi, e, List.mem_cons_of_mem _ he, htoken⟩

/-- **A wait** makes nothing readable, and what it takes out of the queue it delivers, if there is
something to report. -/
theorem wait_spec (hw : edges.watched h r) (count : Nat) (timeout : Option Int) :
    ∃ events h', edges.watched h' r ∧
      (edges.readable h' r.source → edges.readable h r.source ∧
        (edges.pending h r → edges.pending h' r ∨ ∃ e ∈ events, e.token = r.token)) ∧
      (h.wait r.poller count timeout = (.ok events, h') ∨
        events = [] ∧ h.wait r.poller count timeout = (.error .interrupted, h')) := by
  obtain ⟨n, p, hb, hi⟩ := hw
  unfold wait
  rw [hb.1, hb.poller?]
  dsimp only
  rcases hc : h.collect p count p.queue with ⟨events, left, reported⟩
  dsimp only
  generalize (reported.filter fun i ↦ !Interests.meets i.event.events Interests.edge).map
    (·.descriptor) = again
  refine ⟨events, h.setPoller n { p with queue := left ++ again },
    ⟨n, _, hb.setPoller _, hi⟩, fun hread ↦ ⟨hread, ?_⟩, ?_⟩
  · have hreport : h.report (interestOf r) ≠ 0 := report_ne_zero hread
    rintro ⟨m, q, hq, hmem⟩
    obtain rfl : p = q := by
      obtain rfl := Source.poller.inj (Option.some.inj (hb.1.symm.trans hq.1))
      exact Option.some.inj (hb.2.symm.trans hq.2)
    have hcollect := mem_collect hi hreport count p.queue hmem
    rw [hc] at hcollect
    exact hcollect.imp (fun hleft ↦ ⟨n, _, hb.setPoller _, List.mem_append_left _ hleft⟩) And.right
  · split
    · next hinterrupted => exact .inr ⟨List.isEmpty_iff.1 hinterrupted.1, rfl⟩
    · exact .inl rfl

end

/-- **The host obeys the edge rule.** -/
def edgeRule : EdgeRule Host where
  toEdges := edges
  add hs ha := watched_of_add hs ha
  wait {_ h h' n timeout events} _ hk hw := by
    obtain ⟨reported, h'', hw', hread, hwait | ⟨-, hwait⟩⟩ := wait_spec hw n timeout
    · obtain ⟨hevents, rfl⟩ := Prod.mk.inj (hwait.symm.trans hk)
      obtain rfl := Except.ok.inj hevents
      exact ⟨hw', hread⟩
    · cases (Prod.mk.inj (hwait.symm.trans hk)).1
  wait_error {_ h h' n timeout x} _ hk hw := by
    obtain ⟨reported, h'', hw', hread, hwait | ⟨hnone, hwait⟩⟩ := wait_spec hw n timeout
    · cases (Prod.mk.inj (hwait.symm.trans hk)).1
    · obtain ⟨-, rfl⟩ := Prod.mk.inj (hwait.symm.trans hk)
      refine ⟨hw', fun hr ↦ .inl (hread hr).1, fun hr hp ↦ ((hread hr).2 hp).resolve_right ?_⟩
      rw [hnone]
      exact fun he ↦ he.elim fun _ he ↦ nomatch he.1
  read d n hw := spares_read hw d n
  read_wouldBlock hk _ _ := not_readable_of_read hk
  write d bytes hs hw := spares_write hs hw d bytes
  close hd hp hs hw := spares_close hs hw hd hp

end Host

end TaskRuntime
