import TaskRuntime.Proofs.SlowLoop

/-!
# The edge rule

A source that is registered for changes alone is reported once for each change. `EdgeRule` says what
this means for a kernel: a registration on a source that is readable already, and everything that
makes the source readable afterwards, makes an event pending, and a pending event stays so until a
wait delivers it. What is readable is a matter of the kernel; all that counts is that a read that
would block finds nothing to read.

Much of what happens to a kernel is of no concern to a registration (`Edges.Spares`): if the source
has become readable, an event is pending.
-/

namespace TaskRuntime

/-- A source that is registered with a poller under a token. -/
structure Registration where
  /-- The poller. -/
  poller : Descriptor
  /-- The source. -/
  source : Descriptor
  /-- The token. -/
  token : Token

/-- What a kernel has to tell about sources that are registered for changes of readability. -/
structure Edges (K : Type) where
  /-- A state that the kernel can be in. -/
  sound : K → Prop
  /-- There are bytes to read, or the end can be read. -/
  readable : K → Descriptor → Prop
  /-- A registration for changes of readability is in force. -/
  watched : K → Registration → Prop
  /-- An event of a registration waits to be delivered. -/
  pending : K → Registration → Prop

namespace Edges

variable {K : Type} {edges : Edges K} {r : Registration} {k k' k'' : K}

/-- **What happens is of no concern to a registration**: it stays in force, its source has not
become readable without an event, and no event has been lost. -/
structure Spares (edges : Edges K) (r : Registration) (k k' : K) : Prop where
  /-- The registration stays in force. -/
  watched : edges.watched k' r
  /-- What has become readable makes an event pending. -/
  fresh : edges.readable k' r.source → edges.readable k r.source ∨ edges.pending k' r
  /-- The event of a readable source is not lost. -/
  pending : edges.readable k' r.source → edges.pending k r → edges.pending k' r

theorem Spares.refl (hw : edges.watched k r) : edges.Spares r k k := ⟨hw, .inl, fun _ hp ↦ hp⟩

theorem Spares.trans (h : edges.Spares r k k') (h' : edges.Spares r k' k'') :
    edges.Spares r k k'' where
  watched := h'.watched
  fresh hr := by
    rcases h'.fresh hr with hr' | hp
    · exact (h.fresh hr').imp_right (h'.pending hr)
    · exact .inr hp
  pending hr hp := by
    rcases h'.fresh hr with hr' | hp'
    · exact h'.pending hr (h.pending hr' hp)
    · exact hp'

end Edges

/-- **The edge rule.** -/
structure EdgeRule (K : Type) [Kernel K] extends Edges K where
  /-- A registration is in force, and if its source is readable, an event is pending. -/
  add : ∀ {r : Registration} {k k' : K}, sound k →
    Kernel.add k r.poller r.source ⟨Interests.readable ||| Interests.edge, r.token⟩ = (.ok (), k') →
    watched k' r ∧ (readable k' r.source → pending k' r)
  /-- A wait makes nothing readable, and a pending event stays pending or is delivered. -/
  wait : ∀ {r : Registration} {k k' : K} {n : Nat} {timeout : Option Int} {events : List Event},
    sound k → Kernel.wait k r.poller n timeout = (.ok events, k') → watched k r →
    watched k' r ∧ (readable k' r.source → readable k r.source ∧
      (pending k r → pending k' r ∨ ∃ e ∈ events, e.token = r.token))
  /-- A wait that fails delivers nothing. -/
  wait_error : ∀ {r : Registration} {k k' : K} {n : Nat} {timeout : Option Int} {x : Errno},
    sound k → Kernel.wait k r.poller n timeout = (.error x, k') → watched k r →
    toEdges.Spares r k k'
  /-- Reading makes nothing readable. -/
  read : ∀ {r : Registration} {k : K} (d : Descriptor) (n : Nat), watched k r →
    toEdges.Spares r k (Kernel.read k d n).2
  /-- A read that would block finds nothing to read. -/
  read_wouldBlock : ∀ {r : Registration} {k k' : K} {n : Nat} {x : Errno},
    Kernel.read k r.source n = (.error x, k') → x.isWouldBlock = true → watched k r →
    ¬ readable k' r.source
  /-- A write makes an event pending if it makes the source readable. -/
  write : ∀ {r : Registration} {k : K} (d : Descriptor) (bytes : Bytes), sound k → watched k r →
    toEdges.Spares r k (Kernel.write k d bytes).2
  /-- So does closing another descriptor, such as the other end of a pipe. -/
  close : ∀ {r : Registration} {k : K} {d : Descriptor}, d ≠ r.source → d ≠ r.poller → sound k →
    watched k r → toEdges.Spares r k (Kernel.close k d).2

/-- Emptying the notifier of a loop is reading. -/
theorem EdgeRule.drainNotifier {K : Type} [Kernel K] (rule : EdgeRule K) {r : Registration}
    (notifier : Descriptor) (k : K) (hw : rule.watched k r) :
    rule.Spares r k (Reactor.drainNotifier notifier k) := by
  fun_induction Reactor.drainNotifier notifier k with
  | case1 k b bs k' h ih =>
    have hread := rule.read notifier 8 hw
    rw [h] at hread
    exact hread.trans (ih hread.watched)
  | case2 k x k' hne h =>
    have hread := rule.read notifier 8 hw
    rwa [h] at hread

end TaskRuntime
