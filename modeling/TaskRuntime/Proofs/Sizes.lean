import TaskRuntime.Proofs.Batching
import TaskRuntime.Proofs.WholeStream
import TaskRuntime.Threads

/-!
# Sizes

Three settings are sizes. What is read of a size is the whole number that the configuration holds,
if it is in the range of the setting, and the default otherwise; reading leaves everything as it is,
but for one warning about a value that is there and has been rejected (`Config.SizeRule`). The
number may be held as signed or as unsigned, and the limits are compared on 64-bit words: a negative
number is never taken for a large one (`Config.Value.toNat_word?`).

Before it is used, a size of zero is replaced once more, and the number of events that are fetched
at once is limited. What is used is at least one, and at most the maximum (`Config.SizesInUse`).
-/

namespace TaskRuntime

namespace Config

/-! ### Values that are sizes -/

namespace Value

variable {v : Value} {max n : Nat}

/-- **A value is a size**: it holds a whole number from 0 to a maximum. -/
def IsSize (max : Nat) (v : Value) : Prop := ∃ i : Int, v.integer? = some i ∧ 0 ≤ i ∧ i ≤ max

/-- The size of a value is the number that it holds. -/
theorem size?_eq_some_iff : v.size? max = some n ↔ v.integer? = some (n : Int) ∧ n ≤ max := by
  cases v with
  | unsigned m =>
    rw [size?, integer?]
    constructor
    · intro h
      split at h
      · next hle => exact Option.some.inj h ▸ ⟨rfl, hle⟩
      · cases h
    · rintro ⟨hm, hle⟩
      obtain rfl : m.toNat = n := Int.ofNat.inj (Option.some.inj hm)
      rw [if_pos hle]
  | signed i =>
    rw [size?, integer?]
    constructor
    · intro h
      split at h
      · next hle =>
        obtain rfl := Option.some.inj h
        exact ⟨congrArg some (Int.toNat_of_nonneg hle.1).symm, by omega⟩
      · cases h
    · rintro ⟨hi, hle⟩
      have hi := Option.some.inj hi
      rw [if_pos ⟨by omega, by omega⟩, hi, Int.toNat_natCast]
  | _ => exact iff_of_false nofun fun h ↦ by cases h.1

/-- A value is a size exactly if it has one. -/
theorem isSize_iff : v.IsSize max ↔ ∃ n, v.size? max = some n := by
  constructor
  · rintro ⟨i, hi, hnonneg, hle⟩
    refine ⟨i.toNat, size?_eq_some_iff.2 ⟨?_, by omega⟩⟩
    rw [hi, Int.toNat_of_nonneg hnonneg]
  · rintro ⟨n, hn⟩
    obtain ⟨hi, hle⟩ := size?_eq_some_iff.1 hn
    exact ⟨n, hi, by omega, by omega⟩

theorem size?_eq_none_iff : v.size? max = none ↔ ¬v.IsSize max := by
  rw [isSize_iff, ← Option.ne_none_iff_exists', Classical.not_not]

/-- **The size of a value, on 64-bit words**: an unsigned word is compared with the maximum, and a
signed one with zero first and then, as an unsigned one, with the maximum. -/
def word? (max : UInt64) : Value → Option UInt64
  | unsigned n => if n ≤ max then some n else none
  | signed i => if 0 ≤ i ∧ i.toUInt64 ≤ max then some i.toUInt64 else none
  | _ => none

/-- **Words give the number itself**: nothing wraps. -/
theorem toNat_word? (max : UInt64) (v : Value) :
    (v.word? max).map UInt64.toNat = v.size? max.toNat := by
  cases v with
  | unsigned n =>
    rw [word?, size?]
    by_cases hle : n ≤ max
    · rw [if_pos hle, if_pos (UInt64.le_iff_toNat_le.1 hle)]
      rfl
    · rw [if_neg hle, if_neg fun h ↦ hle (UInt64.le_iff_toNat_le.2 h)]
      rfl
  | signed i =>
    have hzero : 0 ≤ i ↔ 0 ≤ i.toInt := Int64.le_iff_toInt_le
    rw [word?, size?]
    by_cases hi : 0 ≤ i
    · have hword : i.toUInt64.toNat = i.toInt.toNat := Int64.toNat_toUInt64_of_le hi
      have hnonneg := hzero.1 hi
      have hmax : i.toUInt64 ≤ max ↔ i.toInt ≤ max.toNat := by
        rw [UInt64.le_iff_toNat_le, hword]
        omega
      by_cases hle : i.toUInt64 ≤ max
      · rw [if_pos ⟨hi, hle⟩, if_pos ⟨hnonneg, hmax.1 hle⟩, Option.map_some, hword]
      · rw [if_neg fun h ↦ hle h.2, if_neg fun h ↦ hle (hmax.2 h.2)]
        rfl
    · rw [if_neg fun h ↦ hi h.1, if_neg fun h ↦ hi (hzero.2 h.1)]
      rfl
  | _ => rfl

end Value

/-! ### Reading a size -/

/-- The path of a setting. -/
def path (section_ key : String) : List Bytes := [Bytes.utf8 section_, Bytes.utf8 key]

/-- **A value is there and is rejected**: the section is an object in which the key has a value, and
this value is neither missing nor a size. -/
structure Rejected (c : Config) (section_ key : String) (max : Nat) (v : Value) : Prop where
  /-- The section is an object, in which the key has the value. -/
  held : ∃ members, c.root.get? (Bytes.utf8 section_) = some (.object members) ∧
    Value.member? (Bytes.utf8 key) members = some v
  /-- The value is not missing. -/
  present : v.isNull = false
  /-- The value is no size. -/
  unfit : ¬v.IsSize max

/-- A size setting as it is read on 64-bit words. -/
def sizeWord (c : Config) (section_ key : String) (fallback max : UInt64) : UInt64 :=
  match c.key? (Bytes.utf8 section_) (Bytes.utf8 key) with
  | none => fallback
  | some v => if v.isNull then fallback else (v.word? max).getD fallback

/-- **How a size setting is read** in an environment. -/
structure SizeRule {K : Type} (e : Environment K) (section_ key : String) (fallback max : Nat)
    (read : Config → Reading Nat) : Prop where
  /-- A number in the range is read as what it is, however it is held. -/
  exact : ∀ v i, e.config.root.at? (path section_ key) = some v → v.integer? = some i → 0 ≤ i →
    i ≤ max → ((e.setting read).1 : Int) = i
  /-- If there is no such number, the default is read. -/
  otherwise : (∀ v, e.config.root.at? (path section_ key) = some v → ¬v.IsSize max) →
    (e.setting read).1 = fallback
  /-- A rejected value is worth one warning, and nothing else changes. -/
  warns : ∀ v, e.config.Rejected section_ key max v →
    (e.setting read).2 = { e with
      log := e.log.note e.tag .warning
        (Warning.outOfRange section_ key max v fallback).message }
  /-- If none is rejected, nothing changes. -/
  silent : (∀ v, ¬e.config.Rejected section_ key max v) → (e.setting read).2 = e
  /-- On words, the same is read. -/
  words : (e.config.sizeWord section_ key (UInt64.ofNat fallback) (UInt64.ofNat max)).toNat =
    (e.setting read).1

variable {c : Config} {section_ key : String} {fallback max : Nat} {v : Value}

theorem at?_path (c : Config) (section_ key : String) :
    c.root.at? (path section_ key) = c.key? (Bytes.utf8 section_) (Bytes.utf8 key) := by
  rw [key?, path, Value.at?]
  refine congrArg _ (funext fun s ↦ ?_)
  rw [Value.at?]
  cases s.get? (Bytes.utf8 key) <;> rfl

/-- What is held in an object is what the path leads to. -/
theorem held_iff : (∃ members, c.root.get? (Bytes.utf8 section_) = some (.object members) ∧
    Value.member? (Bytes.utf8 key) members = some v) ↔
      c.key? (Bytes.utf8 section_) (Bytes.utf8 key) = some v := by
  rw [key?, Option.bind_eq_some_iff]
  constructor
  · rintro ⟨members, hsection, hkey⟩
    exact ⟨_, hsection, hkey⟩
  · rintro ⟨s, hsection, hkey⟩
    cases s with
    | object members => exact ⟨members, hsection, hkey⟩
    | _ => cases hkey

theorem rejected_iff : c.Rejected section_ key max v ↔
    c.key? (Bytes.utf8 section_) (Bytes.utf8 key) = some v ∧ v.isNull = false ∧
      v.size? max = none := by
  rw [Value.size?_eq_none_iff]
  exact ⟨fun h ↦ ⟨held_iff.1 h.held, h.present, h.unfit⟩,
    fun h ↦ ⟨held_iff.2 h.1, h.2.1, h.2.2⟩⟩

/-- **What comes of a value**: there are three cases. -/
inductive Read (c : Config) (section_ key : String) (fallback max : Nat) : Reading Nat → Prop
  /-- The value is a size. -/
  | size {v : Value} {n : Nat} (h : c.key? (Bytes.utf8 section_) (Bytes.utf8 key) = some v)
    (hn : v.size? max = some n) : Read c section_ key fallback max ⟨n, none⟩
  /-- There is none, or it is missing. -/
  | absent (h : ∀ v, c.key? (Bytes.utf8 section_) (Bytes.utf8 key) = some v → v = .null) :
    Read c section_ key fallback max ⟨fallback, none⟩
  /-- The value is rejected. -/
  | rejected {v : Value} (h : c.Rejected section_ key max v) :
    Read c section_ key fallback max ⟨fallback, some (.outOfRange section_ key max v fallback)⟩

theorem eq_null_of_isNull (h : v.isNull = true) : v = .null := by
  cases v with
  | null => rfl
  | _ => cases h

theorem read_readSize (c : Config) (section_ key : String) (fallback max : Nat) :
    c.Read section_ key fallback max (c.readSize section_ key fallback max) := by
  rw [readSize]
  split
  · next hkey => exact .absent fun v hv ↦ by cases hkey.symm.trans hv
  · next v hkey =>
    split
    · next hnull =>
      exact .absent fun w hw ↦ Option.some.inj (hkey.symm.trans hw) ▸ eq_null_of_isNull hnull
    · next hpresent =>
      split
      · next n hn => exact .size hkey hn
      · next hnone => exact .rejected (rejected_iff.2 ⟨hkey, Bool.eq_false_iff.2 hpresent, hnone⟩)

/-- On words, the same is read as a size. -/
theorem toNat_sizeWord (c : Config) (section_ key : String) (fallback max : UInt64) :
    (c.sizeWord section_ key fallback max).toNat =
      (c.readSize section_ key fallback.toNat max.toNat).value := by
  rw [sizeWord, readSize]
  cases c.key? (Bytes.utf8 section_) (Bytes.utf8 key) with
  | none => rfl
  | some v =>
    dsimp only
    cases v.isNull with
    | true => rfl
    | false =>
      rw [if_neg Bool.false_ne_true, if_neg Bool.false_ne_true, ← Value.toNat_word?]
      cases v.word? max <;> rfl

/-- **A size setting** is read as it is to be read. -/
theorem sizeRule {K : Type} (e : Environment K) (section_ key : String)
    (hf : fallback < UInt64.size) (hm : max < UInt64.size) :
    SizeRule e section_ key fallback max fun c ↦ c.readSize section_ key fallback max := by
  have hread := read_readSize e.config section_ key fallback max
  have hwords := toNat_sizeWord e.config section_ key (.ofNat fallback) (.ofNat max)
  rw [UInt64.toNat_ofNat_of_lt' hf, UInt64.toNat_ofNat_of_lt' hm] at hwords
  have hsetting : e.setting (fun c ↦ c.readSize section_ key fallback max) =
      ((e.config.readSize section_ key fallback max).value, { e with
        log := (e.config.readSize section_ key fallback max).warn e.tag e.log }) := rfl
  generalize e.config.readSize section_ key fallback max = r at hread hwords hsetting
  cases hread with
  | @size v n hv hn =>
    have heq {w : Value} (hw : e.config.key? (Bytes.utf8 section_) (Bytes.utf8 key) = some w) :
        w = v := Option.some.inj (hw.symm.trans hv)
    exact {
      exact := fun w i hw hi _ _ ↦ by
        rw [at?_path] at hw
        rw [hsetting]
        rw [heq hw, (Value.size?_eq_some_iff.1 hn).1] at hi
        exact Option.some.inj hi
      otherwise := fun h ↦ absurd (Value.isSize_iff.2 ⟨n, hn⟩) (h v ((at?_path _ _ _).trans hv))
      warns := fun w hw ↦ by
        have hnone := (rejected_iff.1 hw).2.2
        rw [heq (rejected_iff.1 hw).1, hn] at hnone
        cases hnone
      silent := fun _ ↦ by rw [hsetting]; rfl
      words := by rw [hsetting]; exact hwords }
  | absent habsent =>
    exact {
      exact := fun w i hw hi _ _ ↦ by
        rw [at?_path] at hw
        rw [habsent w hw] at hi
        cases hi
      otherwise := fun _ ↦ by rw [hsetting]
      warns := fun w hw ↦ by
        have hpresent := hw.present
        rw [habsent w (rejected_iff.1 hw).1] at hpresent
        cases hpresent
      silent := fun _ ↦ by rw [hsetting]; rfl
      words := by rw [hsetting]; exact hwords }
  | @rejected v hv =>
    have heq {w : Value} (hw : e.config.key? (Bytes.utf8 section_) (Bytes.utf8 key) = some w) :
        w = v := Option.some.inj (hw.symm.trans (rejected_iff.1 hv).1)
    exact {
      exact := fun w i hw hi hnonneg hle ↦ by
        rw [at?_path] at hw
        rw [heq hw] at hi
        exact absurd ⟨i, hi, hnonneg, hle⟩ hv.unfit
      otherwise := fun _ ↦ by rw [hsetting]
      warns := fun w hw ↦ by
        rw [heq (rejected_iff.1 hw).1, hsetting]
        rfl
      silent := fun h ↦ absurd hv (h v)
      words := by rw [hsetting]; exact hwords }

/-! ### Sizes in use -/

/-- **The sizes that are really used**, whatever has been requested and configured. -/
structure SizesInUse (K : Type) [Kernel K] : Prop where
  /-- A reactor that is made fetches at least one event at once, and at most the maximum. -/
  capacity : ∀ {requested : Nat} {s s' : System K} {r : Reactor},
    Reactor.create requested s = (.ok r, s') → 1 ≤ r.capacity ∧ r.capacity ≤ 65536
  /-- The loop asks for as many events as this. -/
  fetched : ∀ {requested : Nat} {s s' s₁ s₁' : System K} {r r' : Reactor},
    Reactor.create requested s = (.ok r, s') → r.start s₁ = (.ok (), r', s₁') →
      r'.buffer.count = r.capacity
  /-- The reactor of the runtime fetches as many as configured, within these limits. -/
  runtime : ∀ {p p' : Threads K}, p.startRuntime = (.ok (), p') →
    p'.world.reactor.capacity = clampCapacity p.world.config.eventCapacity.value
  /-- Starting the runtime leaves the configuration as it is, also if it fails. -/
  runtimeConfig : ∀ p : Threads K, p.startRuntime.2.world.config = p.world.config
  /-- A future for which no size is requested reads at least one byte at once, and at most the
  maximum. -/
  chunk : ∀ (owned : Owned) (e : Environment K),
    1 ≤ (ReadToEnd.create owned 0 e).1.chunk ∧
      (ReadToEnd.create owned 0 e).1.chunk ≤ 16 * 1024 * 1024
  /-- Making a future leaves the configuration as it is. -/
  futureConfig : ∀ (owned : Owned) (requested : Nat) (e : Environment K),
    (ReadToEnd.create owned requested e).2.config = e.config

variable {K : Type} [Kernel K]

theorem capacity_create {requested : Nat} {s s' : System K} {r : Reactor}
    (h : Reactor.create requested s = (.ok r, s')) : r.capacity = clampCapacity requested := by
  obtain ⟨poller, notifier, rfl⟩ := Reactor.exists_of_create h
  rfl

omit [Kernel K] in
theorem start_of_ok {s s' : System K} {r r' : Reactor} (h : r.start s = (.ok (), r', s')) :
    r'.capacity = r.capacity ∧ r'.buffer = ⟨r.capacity, []⟩ := by
  unfold Reactor.start at h
  split at h
  · cases h
  · obtain ⟨-, hr⟩ := Prod.mk.inj h
    obtain ⟨rfl, -⟩ := Prod.mk.inj hr
    exact ⟨rfl, rfl⟩

theorem capacity_startRuntime {p p' : Threads K} (h : p.startRuntime = (.ok (), p')) :
    p'.world.reactor.capacity = clampCapacity p.world.config.eventCapacity.value := by
  unfold Threads.startRuntime at h
  split at h
  · cases h
  · dsimp only at h
    split at h
    · cases h
    · next reactor s hcreate =>
      split at h
      · cases h
      · next r' s' hstart =>
        obtain ⟨-, rfl⟩ := Prod.mk.inj h
        exact (start_of_ok hstart).1.trans (capacity_create hcreate)

theorem config_startRuntime (p : Threads K) :
    p.startRuntime.2.world.config = p.world.config := by
  unfold Threads.startRuntime
  split
  · rfl
  · dsimp only
    split
    · rfl
    · split <;> rfl

/-- What is read is within the range of the setting, as the default is. -/
theorem readSize_le (c : Config) (section_ key : String) (h : fallback ≤ max) :
    (c.readSize section_ key fallback max).value ≤ max := by
  have hread := read_readSize c section_ key fallback max
  generalize c.readSize section_ key fallback max = r at hread
  cases hread with
  | size _ hn => exact (Value.size?_eq_some_iff.1 hn).2
  | absent => exact h
  | rejected => exact h

theorem chunkSize_le {configured : Nat} (h : configured ≤ maxReadBuffer) :
    chunkSize 0 configured ≤ maxReadBuffer := by
  rw [chunkSize, if_neg (Nat.lt_irrefl 0)]
  split
  · exact h
  · decide

omit [Kernel K] in
theorem config_create (owned : Owned) (requested : Nat) (e : Environment K) :
    (ReadToEnd.create owned requested e).2.config = e.config := by
  unfold ReadToEnd.create
  dsimp only
  split <;> rfl

/-- **Sizes in use are within their limits.** -/
theorem sizesInUse : SizesInUse K where
  capacity h := capacity_create h ▸ clampCapacity_mem _
  fetched hcreate hstart := by
    rw [(start_of_ok hstart).2, capacity_create hcreate, EventBuffer.count_clampCapacity]
  runtime := capacity_startRuntime
  runtimeConfig := config_startRuntime
  chunk owned e := by
    rw [ReadToEnd.chunk_create]
    exact ⟨ReadToEnd.chunkSize_pos _ _, chunkSize_le (readSize_le _ _ _ (by decide))⟩
  futureConfig := config_create

/-! ### The three sizes -/

/-- A port is not changed by the cut to 32 bits. -/
theorem wrap32_port (c : Config) : Numeral.wrap32 c.port.value = c.port.value := by
  have hle : c.port.value ≤ 65535 := readSize_le c _ _ (by decide)
  exact Int.bmod_eq_of_le (by omega) (by omega)

/-- **The three sizes** are read as what they are or as their defaults, and what is used is within
the limits. -/
theorem sizes_exact (K : Type) [Kernel K] :
    (∀ e : Environment K,
      SizeRule e "reactor" "event_capacity" 100 65536 eventCapacity ∧
      SizeRule e "http" "port" 8080 65535 port ∧
      SizeRule e "http" "read_buffer_size" 4096 (16 * 1024 * 1024) readBuffer ∧
      Numeral.wrap32 (e.setting port).1 = (e.setting port).1) ∧
    SizesInUse K :=
  ⟨fun e ↦ ⟨sizeRule e _ _ (by decide) (by decide), sizeRule e _ _ (by decide) (by decide),
    sizeRule e _ _ (by decide) (by decide), wrap32_port e.config⟩, sizesInUse⟩

/-- A negative port is not taken for a large one, nor is one that would be in the range after a cut
to 16 bits. -/
example : (({} : Config).set (path "http" "port") (.signed (-1))).2.port.value = 8080 ∧
    (({} : Config).set (path "http" "port") (.unsigned 65616)).2.port.value = 8080 := by
  decide

end Config

end TaskRuntime
