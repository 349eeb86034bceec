import TaskRuntime.Config.Loading

/-!
# Setting paths

What setting a path of a configuration does to all paths (`Config.UpdateLaws`). It fails exactly if
something other than an object is in the way, and then nothing has changed; otherwise the path leads
to the new value, and all paths that part from it lead where they did.

The tree can be changed in place instead: members are entered one after the other, each missing one
is put in as it is entered, and the walk may yet fail further down (`Config.Value.walk`). It leaves
nothing behind then (`Config.Value.walk_of_blocked`), since below a member that has just been put in
nothing can be in the way (`Config.Value.not_blocks_null`).

The root of a configuration is an object, whatever has been loaded, set and reset
(`Config.Made.isObject_root`).
-/

namespace TaskRuntime

namespace Config

namespace Value

variable {v w u leaf : Value} {members after : List (Bytes × Value)} {name other : Bytes}
  {p q : List Bytes}

/-! ### Members -/

theorem putMember_putMember (name : Bytes) (v w : Value) (members : List (Bytes × Value)) :
    putMember name w (putMember name v members) = putMember name w members := by
  induction members with
  | nil => simp [putMember]
  | cons m rest ih =>
    by_cases hm : m.1 = name
    · simp [putMember, hm]
    · simp [putMember, hm, ih]

/-- A member that gets the value that it has stays as it is. -/
theorem putMember_of_member? (h : member? name members = some v) :
    putMember name v members = members := by
  induction members with
  | nil => cases h
  | cons m rest ih =>
    obtain ⟨n, x⟩ := m
    rw [member?] at h
    rw [putMember]
    by_cases hn : n = name
    · rw [if_pos hn] at h
      obtain rfl := Option.some.inj h
      rw [if_pos hn, hn]
    · rw [if_neg hn] at h
      rw [if_neg hn, ih h]

/-! ### What is in the way -/

/-- A path may be entered in a value: it is an object, or there is nothing yet. -/
def Enterable (v : Value) : Prop := v.isNull = true ∨ v.isObject = true

/-- **Something is in the way of a path**: a proper part of the path leads to a value in which it
cannot be entered. -/
def Blocks (v : Value) (p : List Bytes) : Prop :=
  ∃ q w, q <+: p ∧ q ≠ p ∧ v.at? q = some w ∧ ¬w.Enterable

theorem members?_eq_none_iff : v.members? = none ↔ ¬v.Enterable := by
  cases v <;> simp [members?, Enterable, isNull, isObject]

theorem enterable_of_members? (h : v.members? = some members) : v.Enterable :=
  Classical.not_not.1 fun hn ↦ by cases (members?_eq_none_iff.2 hn).symm.trans h

/-- Where a path leads that is entered through members. -/
theorem at?_cons_of_members? (h : v.members? = some members) (name : Bytes) (p : List Bytes) :
    v.at? (name :: p) = (member? name members).bind fun child ↦ child.at? p := by
  cases v with
  | object m =>
    obtain rfl := Option.some.inj h
    rfl
  | null =>
    obtain rfl := Option.some.inj h
    rfl
  | _ => cases h

/-- No path leads anywhere from a missing value, but the empty one. -/
theorem at?_getD_null (child : Option Value) (hp : p ≠ []) :
    (child.getD null).at? p = child.bind fun child ↦ child.at? p := by
  cases child with
  | none =>
    cases p with
    | nil => exact absurd rfl hp
    | cons name p => rfl
  | some child => rfl

/-- Nothing is in the way of a path that is entered in a missing value. -/
theorem not_blocks_null (p : List Bytes) : ¬null.Blocks p := by
  rintro ⟨q, w, -, -, hw, hblocked⟩
  cases q with
  | nil => exact hblocked (Option.some.inj hw ▸ .inl rfl)
  | cons name q => cases hw

theorem not_blocks_nil : ¬v.Blocks [] := by
  rintro ⟨q, w, hprefix, hne, -⟩
  exact hne (List.prefix_nil.1 hprefix)

/-- What is in the way of a path is in the way of its rest, where the path has been entered. -/
theorem blocks_cons_iff (h : v.members? = some members) :
    v.Blocks (name :: p) ↔ ((member? name members).getD null).Blocks p := by
  constructor
  · rintro ⟨q, w, hprefix, hne, hw, hblocked⟩
    cases q with
    | nil => exact absurd (Option.some.inj hw ▸ enterable_of_members? h) hblocked
    | cons other q =>
      obtain ⟨rfl, hrest⟩ := List.cons_prefix_cons.1 hprefix
      rw [at?_cons_of_members? h] at hw
      obtain ⟨child, hchild, hw⟩ := Option.bind_eq_some_iff.1 hw
      rw [hchild]
      exact ⟨q, w, hrest, fun heq ↦ hne (congrArg _ heq), hw, hblocked⟩
  · intro hblocks
    cases hchild : member? name members with
    | none =>
      rw [hchild] at hblocks
      exact absurd hblocks (not_blocks_null p)
    | some child =>
      rw [hchild] at hblocks
      obtain ⟨q, w, hprefix, hne, hw, hblocked⟩ := hblocks
      refine ⟨name :: q, w, List.cons_prefix_cons.2 ⟨rfl, hprefix⟩, ?_, ?_, hblocked⟩
      · exact fun heq ↦ hne (List.cons.inj heq).2
      · rw [at?_cons_of_members? h, hchild]
        exact hw

/-! ### Assigning -/

/-- Assigning goes on in the member, and puts the result in its place. -/
theorem assign?_cons (h : v.members? = some members) (name : Bytes) (p : List Bytes)
    (leaf : Value) : v.assign? (name :: p) leaf =
      (((member? name members).getD null).assign? p leaf).map fun child ↦
        object (putMember name child members) := by
  rw [assign?, h, Option.bind_eq_bind, Option.bind_some, Option.map_eq_bind]
  rfl

/-- What assigning a path that has been entered comes to. -/
theorem assign?_cons_eq_some (h : v.assign? (name :: p) leaf = some u) :
    ∃ members child, v.members? = some members ∧
      ((member? name members).getD null).assign? p leaf = some child ∧
        u = object (putMember name child members) := by
  cases hm : v.members? with
  | none =>
    rw [assign?, hm] at h
    cases h
  | some members =>
    rw [assign?_cons hm] at h
    obtain ⟨child, hchild, rfl⟩ := Option.map_eq_some_iff.1 h
    exact ⟨members, child, rfl, hchild, rfl⟩

/-- **Assigning fails** exactly if something is in the way. -/
theorem assign?_eq_none_iff : v.assign? p leaf = none ↔ v.Blocks p := by
  induction p generalizing v with
  | nil => exact iff_of_false nofun not_blocks_nil
  | cons name p ih =>
    cases hm : v.members? with
    | none =>
      refine iff_of_true ?_ ⟨[], v, List.nil_prefix, nofun, rfl, members?_eq_none_iff.1 hm⟩
      rw [assign?, hm]
      rfl
    | some members => rw [assign?_cons hm, Option.map_eq_none_iff, ih, blocks_cons_iff hm]

/-- **After assigning**, the path leads to the leaf, and goes on from there. -/
theorem at?_assign? (h : v.assign? p leaf = some u) (q : List Bytes) :
    u.at? (p ++ q) = leaf.at? q := by
  induction p generalizing v u with
  | nil =>
    obtain rfl := Option.some.inj h
    rfl
  | cons name p ih =>
    obtain ⟨members, child, -, hchild, rfl⟩ := assign?_cons_eq_some h
    rw [List.cons_append, at?_cons_of_members? rfl, member?_putMember, if_pos rfl]
    exact ih hchild

/-- **Assigning leaves other paths alone**, if they part from the one that is assigned. -/
theorem at?_assign?_of_parts (h : v.assign? p leaf = some u) (hpq : ¬p <+: q) (hqp : ¬q <+: p) :
    u.at? q = v.at? q := by
  induction p generalizing v u q with
  | nil => exact absurd List.nil_prefix hpq
  | cons name p ih =>
    obtain ⟨members, child, hm, hchild, rfl⟩ := assign?_cons_eq_some h
    cases q with
    | nil => exact absurd List.nil_prefix hqp
    | cons other q =>
      rw [at?_cons_of_members? rfl, at?_cons_of_members? hm, member?_putMember]
      by_cases hname : name = other
      · obtain rfl := hname
        have hpq' : ¬p <+: q := fun hp ↦ hpq (List.cons_prefix_cons.2 ⟨rfl, hp⟩)
        have hqp' : ¬q <+: p := fun hp ↦ hqp (List.cons_prefix_cons.2 ⟨rfl, hp⟩)
        have hne : q ≠ [] := by
          rintro rfl
          exact hqp' List.nil_prefix
        rw [if_pos rfl, ← at?_getD_null (member? name members) hne]
        exact ih hchild hpq' hqp'
      · rw [if_neg hname]

/-- **The last assignment counts.** -/
theorem assign?_assign? (h : v.assign? p leaf = some u) (leaf' : Value) :
    u.assign? p leaf' = v.assign? p leaf' := by
  induction p generalizing v u with
  | nil => rfl
  | cons name p ih =>
    obtain ⟨members, child, hm, hchild, rfl⟩ := assign?_cons_eq_some h
    rw [assign?_cons rfl, assign?_cons hm, member?_putMember, if_pos rfl, Option.getD_some,
      ih hchild]
    simp only [putMember_putMember]

theorem isObject_assign? (h : v.assign? (name :: p) leaf = some u) : u.isObject = true := by
  obtain ⟨_, _, _, _, rfl⟩ := assign?_cons_eq_some h
  rfl

/-! ### In place -/

/-- The members after one of them has been looked for: it is put in as missing if there is none. -/
def touch (name : Bytes) (members : List (Bytes × Value)) : List (Bytes × Value) :=
  if (member? name members).isSome then members else putMember name null members

/-- **Assigns a path in place**, to the members of an object: whether the walk gets to its end, and
what it leaves behind. -/
def walk (leaf : Value) : List Bytes → List (Bytes × Value) → Bool × List (Bytes × Value)
  | [], members => (false, members)
  | [name], members => (true, putMember name leaf members)
  | name :: next :: rest, members =>
    let members := touch name members
    match ((member? name members).getD null).members? with
    | none => (false, members)
    | some inner =>
      let members := putMember name (object inner) members
      let (done, inner) := walk leaf (next :: rest) inner
      (done, putMember name (object inner) members)

theorem member?_touch (name : Bytes) (members : List (Bytes × Value)) :
    (member? name (touch name members)).getD null = (member? name members).getD null := by
  rw [touch]
  cases h : member? name members with
  | none => simp [member?_putMember]
  | some child => simp [h]

theorem putMember_touch (name : Bytes) (v : Value) (members : List (Bytes × Value)) :
    putMember name v (touch name members) = putMember name v members := by
  rw [touch]
  split
  · rfl
  · exact putMember_putMember name null v members

/-- A walk goes on in the member, and leaves behind what it has made of it. -/
theorem walk_of_members? {inner : List (Bytes × Value)} {next : Bytes}
    (h : ((member? name members).getD null).members? = some inner) :
    walk leaf (name :: next :: p) members =
      ((walk leaf (next :: p) inner).1,
        putMember name (object (walk leaf (next :: p) inner).2) members) := by
  rw [walk, member?_touch, h]
  dsimp only
  rw [putMember_putMember, putMember_touch]

/-- **A walk with something in the way** does not get to its end, and leaves nothing behind. -/
theorem walk_of_blocked (h : (object members).Blocks p) :
    walk leaf p members = (false, members) := by
  induction p generalizing members with
  | nil => exact absurd h not_blocks_nil
  | cons name p ih =>
    rw [blocks_cons_iff rfl] at h
    cases p with
    | nil => exact absurd h not_blocks_nil
    | cons next rest =>
      -- What is entered is there: nothing is in the way below a missing member.
      obtain ⟨child, hchild⟩ : ∃ child, member? name members = some child := by
        refine Option.ne_none_iff_exists'.1 fun hnone ↦ ?_
        rw [hnone] at h
        exact not_blocks_null _ h
      rw [hchild, Option.getD_some] at h
      have htouch : touch name members = members := by
        rw [touch, hchild]
        rfl
      cases child with
      | object inner =>
        rw [walk_of_members? (by rw [hchild]; rfl), ih h, putMember_of_member? hchild]
      | null => exact absurd h (not_blocks_null _)
      | _ =>
        rw [walk, htouch, hchild]
        rfl

/-- **A walk with nothing in the way** gets to its end, and leaves behind what is assigned. -/
theorem walk_of_assign? (hv : v.members? = some members)
    (h : v.assign? (name :: p) leaf = some u) :
    (walk leaf (name :: p) members).1 = true ∧ u = object (walk leaf (name :: p) members).2 := by
  induction p generalizing v u name members with
  | nil =>
    rw [assign?_cons hv] at h
    exact ⟨rfl, (Option.some.inj h).symm⟩
  | cons next rest ih =>
    rw [assign?_cons hv] at h
    obtain ⟨child, hchild, rfl⟩ := Option.map_eq_some_iff.1 h
    obtain ⟨inner, _, hinner, -⟩ := assign?_cons_eq_some hchild
    obtain ⟨hdone, rfl⟩ := ih hinner hchild
    rw [walk_of_members? hinner]
    exact ⟨hdone, rfl⟩

end Value

variable {c : Config} {path : List Bytes} {v root : Value}

/-! ### Configurations -/

/-- Sets a path in place. -/
def setInPlace (c : Config) (path : List Bytes) (v : Value) : Bool × Config :=
  match c.root with
  | .object members =>
    let (done, members) := Value.walk v path members
    (done, ⟨.object members⟩)
  | _ => (false, c)

/-- **What setting a path is to do.** -/
structure UpdateLaws (c : Config) (path : List Bytes) (v : Value) : Prop where
  /-- It is possible exactly if the path is not empty, and each part of it that is neither empty nor
  the whole path leads nowhere, to a missing value or to an object. -/
  possible : (c.set path v).1 = true ↔ path ≠ [] ∧ ∀ q w, q ≠ [] → q <+: path → q ≠ path →
    c.root.at? q = some w → w.Enterable
  /-- The path leads to the value then, and goes on from there. -/
  reaches : (c.set path v).1 = true →
    ∀ q, (c.set path v).2.root.at? (path ++ q) = v.at? q
  /-- All paths that part from it lead where they did. -/
  frame : (c.set path v).1 = true → ∀ q, ¬path <+: q → ¬q <+: path →
    (c.set path v).2.root.at? q = c.root.at? q
  /-- The last of two values counts. -/
  last : ∀ w, (c.set path v).2.set path w = c.set path w
  /-- The root is an object. -/
  root : (c.set path v).2.root.isObject = true
  /-- If it is not possible, nothing has changed. -/
  fails : (c.set path v).1 = false → (c.set path v).2 = c
  /-- Changing the tree in place comes to the same. -/
  inPlace : c.setInPlace path v = c.set path v

/-- The empty path cannot be set, and neither can a path with something in the way. -/
theorem set_of_refused (h : path = [] ∨ c.root.Blocks path) (v : Value) :
    c.set path v = (false, c) := by
  cases path with
  | nil => rfl
  | cons name rest =>
    rw [set, Value.assign?_eq_none_iff.2 (h.resolve_left nofun)]

theorem set_of_assign? (hp : path ≠ []) (h : c.root.assign? path v = some root) :
    c.set path v = (true, ⟨root⟩) := by
  cases path with
  | nil => exact absurd rfl hp
  | cons name rest => rw [set, h]

/-- All other paths can be set. -/
theorem set_of_accepted (hp : path ≠ []) (h : ¬c.root.Blocks path) (v : Value) :
    ∃ root, c.root.assign? path v = some root ∧ c.set path v = (true, ⟨root⟩) := by
  have hsome : c.root.assign? path v ≠ none := fun hnone ↦ h (Value.assign?_eq_none_iff.1 hnone)
  obtain ⟨root, hroot⟩ := Option.ne_none_iff_exists'.1 hsome
  exact ⟨root, hroot, set_of_assign? hp hroot⟩

/-- **The last of two settings counts**, whether or not it is possible. -/
theorem set_set (c : Config) (path : List Bytes) (v w : Value) :
    (c.set path v).2.set path w = c.set path w := by
  by_cases hrefused : path = [] ∨ c.root.Blocks path
  · rw [set_of_refused hrefused]
  · obtain ⟨hp, hfree⟩ := not_or.1 hrefused
    obtain ⟨root, hroot, hset⟩ := set_of_accepted hp hfree v
    obtain ⟨root', hroot', hset'⟩ := set_of_accepted hp hfree w
    rw [hset, hset']
    exact set_of_assign? hp ((Value.assign?_assign? hroot w).trans hroot')

theorem set_fst_iff : (c.set path v).1 = true ↔ path ≠ [] ∧ ¬c.root.Blocks path := by
  constructor
  · intro h
    rw [← not_or]
    intro hrefused
    rw [set_of_refused hrefused] at h
    cases h
  · rintro ⟨hp, hfree⟩
    obtain ⟨root, -, hset⟩ := set_of_accepted hp hfree v
    rw [hset]

/-- In an object, only what is on the way below the root can be in the way. -/
theorem not_blocks_iff (hc : c.root.isObject = true) : ¬c.root.Blocks path ↔
    ∀ q w, q ≠ [] → q <+: path → q ≠ path → c.root.at? q = some w → w.Enterable := by
  constructor
  · intro h q w _ hprefix hne hw
    exact Classical.not_not.1 fun hblocked ↦ h ⟨q, w, hprefix, hne, hw, hblocked⟩
  · rintro h ⟨q, w, hprefix, hne, hw, hblocked⟩
    by_cases hq : q = []
    · obtain rfl := hq
      exact hblocked (Option.some.inj hw ▸ .inr hc)
    · exact hblocked (h q w hq hprefix hne hw)

theorem isObject_set (hc : c.root.isObject = true) (path : List Bytes) (v : Value) :
    (c.set path v).2.root.isObject = true := by
  by_cases hrefused : path = [] ∨ c.root.Blocks path
  · rw [set_of_refused hrefused]
    exact hc
  · obtain ⟨hp, hfree⟩ := not_or.1 hrefused
    obtain ⟨root, hroot, hset⟩ := set_of_accepted hp hfree v
    obtain ⟨name, rest, rfl⟩ := List.exists_cons_of_ne_nil hp
    rw [hset]
    exact Value.isObject_assign? hroot

theorem exists_members (hc : c.root.isObject = true) : ∃ members, c = ⟨.object members⟩ := by
  obtain ⟨root⟩ := c
  cases root with
  | object members => exact ⟨members, rfl⟩
  | _ => cases hc

/-- **Setting in place** comes to the same, whether or not it is possible. -/
theorem setInPlace_eq (hc : c.root.isObject = true) (path : List Bytes) (v : Value) :
    c.setInPlace path v = c.set path v := by
  obtain ⟨members, rfl⟩ := exists_members hc
  have hwalk : setInPlace ⟨.object members⟩ path v =
    ((Value.walk v path members).1, ⟨.object (Value.walk v path members).2⟩) := rfl
  rw [hwalk]
  by_cases hrefused : path = [] ∨ (Value.object members).Blocks path
  · rw [set_of_refused hrefused]
    obtain rfl | hblocks := hrefused
    · rfl
    · rw [Value.walk_of_blocked hblocks]
  · obtain ⟨hp, hfree⟩ := not_or.1 hrefused
    obtain ⟨root, hroot, hset⟩ := set_of_accepted (c := ⟨.object members⟩) hp hfree v
    obtain ⟨name, rest, rfl⟩ := List.exists_cons_of_ne_nil hp
    obtain ⟨hdone, rfl⟩ := Value.walk_of_assign? rfl hroot
    rw [hset, hdone]

/-! ### Configurations that come about -/

/-- **A configuration that comes about** by loading, setting and resetting. -/
inductive Made : Config → Prop
  /-- Nothing has been set. -/
  | fresh : Made {}
  /-- The content of a file has been loaded, as far as it can be. -/
  | load {c : Config} (content : Option Bytes) (h : Made c) :
    Made ((Loading.ofFile content).configuration c)
  /-- A path has been set, as far as it can be. -/
  | set {c : Config} (path : List Bytes) (v : Value) (h : Made c) : Made (c.set path v).2
  /-- Everything has been forgotten. -/
  | reset {c : Config} (h : Made c) : Made c.reset

/-- **The root of a configuration is an object.** -/
theorem Made.isObject_root (h : Made c) : c.root.isObject = true := by
  induction h with
  | fresh => rfl
  | load content _ ih =>
    unfold Loading.ofFile
    split
    · exact ih
    · split
      · exact ih
      · split
        · next hobject => exact hobject
        · exact ih
  | set path v _ ih => exact isObject_set ih path v
  | reset _ _ => rfl

/-! ### The laws -/

/-- **Setting a path** obeys the laws, for any path of any configuration. -/
theorem updateLaws (hc : c.root.isObject = true) (path : List Bytes) (v : Value) :
    c.UpdateLaws path v := by
  by_cases hrefused : path = [] ∨ c.root.Blocks path
  · have hset := set_of_refused hrefused
    exact {
      possible := by rw [set_fst_iff, not_blocks_iff hc]
      reaches := fun h ↦ by rw [hset] at h; cases h
      frame := fun h ↦ by rw [hset] at h; cases h
      last := set_set c path v
      root := isObject_set hc path v
      fails := fun _ ↦ by rw [hset]
      inPlace := setInPlace_eq hc path v }
  · obtain ⟨hp, hfree⟩ := not_or.1 hrefused
    obtain ⟨root, hroot, hset⟩ := set_of_accepted hp hfree v
    exact {
      possible := by rw [set_fst_iff, not_blocks_iff hc]
      reaches := fun _ q ↦ by rw [hset]; exact Value.at?_assign? hroot q
      frame := fun _ q hpq hqp ↦ by rw [hset]; exact Value.at?_assign?_of_parts hroot hpq hqp
      last := set_set c path v
      root := isObject_set hc path v
      fails := fun h ↦ by rw [hset] at h; cases h
      inPlace := setInPlace_eq hc path v }

/-- With a number at `a.b` and a missing value at `a.c`, a path can be set below the missing value,
and none below the number. -/
theorem updateLaws_below : ∃ c : Config, c.Made ∧ c.root.isObject = true ∧
    c.UpdateLaws (["a", "c", "d"].map Bytes.utf8) (.bool true) ∧
    (c.set (["a", "c", "d"].map Bytes.utf8) (.bool true)).1 = true ∧
    c.UpdateLaws (["a", "b", "d"].map Bytes.utf8) (.bool true) ∧
    (c.set (["a", "b", "d"].map Bytes.utf8) (.bool true)).1 = false := by
  have hmade : Made (({} : Config).set (["a", "b"].map Bytes.utf8) (.unsigned 1)).2 :=
    .set _ _ .fresh
  have hmade := hmade.set (["a", "c"].map Bytes.utf8) .null
  exact ⟨_, hmade, hmade.isObject_root, updateLaws hmade.isObject_root _ _, by decide,
    updateLaws hmade.isObject_root _ _, by decide⟩

end Config

end TaskRuntime
