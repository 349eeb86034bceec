/-!
# Tables

A finite map as a list of pairs with distinct keys, in the order in which the keys were first
entered. Tasks by id, wakers by token and descriptors by number are kept in tables.

## The view

`Table.get?` is the view of a table: each operation below says what it does to `get?`, and the size
lemmas count entries. That keys are distinct is part of the type, so a table has one entry per key.
-/

namespace TaskRuntime

/-- A finite map. -/
structure Table (K V : Type) where
  /-- The pairs, oldest key first. -/
  entries : List (K × V) := []
  /-- No key occurs twice. -/
  distinct : (entries.map Prod.fst).Nodup := by simp

namespace Table

variable {K V : Type}

/-- The table without entries. -/
def empty : Table K V where

@[simp] theorem entries_empty : (empty : Table K V).entries = [] := rfl

instance : EmptyCollection (Table K V) := ⟨empty⟩

instance : Inhabited (Table K V) := ⟨empty⟩

/-! ### Queries -/

/-- The keys, oldest first. -/
def keys (t : Table K V) : List K := t.entries.map Prod.fst

/-- The values, in the order of their keys. -/
def values (t : Table K V) : List V := t.entries.map Prod.snd

/-- How many entries there are. -/
def size (t : Table K V) : Nat := t.entries.length

/-- Whether there is no entry. -/
def isEmpty (t : Table K V) : Bool := t.entries.isEmpty

variable [DecidableEq K]

/-- The value that a list of pairs gives a key. -/
def find (k : K) : List (K × V) → Option V
  | [] => none
  | e :: rest => if e.1 = k then some e.2 else find k rest

/-- The value of a key. -/
def get? (t : Table K V) (k : K) : Option V := find k t.entries

/-- Whether a key has an entry. -/
def contains (t : Table K V) (k : K) : Bool := (t.get? k).isSome

/-- The value of a key, or a given one. -/
def getD (t : Table K V) (k : K) (fallback : V) : V := (t.get? k).getD fallback

/-! ### Lists of pairs -/

/-- The list of pairs after a key has got a value: in its old place, or at the end. -/
def put (k : K) (v : V) : List (K × V) → List (K × V)
  | [] => [(k, v)]
  | e :: rest => if e.1 = k then (k, v) :: rest else e :: put k v rest

/-- The list of pairs without the first entry of a key. -/
def without (k : K) : List (K × V) → List (K × V)
  | [] => []
  | e :: rest => if e.1 = k then rest else e :: without k rest

theorem find_eq_none_iff {k : K} {l : List (K × V)} : find k l = none ↔ k ∉ l.map Prod.fst := by
  induction l with
  | nil => simp [find]
  | cons e rest ih =>
    by_cases h : e.1 = k
    · simp only [find, List.map_cons, List.mem_cons, h]
      simp
    · simp only [find, if_neg h, ih, List.map_cons, List.mem_cons, Ne.symm h, false_or]

/-- An entry of a list of pairs with distinct keys is found under its key. -/
theorem find_of_mem {l : List (K × V)} (hd : (l.map Prod.fst).Nodup) {e : K × V} (he : e ∈ l) :
    find e.1 l = some e.2 := by
  induction l with
  | nil => cases he
  | cons x rest ih =>
    obtain ⟨hx, hrest⟩ := List.nodup_cons.1 hd
    rw [find]
    rcases List.mem_cons.1 he with rfl | he
    · rw [if_pos rfl]
    · have hne : x.1 ≠ e.1 := fun hxe ↦ hx (hxe ▸ List.mem_map_of_mem he)
      rw [if_neg hne]
      exact ih hrest he

theorem map_fst_put (k : K) (v : V) (l : List (K × V)) :
    (put k v l).map Prod.fst =
      if k ∈ l.map Prod.fst then l.map Prod.fst else l.map Prod.fst ++ [k] := by
  induction l with
  | nil => simp [put]
  | cons e rest ih =>
    by_cases h : e.1 = k
    · simp [put, h]
    · simp only [put, h, if_false, List.map_cons, ih, List.mem_cons, Ne.symm h, false_or]
      split <;> simp

theorem find_put (k k' : K) (v : V) (l : List (K × V)) :
    find k' (put k v l) = if k = k' then some v else find k' l := by
  induction l with
  | nil => simp only [put, find]
  | cons e rest ih =>
    by_cases he : e.1 = k
    · by_cases h : k = k'
      · simp only [put, find, if_pos he, if_pos h]
      · have he' : e.1 ≠ k' := fun x ↦ h (he.symm.trans x)
        simp only [put, find, if_pos he, if_neg h, if_neg he']
    · by_cases he' : e.1 = k'
      · have h : k ≠ k' := fun x ↦ he (he'.trans x.symm)
        simp only [put, find, if_neg he, if_pos he', if_neg h]
      · simp only [put, find, if_neg he, if_neg he', ih]

theorem without_sublist (k : K) (l : List (K × V)) : (without k l).Sublist l := by
  induction l with
  | nil => exact List.Sublist.refl _
  | cons e rest ih =>
    unfold without
    split
    · exact List.sublist_cons_self _ _
    · exact ih.cons_cons _

theorem length_put (k : K) (v : V) (l : List (K × V)) :
    (put k v l).length = if (find k l).isSome then l.length else l.length + 1 := by
  induction l with
  | nil => simp [put, find]
  | cons e rest ih =>
    by_cases he : e.1 = k
    · simp only [put, find, if_pos he]
      simp
    · simp only [put, find, if_neg he, List.length_cons, ih]
      split <;> rfl

theorem length_without (k : K) (l : List (K × V)) :
    (without k l).length = if (find k l).isSome then l.length - 1 else l.length := by
  induction l with
  | nil => simp [without, find]
  | cons e rest ih =>
    by_cases he : e.1 = k
    · simp only [without, find, if_pos he]
      simp
    · simp only [without, find, if_neg he, List.length_cons, ih]
      split
      · next h =>
        have : rest ≠ [] := by rintro rfl; simp [find] at h
        have := List.length_pos_iff.2 this
        omega
      · rfl

theorem find_without {k k' : K} {l : List (K × V)} (hl : (l.map Prod.fst).Nodup) :
    find k' (without k l) = if k = k' then none else find k' l := by
  induction l with
  | nil => simp [without, find]
  | cons e rest ih =>
    obtain ⟨hd, hr⟩ := List.nodup_cons.1 hl
    by_cases he : e.1 = k
    · by_cases h : k = k'
      · simp only [without, if_pos he, if_pos h]
        exact find_eq_none_iff.2 (h ▸ he ▸ hd)
      · have he' : e.1 ≠ k' := fun x ↦ h (he.symm.trans x)
        simp only [without, find, if_pos he, if_neg h, if_neg he']
    · by_cases he' : e.1 = k'
      · have h : k ≠ k' := fun x ↦ he (he'.trans x.symm)
        simp only [without, find, if_neg he, if_pos he', if_neg h]
      · simp only [without, find, if_neg he, if_neg he', ih hr]

/-! ### Updates -/

/-- Gives a key a value. -/
def insert (t : Table K V) (k : K) (v : V) : Table K V where
  entries := put k v t.entries
  distinct := by
    rw [map_fst_put]
    split
    · exact t.distinct
    · next h =>
      refine List.nodup_append.2 ⟨t.distinct, by simp, fun a ha b hb hab ↦ ?_⟩
      exact h (List.mem_singleton.1 hb ▸ hab ▸ ha)

/-- Takes the entry of a key out. -/
def erase (t : Table K V) (k : K) : Table K V where
  entries := without k t.entries
  distinct := t.distinct.sublist ((without_sublist k t.entries).map _)

/-- Changes the value of a key that has one. -/
def modify (t : Table K V) (k : K) (f : V → V) : Table K V :=
  match t.get? k with
  | none => t
  | some v => t.insert k (f v)

/-! ### What updates do to the view -/

@[simp] theorem get?_empty (k : K) : (empty : Table K V).get? k = none := rfl

@[simp] theorem get?_insert (t : Table K V) (k k' : K) (v : V) :
    (t.insert k v).get? k' = if k = k' then some v else t.get? k' :=
  find_put k k' v t.entries

@[simp] theorem get?_erase (t : Table K V) (k k' : K) :
    (t.erase k).get? k' = if k = k' then none else t.get? k' :=
  find_without t.distinct

theorem mem_keys_iff {t : Table K V} {k : K} : k ∈ t.keys ↔ t.contains k = true := by
  rw [contains, get?, Option.isSome_iff_ne_none, ne_eq, find_eq_none_iff, Classical.not_not, keys]

theorem size_insert (t : Table K V) (k : K) (v : V) :
    (t.insert k v).size = if t.contains k then t.size else t.size + 1 :=
  length_put k v t.entries

theorem size_erase (t : Table K V) (k : K) :
    (t.erase k).size = if t.contains k then t.size - 1 else t.size :=
  length_without k t.entries

end Table

end TaskRuntime
