import TaskRuntime.Config.Value

/-!
# The configuration tree

A configuration is a tree of values under an object. Values are reached by paths of names; setting a
path makes the objects on the way, and fails where something that is neither missing nor an object
is in the way. A failed setting changes nothing.

* `Config.Value.at?` is the view: what a path leads to.
* `Config.Value.assign?` sets a path.
-/

namespace TaskRuntime

namespace Config

namespace Value

/-- The member of a list of members. -/
def member? (name : Bytes) : List (Bytes × Value) → Option Value
  | [] => none
  | (n, v) :: rest => if n = name then some v else member? name rest

/-- The list of members after a name has got a value: in its old place, or at the end. -/
def putMember (name : Bytes) (v : Value) : List (Bytes × Value) → List (Bytes × Value)
  | [] => [(name, v)]
  | m :: rest => if m.1 = name then (name, v) :: rest else m :: putMember name v rest

/-- The member with a name, if the value is an object that has it. -/
def get? (v : Value) (name : Bytes) : Option Value :=
  match v with
  | object members => member? name members
  | _ => none

/-- What a path leads to. -/
def at? (v : Value) : List Bytes → Option Value
  | [] => some v
  | name :: rest => (v.get? name).bind fun child ↦ child.at? rest

/-- The members of a value in which a path may be entered: those of an object, none for a missing
value, and nothing for any other value. -/
def members? : Value → Option (List (Bytes × Value))
  | object members => some members
  | null => some []
  | _ => none

/-- The value after a path has been given a value, with the objects on the way made as needed;
nothing if something else is in the way. -/
def assign? (v : Value) (path : List Bytes) (leaf : Value) : Option Value :=
  match path with
  | [] => some leaf
  | name :: rest => do
    let members ← v.members?
    let child ← ((member? name members).getD null).assign? rest leaf
    return object (putMember name child members)

/-! ### Members -/

theorem member?_putMember (name other : Bytes) (v : Value) (members : List (Bytes × Value)) :
    member? other (putMember name v members) =
      if name = other then some v else member? other members := by
  induction members with
  | nil => simp only [putMember, member?]
  | cons m rest ih =>
    by_cases hm : m.1 = name
    · by_cases h : name = other
      · simp only [putMember, member?, if_pos hm, if_pos h]
      · have hm' : m.1 ≠ other := fun x ↦ h (hm.symm.trans x)
        simp only [putMember, member?, if_pos hm, if_neg h, if_neg hm']
    · by_cases hm' : m.1 = other
      · have h : name ≠ other := fun x ↦ hm (hm'.trans x.symm)
        simp only [putMember, member?, if_neg hm, if_pos hm', if_neg h]
      · simp only [putMember, member?, if_neg hm, if_neg hm', ih]

end Value

end Config

/-- A configuration. -/
structure Config where
  /-- The tree; its root is an object. -/
  root : Config.Value := .empty
  deriving Inhabited

namespace Config

/-- Sets a path and says whether that was possible; the empty path cannot be set. -/
def set (c : Config) (path : List Bytes) (v : Value) : Bool × Config :=
  match path with
  | [] => (false, c)
  | _ :: _ =>
    match c.root.assign? path v with
    | none => (false, c)
    | some root => (true, ⟨root⟩)

/-- What is logged when a configuration file cannot be opened. -/
def openFailure (path : Bytes) : Bytes := Bytes.utf8 "Config: failed to open config file: " ++ path

/-- Forgets everything that was set. -/
def reset (_ : Config) : Config := {}

/-- Sets paths one after the other, whether or not each is possible. -/
def setAll (c : Config) (settings : List (List Bytes × Value)) : Config :=
  settings.foldl (fun c (path, v) ↦ (c.set path v).2) c

/-- The value of a key in a section, if the section is an object that has the key. -/
def key? (c : Config) (section_ key : Bytes) : Option Value :=
  (c.root.get? section_).bind fun s ↦ s.get? key

end Config

end TaskRuntime
