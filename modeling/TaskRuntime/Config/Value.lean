import TaskRuntime.Decimal.Shortest

/-!
# Configuration values

The values that a configuration holds: the usual tree of texts, numbers, lists and objects. Whole
numbers remember whether they were entered as unsigned or as signed, since both hold 64 bits and
only the first reaches beyond `2 ^ 63`.

## Text form

`Value.print` writes a value without spaces. Members of an object are sorted by the bytes of their
names. In a text a quote, a backslash and the control characters are escaped, and all other bytes
stand for themselves.
-/

namespace TaskRuntime

namespace Config

/-- A configuration value. -/
inductive Value
  /-- No value. -/
  | null
  /-- A truth value. -/
  | bool (b : Bool)
  /-- A whole number entered as unsigned. -/
  | unsigned (n : UInt64)
  /-- A whole number entered as signed. -/
  | signed (i : Int64)
  /-- A binary64 number, by its bits. -/
  | float (bits : UInt64)
  /-- A text. -/
  | text (s : Bytes)
  /-- A list of values. -/
  | array (items : List Value)
  /-- Named values, no name twice. -/
  | object (members : List (Bytes × Value))
  deriving Inhabited

namespace Value

/-- Whether a value is an object. -/
def isObject : Value → Bool
  | object _ => true
  | _ => false

/-- Whether a value is missing or explicitly nothing. -/
def isNull : Value → Bool
  | null => true
  | _ => false

/-- The object without members. -/
def empty : Value := object []

/-! ### Text form -/

/-- A hexadecimal digit in lower case. -/
def hexDigit (d : Nat) : UInt8 := UInt8.ofNat (if d < 10 then 48 + d else 87 + d)

/-- A byte as it stands inside a quoted text. -/
def escapeByte (b : UInt8) : Bytes :=
  if b = 34 then [92, 34]
  else if b = 92 then [92, 92]
  else if b = 8 then [92, 98]
  else if b = 12 then [92, 102]
  else if b = 10 then [92, 110]
  else if b = 13 then [92, 114]
  else if b = 9 then [92, 116]
  else if b < 32 then [92, 117, 48, 48, hexDigit (b.toNat / 16), hexDigit (b.toNat % 16)]
  else [b]

/-- A text between quotes. -/
def quote (s : Bytes) : Bytes := 34 :: s.flatMap escapeByte ++ [34]

/-- Whether a name stands before or beside another one in an object's text form. -/
def nameLe (a b : Bytes) : Bool := a = b || List.lex a b (· < ·)

/-- Printed pieces with commas between them. -/
def separated : List Bytes → Bytes
  | [] => []
  | [piece] => piece
  | piece :: rest => piece ++ 44 :: separated rest

mutual

/-- The text form of a value. -/
def print : Value → Bytes
  | null => Bytes.utf8 "null"
  | bool true => Bytes.utf8 "true"
  | bool false => Bytes.utf8 "false"
  | unsigned n => Numeral.ofNat n.toNat
  | signed i => Numeral.ofInt i.toInt
  | float bits => Binary64.text bits
  | text s => quote s
  | array items => 91 :: separated (printItems items) ++ [93]
  | object members =>
    let sorted := (printMembers members).mergeSort fun a b ↦ nameLe a.1 b.1
    123 :: separated (sorted.map fun (name, value) ↦ quote name ++ 58 :: value) ++ [125]

/-- The text forms of list items. -/
def printItems : List Value → List Bytes
  | [] => []
  | v :: rest => print v :: printItems rest

/-- The text forms of an object's members, beside their names. -/
def printMembers : List (Bytes × Value) → List (Bytes × Bytes)
  | [] => []
  | (name, v) :: rest => (name, print v) :: printMembers rest

end

end Value

end Config

end TaskRuntime
