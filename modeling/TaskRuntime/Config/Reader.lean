import TaskRuntime.Config

/-!
# Reading configuration text

Configuration files hold one value in the usual notation: objects in braces, lists in brackets,
texts in quotes, numbers, `true`, `false` and `null`.

A whole number without a sign is read as unsigned, one with a minus sign as signed, and a number
with a point or an exponent, or one that does not fit, as binary64. Of several members of one name
the last one counts. The reader takes any text apart in at most as many steps as it has bytes.
-/

namespace TaskRuntime

namespace Config

namespace Reader

/-- The text without the blanks in front. -/
def skipBlanks (s : Bytes) : Bytes := s.dropWhile fun b ↦ b == 32 || b == 9 || b == 10 || b == 13

/-- The value of a hexadecimal digit. -/
def hexValue? (b : UInt8) : Option Nat :=
  if 48 ≤ b ∧ b ≤ 57 then some (b.toNat - 48)
  else if 97 ≤ b ∧ b ≤ 102 then some (b.toNat - 87)
  else if 65 ≤ b ∧ b ≤ 70 then some (b.toNat - 55)
  else none

/-- Reads four hexadecimal digits. -/
def hex4? : Bytes → Option (Nat × Bytes)
  | a :: b :: c :: d :: rest => do
    let a ← hexValue? a
    let b ← hexValue? b
    let c ← hexValue? c
    let d ← hexValue? d
    return (((a * 16 + b) * 16 + c) * 16 + d, rest)
  | _ => none

/-- The byte that a simple escape stands for. -/
def escaped? (b : UInt8) : Option UInt8 :=
  if b = 34 ∨ b = 92 ∨ b = 47 then some b
  else if b = 98 then some 8
  else if b = 102 then some 12
  else if b = 110 then some 10
  else if b = 114 then some 13
  else if b = 116 then some 9
  else none

/-- The character that begins after `\u`: one unit, or two that make a pair. -/
def unicode? (s : Bytes) : Option (Nat × Bytes) := do
  let (high, rest) ← hex4? s
  if 0xD800 ≤ high ∧ high < 0xDC00 then
    match rest with
    | 92 :: 117 :: rest =>
      let (low, rest) ← hex4? rest
      if 0xDC00 ≤ low ∧ low < 0xE000 then
        return (0x10000 + (high - 0xD800) * 0x400 + (low - 0xDC00), rest)
      else none
    | _ => none
  else if 0xDC00 ≤ high ∧ high < 0xE000 then none
  else return (high, rest)

/-- Reads a text after its opening quote; `taken` is what has been read, last byte first. -/
def text? : Nat → Bytes → Bytes → Option (Bytes × Bytes)
  | 0, _, _ => none
  | _ + 1, _, [] => none
  | _ + 1, taken, 34 :: rest => some (taken.reverse, rest)
  | n + 1, taken, 92 :: 117 :: rest => do
    let (c, rest) ← unicode? rest
    text? n ((Bytes.utf8 (String.singleton (Char.ofNat c))).reverse ++ taken) rest
  | n + 1, taken, 92 :: b :: rest => do
    let b ← escaped? b
    text? n (b :: taken) rest
  | n + 1, taken, b :: rest => text? n (b :: taken) rest

/-- Whether a byte may stand in a number. -/
def isNumberByte (b : UInt8) : Bool :=
  Numeral.isDigit b || b == 45 || b == 43 || b == 46 || b == 101 || b == 69

/-- The bits of the binary64 number nearest to a decimal number. -/
def floatBits? (s : Bytes) : Option UInt64 := do
  let (negative, rest) := Numeral.splitSign s
  let whole := rest.takeWhile Numeral.isDigit
  let rest := rest.drop whole.length
  let fraction := match rest with
    | 46 :: rest => rest.takeWhile Numeral.isDigit
    | _ => []
  let rest := match rest with
    | 46 :: rest => rest.drop fraction.length
    | rest => rest
  let exponent ← match rest with
    | [] => some 0
    | e :: rest =>
      if e = 101 ∨ e = 69 then (Numeral.read? rest).bind fun (x, rest) ↦
        if rest.isEmpty then some x else none
      else none
  if whole.isEmpty then none
  let scale : Int := exponent - fraction.length
  let f := Float.ofScientific (Numeral.value (whole ++ fraction)) (scale < 0) scale.natAbs
  return (if negative then -f else f).toBits

/-- Reads a number. -/
def number? (s : Bytes) : Option Value :=
  match Numeral.read? s with
  | some (n, []) =>
    if s.head? = some 45 then
      if -0x8000000000000000 ≤ n then some (.signed (Int64.ofInt n)) else (floatBits? s).map .float
    else if n < 0x10000000000000000 then some (.unsigned (UInt64.ofInt n))
    else (floatBits? s).map .float
  | _ => (floatBits? s).map .float

/-- Drops a word from the front. -/
def word? (word : String) (v : Value) (s : Bytes) : Option (Value × Bytes) :=
  let word := Bytes.utf8 word
  if word.isPrefixOf s then some (v, s.drop word.length) else none

mutual

/-- Reads a value. -/
def value? : Nat → Bytes → Option (Value × Bytes)
  | 0, _ => none
  | n + 1, s =>
    match skipBlanks s with
    | 34 :: rest => (text? n [] rest).map fun (t, rest) ↦ (.text t, rest)
    | 91 :: rest =>
      match skipBlanks rest with
      | 93 :: rest => some (.array [], rest)
      | rest => items? n [] rest
    | 123 :: rest =>
      match skipBlanks rest with
      | 125 :: rest => some (.object [], rest)
      | rest => members? n [] rest
    | 116 :: rest => word? "true" (.bool true) (116 :: rest)
    | 102 :: rest => word? "false" (.bool false) (102 :: rest)
    | 110 :: rest => word? "null" .null (110 :: rest)
    | s => (number? (s.takeWhile isNumberByte)).map fun v ↦ (v, s.dropWhile isNumberByte)

/-- Reads the items of a list after its opening bracket. -/
def items? : Nat → List Value → Bytes → Option (Value × Bytes)
  | 0, _, _ => none
  | n + 1, taken, s => do
    let (v, rest) ← value? n s
    match skipBlanks rest with
    | 44 :: rest => items? n (v :: taken) rest
    | 93 :: rest => return (.array (v :: taken).reverse, rest)
    | _ => none

/-- Reads the members of an object after its opening brace. -/
def members? : Nat → List (Bytes × Value) → Bytes → Option (Value × Bytes)
  | 0, _, _ => none
  | n + 1, taken, s => do
    match skipBlanks s with
    | 34 :: rest =>
      let (name, rest) ← text? n [] rest
      match skipBlanks rest with
      | 58 :: rest =>
        let (v, rest) ← value? n rest
        let taken := Value.putMember name v taken
        match skipBlanks rest with
        | 44 :: rest => members? n taken rest
        | 125 :: rest => return (.object taken, rest)
        | _ => none
      | _ => none
    | _ => none

end

end Reader

/-- **Reads a value** that fills the text, blanks aside. -/
def Value.ofText? (s : Bytes) : Option Value := do
  let (v, rest) ← Reader.value? (s.length + 1) s
  if (Reader.skipBlanks rest).isEmpty then some v else none

end Config

end TaskRuntime
