import TaskRuntime.Bytes

/-!
# Decimal numerals

Whole numbers as decimal text, and the reader of such text that the option and path parsers share.

## The grammar

A numeral is optional white space, an optional sign and at least one decimal digit; the reader takes
as many digits as there are and hands back what follows. White space is the space and the five
control characters from tab to carriage return. The value is the exact integer, of any length:
callers impose their own range.

* `Numeral.ofNat` and `Numeral.ofInt` write a number without leading zeros.
* `Numeral.read?` reads one from the front of a byte string.
* `Numeral.IsNumeral` says which byte strings the reader accepts in full, and with which value.
-/

namespace TaskRuntime

namespace Numeral

/-! ### Writing -/

/-- The byte of a decimal digit. -/
def digit (d : Nat) : UInt8 := UInt8.ofNat (48 + d)

/-- The decimal digits of a number, without leading zeros. -/
def ofNat (n : Nat) : Bytes :=
  if n < 10 then [digit n] else ofNat (n / 10) ++ [digit (n % 10)]
termination_by n

/-- The decimal text of an integer: a minus sign before the digits of a negative one. -/
def ofInt : Int → Bytes
  | .ofNat n => ofNat n
  | .negSucc n => 45 :: ofNat (n + 1)

/-! ### Reading -/

/-- White space before a numeral: a space, or a control character from tab to carriage return. -/
def isBlank (b : UInt8) : Bool := b == 32 || (9 ≤ b && b ≤ 13)

/-- Whether a byte is a decimal digit. -/
def isDigit (b : UInt8) : Bool := 48 ≤ b && b ≤ 57

/-- The number that a string of digits denotes. -/
def value (digits : Bytes) : Nat := digits.foldl (fun n d ↦ 10 * n + (d.toNat - 48)) 0

/-- Splits off a sign; the first part says whether it was a minus. -/
def splitSign : Bytes → Bool × Bytes
  | 43 :: rest => (false, rest)
  | 45 :: rest => (true, rest)
  | rest => (false, rest)

/-- Reads a numeral from the front: its value and what follows it, or nothing if there is no digit
where the first one has to be. -/
def read? (s : Bytes) : Option (Int × Bytes) :=
  let (negative, unsigned) := splitSign (s.dropWhile isBlank)
  let digits := unsigned.takeWhile isDigit
  if digits.isEmpty then none
  else
    let magnitude : Int := value digits
    some (if negative then -magnitude else magnitude, unsigned.dropWhile isDigit)

/-- **The grammar.** The byte string is, in full, white space, a sign or none, and at least one
digit, and denotes the given number. -/
inductive IsNumeral : Bytes → Int → Prop
  /-- No sign. -/
  | plain {blanks digits : Bytes} : (∀ b ∈ blanks, isBlank b = true) → digits ≠ [] →
      (∀ b ∈ digits, isDigit b = true) → IsNumeral (blanks ++ digits) (value digits)
  /-- An explicit plus sign. -/
  | plus {blanks digits : Bytes} : (∀ b ∈ blanks, isBlank b = true) → digits ≠ [] →
      (∀ b ∈ digits, isDigit b = true) → IsNumeral (blanks ++ 43 :: digits) (value digits)
  /-- A minus sign. -/
  | minus {blanks digits : Bytes} : (∀ b ∈ blanks, isBlank b = true) → digits ≠ [] →
      (∀ b ∈ digits, isDigit b = true) → IsNumeral (blanks ++ 45 :: digits) (-value digits)

/-! ### Ranges -/

/-- The nearest number of the signed 64-bit range. -/
def saturate64 (i : Int) : Int := max (-0x8000000000000000) (min i 0x7FFFFFFFFFFFFFFF)

/-- The 32-bit signed integer that the low 32 bits of a number make. -/
def wrap32 (i : Int) : Int := i.bmod 0x100000000

end Numeral

end TaskRuntime
