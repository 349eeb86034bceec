import TaskRuntime.Numeral

/-!
# Short decimal text of binary fractions

A binary64 number is written with as few significant digits as possible: for one, two, … seventeen
digits the number is rounded to that many digits, and the first result that reads back as the same
number is taken.

## Exactness

Nothing here computes with floating-point numbers. The bits are decoded into `m * 2 ^ q`, rounding
is a quotient of natural numbers with ties to even, and "reads back" is the question whether a
rational number lies in the interval of those that round to `m * 2 ^ q`, ends included exactly for
even `m`.

* `Binary64.decode` takes the bits apart.
* `Binary64.shortest` finds the digits and the decimal exponent.
* `Binary64.text` lays them out.
-/

namespace TaskRuntime

/-- A number `significand * 2 ^ exponent`, with a sign. -/
structure Dyadic where
  /-- Whether the number has a minus sign. -/
  negative : Bool
  /-- The integer significand; zero for both zeros. -/
  significand : Nat
  /-- The power of two. -/
  exponent : Int
  /-- Whether the next smaller number is only half as far away as the next larger one. -/
  narrowBelow : Bool
  deriving DecidableEq, Repr

/-- The significant digits of a decimal number, as an integer, and the power of ten of the first. -/
structure DecimalDigits where
  /-- The digits, read as a whole number. -/
  digits : Nat
  /-- How many digits there are. -/
  count : Nat
  /-- The power of ten of the leading digit. -/
  lead : Int
  deriving DecidableEq, Repr

namespace Binary64

/-! ### Decoding -/

/-- The weight of the bit of the sign. -/
def signBit : Nat := 0x8000000000000000

/-- The weight of the lowest bit of the exponent, which is that of the leading bit of a significand.
-/
def hiddenBit : Nat := 0x10000000000000

/-- Takes the bits of a finite number apart; nothing for infinities and for what is no number. -/
def decode (bits : UInt64) : Option Dyadic :=
  let n := bits.toNat
  let negative := signBit ≤ n
  let biased : Nat := n / hiddenBit % 2048
  let fraction := n % hiddenBit
  if biased = 2047 then none
  else if biased = 0 then some ⟨negative, fraction, -1074, false⟩
  else some ⟨negative, hiddenBit + fraction, (biased : Int) - 1075, fraction = 0 && biased ≠ 1⟩

/-! ### Rounding to digits -/

/-- The nearest integer to a quotient; of two equally near ones the even one. -/
def roundQuotient (num den : Nat) : Nat :=
  let q := num / den
  let r := num % den
  if 2 * r < den then q else if den < 2 * r then q + 1 else q + q % 2

/-- The power of ten of the leading digit of a positive quotient. -/
def leadOf (num den : Nat) : Int :=
  if den ≤ num then (Numeral.ofNat (num / den)).length - 1
  else -((List.range 400).findIdx fun j ↦ den ≤ num * Nat.pow 10 j)

/-- A positive quotient rounded to `count` significant digits. -/
def roundDigits (num den count : Nat) : DecimalDigits :=
  let lead := leadOf num den
  let unit : Int := lead - (count - 1)
  let n := roundQuotient (num * Nat.pow 10 (-unit).toNat) (den * Nat.pow 10 unit.toNat)
  if n = Nat.pow 10 count then ⟨Nat.pow 10 (count - 1), count, lead + 1⟩ else ⟨n, count, lead⟩

/-- Whether a decimal number lies among those that round to the dyadic number `num / den`. -/
def readsBack (x : Dyadic) (num den : Nat) (d : DecimalDigits) : Bool :=
  let unit : Int := d.lead - (d.count - 1)
  let a := d.digits * Nat.pow 10 unit.toNat * den
  let b := num * Nat.pow 10 (-unit).toNat
  let closed := x.significand % 2 = 0
  let (distance, share) :=
    if b ≤ a then (a - b, 2 * x.significand)
    else (b - a, if x.narrowBelow then 4 * x.significand else 2 * x.significand)
  if closed then share * distance ≤ b else share * distance < b

/-- The fewest digits that read back, for a number other than zero. -/
def shortest (x : Dyadic) : DecimalDigits :=
  let num := x.significand * Nat.pow 2 x.exponent.toNat
  let den := Nat.pow 2 (-x.exponent).toNat
  let candidates := (List.range 17).map fun i ↦ roundDigits num den (i + 1)
  (candidates.find? (readsBack x num den)).getD (roundDigits num den 17)

/-! ### Layout -/

/-- A power of ten below this is written in scientific form. -/
def leastPositional : Int := -4

/-- The digits with a point after the first `whole` of them. -/
def pointed (digits : Bytes) (whole : Nat) : Bytes :=
  let after := digits.drop whole
  if after.isEmpty then digits else digits.take whole ++ 46 :: after

/-- The exponent after an `e`: a sign and at least two digits. -/
def exponentText (e : Int) : Bytes :=
  let digits := Numeral.ofNat e.natAbs
  101 :: (if e < 0 then 45 else 43) :: (if digits.length < 2 then 48 :: digits else digits)

/-- Digits are written positionally when the leading power of ten is neither below -4 nor as large
as the number of digits, and in scientific form otherwise. A text without point and exponent gets
`.0` behind it. -/
def layout (d : DecimalDigits) : Bytes :=
  let digits := Numeral.ofNat d.digits
  if leastPositional ≤ d.lead ∧ d.lead < d.count then
    let body :=
      if d.lead < 0 then 48 :: 46 :: List.replicate (-d.lead - 1).toNat 48 ++ digits
      else pointed digits (d.lead.toNat + 1)
    if body.contains 46 then body else body ++ Bytes.utf8 ".0"
  else pointed digits 1 ++ exponentText d.lead

/-- **The text of a binary64 number**, given by its bits. -/
def text (bits : UInt64) : Bytes :=
  match decode bits with
  | none =>
    if bits.toNat % hiddenBit ≠ 0 then Bytes.utf8 "nan"
    else if signBit ≤ bits.toNat then Bytes.utf8 "-inf" else Bytes.utf8 "inf"
  | some x =>
    let body := if x.significand = 0 then Bytes.utf8 "0.0" else layout (shortest x)
    if x.negative then 45 :: body else body

end Binary64

end TaskRuntime
