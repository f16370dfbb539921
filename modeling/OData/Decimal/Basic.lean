/-
Numbers with a fraction, in the binary64 format.

A `Decimal` is a bit pattern: one sign bit, eleven bits of exponent, fifty-two of fraction.
Everything about it is computed from the integers `m` and `q` of `m · 2 ^ q`, so no floating-point
operation is used and every value reduces by evaluation.

* `Decimal.isNaN`, `Decimal.isInfinite`, `Decimal.isNegative` — the classes and the sign;
* `Decimal.significand`, `Decimal.exponent` — the magnitude of a finite decimal is
  `significand · 2 ^ exponent`;
* `Decimal.integer?` — the integer that a decimal equals, if it is one of magnitude at most `2 ^
53`;
* `Decimal.ofRatio` — the decimal nearest to a quotient, a tie going to the even significand;
* `Decimal.ofScientific` — the decimal nearest to `digits · 10 ^ exponent`.
-/

set_option relaxedAutoImplicit false
set_option autoImplicit false

namespace OData

/-- A binary64 number, given by its bits. -/
structure Decimal where
  /-- Sign, exponent and fraction, from the highest bit down. -/
  bits : UInt64
deriving DecidableEq, Inhabited

namespace Decimal

/-! ### The parts of a bit pattern -/

/-- The eleven bits of the exponent. -/
def exponentField (d : Decimal) : Nat := d.bits.toNat / Nat.pow 2 52 % Nat.pow 2 11

/-- The fifty-two bits of the fraction. -/
def fraction (d : Decimal) : Nat := d.bits.toNat % Nat.pow 2 52

/-- Whether the sign bit is set, which it also is for negative zero. -/
def isNegative (d : Decimal) : Bool := Nat.pow 2 63 ≤ d.bits.toNat

/-- Whether the value is no number. -/
def isNaN (d : Decimal) : Bool := d.exponentField == 2047 && d.fraction != 0

/-- Whether the value is an infinity. -/
def isInfinite (d : Decimal) : Bool := d.exponentField == 2047 && d.fraction == 0

/-- Whether the value is a number. -/
def isFinite (d : Decimal) : Bool := d.exponentField != 2047

/-- The integer `m` of the magnitude `m · 2 ^ q`. -/
def significand (d : Decimal) : Nat :=
  if d.exponentField = 0 then d.fraction else Nat.pow 2 52 + d.fraction

/-- The exponent `q` of the magnitude `m · 2 ^ q`. -/
def exponent (d : Decimal) : Int :=
  if d.exponentField = 0 then -1074 else (d.exponentField : Int) - 1075

/-- The magnitude of a finite decimal as a quotient of integers. -/
def magnitude (d : Decimal) : Nat × Nat :=
  if 0 ≤ d.exponent then (d.significand * Nat.pow 2 d.exponent.toNat, 1)
  else (d.significand, Nat.pow 2 (-d.exponent).toNat)

/-- The integer that a finite decimal equals, if its magnitude is at most `2 ^ 53`, the range in
which every integer has a decimal of its own. -/
def integer? (d : Decimal) : Option Int :=
  let (num, den) := d.magnitude
  if d.isFinite && num % den == 0 && num / den ≤ Nat.pow 2 53 then
    some (if d.isNegative then -((num / den : Nat) : Int) else ((num / den : Nat) : Int))
  else none

/-- Whether two decimals are the same number; NaN is taken to equal itself, and the zeros are
equal. -/
def sameNumber (a b : Decimal) : Bool :=
  if a.isNaN || b.isNaN then a.isNaN && b.isNaN
  else a == b || (a.significand == 0 && b.significand == 0 && a.isFinite && b.isFinite)

/-! ### Rounding -/

/-- The decimal with the given sign and the bits of a magnitude. -/
def withSign (negative : Bool) (magnitudeBits : Nat) : Decimal :=
  ⟨UInt64.ofNat (if negative then Nat.pow 2 63 + magnitudeBits else magnitudeBits)⟩

/-- The bits of the infinite magnitude. -/
def infiniteBits : Nat := 2047 * Nat.pow 2 52

/-- Positive or negative infinity. -/
def infinity (negative : Bool) : Decimal := withSign negative infiniteBits

/-- The value that is no number. -/
def nan : Decimal := withSign false (infiniteBits + Nat.pow 2 51)

/-- The integer nearest to a quotient; of two equally near the even one. -/
def roundEven (num den : Nat) : Nat :=
  let whole := num / den
  let rest := num % den
  if 2 * rest < den then whole
  else if den < 2 * rest then whole + 1
  else if whole % 2 = 0 then whole else whole + 1

/-- The exponent of the highest power of two that does not exceed a positive quotient. -/
def binaryOrder (num den : Nat) : Int :=
  let guess : Int := (num.log2 : Int) - (den.log2 : Int)
  let reached :=
    if 0 ≤ guess then den * Nat.pow 2 guess.toNat ≤ num
    else den ≤ num * Nat.pow 2 (-guess).toNat
  if reached then guess else guess - 1

/-- The decimal nearest to `num / den`, a tie going to the even significand.  What exceeds the
largest finite decimal by half a step or more becomes infinite. -/
def ofRatio (negative : Bool) (num den : Nat) : Decimal :=
  if num = 0 then withSign negative 0
  else
    let q : Int := max (binaryOrder num den - 52) (-1074)
    let m :=
      if 0 ≤ q then roundEven num (den * Nat.pow 2 q.toNat)
      else roundEven (num * Nat.pow 2 (-q).toNat) den
    withSign negative (min ((q + 1074).toNat * Nat.pow 2 52 + m) infiniteBits)

/-- The decimal nearest to an integer. -/
def ofInt (n : Int) : Decimal := ofRatio (n < 0) n.natAbs 1

/-- The decimal nearest to `digits · 10 ^ exponent`.  Exponents far outside the range are answered
without computing the power. -/
def ofScientific (negative : Bool) (digits : Nat) (exponent : Int) : Decimal :=
  let size : Int := ((Nat.toDigits 10 digits).length : Int) + exponent
  if digits = 0 then withSign negative 0
  else if 400 < size then infinity negative
  else if size < -400 then withSign negative 0
  else if 0 ≤ exponent then ofRatio negative (digits * Nat.pow 10 exponent.toNat) 1
  else ofRatio negative digits (Nat.pow 10 (-exponent).toNat)

example : ofScientific false 1 (-1) = ⟨0x3fb999999999999a⟩ := by decide +kernel
example : ofScientific true 5 (-324) = ⟨0x8000000000000001⟩ := by decide +kernel
example : ofScientific false 17976931348623157 292 = ⟨0x7fefffffffffffff⟩ := by decide +kernel
example : ofScientific false 18 307 = infinity false := by decide +kernel

end Decimal

end OData
