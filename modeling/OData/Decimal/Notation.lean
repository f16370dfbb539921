/-
Decimals as text.

Two notations are in use.  The positional one never has an exponent, however long the number gets,
and shows no fraction for an integer.  The scientific one is that of JSON text: positional while the
leading digit stands between the fifth place after the point and the sixteenth before it, always
with a fraction, and otherwise a mantissa with a signed exponent.

* `Decimal.positional` — `1e21` is `1000000000000000000000`, and negative zero is `-0`;
* `Decimal.scientific` — `9007199254740994.0`, `1.5e+300`, `1e-7`.
-/

import OData.Decimal.Shortest

set_option relaxedAutoImplicit false
set_option autoImplicit false

namespace OData.Decimal

/-- Digits of `w · 10 ^ k` around a decimal point, without a fraction if `k` is not negative. -/
def placePoint (w : Nat) (k : Int) : List Char :=
  let digits := Nat.toDigits 10 w
  if 0 ≤ k then
    if w = 0 then digits else digits ++ List.replicate k.toNat '0'
  else
    let places := (-k).toNat
    if digits.length ≤ places then
      '0' :: '.' :: (List.replicate (places - digits.length) '0' ++ digits)
    else
      digits.take (digits.length - places) ++ '.' :: digits.drop (digits.length - places)

/-- The sign and the digits of a decimal, never with an exponent.  Of two shortest texts equally
near, the one of larger magnitude is taken. -/
def positional (d : Decimal) : String :=
  let sign := if d.isNegative then "-" else ""
  if d.isNaN then "NaN"
  else if d.isInfinite then sign ++ "inf"
  else
    let (w, k) := shortest .away d
    sign ++ String.ofList (placePoint w k)

/-- A mantissa of one digit before the point, and a signed exponent. -/
def mantissa (w : Nat) (k : Int) : List Char :=
  let digits := Nat.toDigits 10 w
  let order := k + (digits.length : Int) - 1
  let rest := digits.drop 1
  digits.take 1 ++ (if rest.isEmpty then [] else '.' :: rest) ++
    'e' :: (if order < 0 then '-' else '+') :: Nat.toDigits 10 order.natAbs

/-- The text of a finite decimal in a JSON text.  Of two shortest texts equally near, the one with
an even last digit is taken. -/
def scientific (d : Decimal) : String :=
  let sign := if d.isNegative then "-" else ""
  let (w, k) := shortest .even d
  let order := k + ((Nat.toDigits 10 w).length : Int) - 1
  let body :=
    if -5 ≤ order ∧ order ≤ 15 then
      placePoint w k ++ (if 0 ≤ k then ['.', '0'] else [])
    else mantissa w k
  sign ++ String.ofList body

end OData.Decimal
