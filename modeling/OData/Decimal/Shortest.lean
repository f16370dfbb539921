/-
The shortest digits that read back as a decimal.

Among all numbers `w · 10 ^ k` that lie in the interval of reals rounding to a given decimal, the
shortest text is one with the greatest `k`; among those with that `k`, it is the one nearest to the
decimal.  Two may be equally near, and `Tie` says which is taken.

* `Decimal.Interval` — the reals that round to a decimal, as integers over a common denominator;
* `Decimal.shortest` — the chosen `w` and `k`.
-/

import OData.Decimal.Basic

set_option relaxedAutoImplicit false
set_option autoImplicit false

namespace OData.Decimal

/-- Which of two equally near candidates is taken. -/
inductive Tie where
  /-- The one of larger magnitude. -/
  | away
  /-- The one with an even last digit. -/
  | even
deriving DecidableEq

/-- The reals that round to a positive decimal: `low / unit` to `high / unit` around
`centre / unit`. -/
structure Interval where
  low : Nat
  centre : Nat
  high : Nat
  unit : Nat
  /-- Whether the ends belong to the interval. -/
  closed : Bool

/-- The interval of a positive finite decimal.  Its ends lie half way to the neighbours, and the
lower neighbour is nearer where the exponent changes. -/
def interval (d : Decimal) : Interval :=
  let below := if d.fraction = 0 ∧ 1 < d.exponentField then 1 else 2
  let quarter := d.exponent - 2
  let scale := if 0 ≤ quarter then Nat.pow 2 quarter.toNat else 1
  let unit := if 0 ≤ quarter then 1 else Nat.pow 2 (-quarter).toNat
  { low := (4 * d.significand - below) * scale
    centre := 4 * d.significand * scale
    high := (4 * d.significand + 2) * scale
    unit
    closed := d.significand % 2 = 0 }

namespace Interval

/-- The interval seen on the grid of multiples of `10 ^ k`, so that grid points are integers. -/
def onGrid (i : Interval) (k : Int) : Interval :=
  if 0 ≤ k then { i with unit := i.unit * Nat.pow 10 k.toNat }
  else
    let scale := Nat.pow 10 (-k).toNat
    { i with low := i.low * scale, centre := i.centre * scale, high := i.high * scale }

/-- Whether an integer lies in the interval. -/
def contains (i : Interval) (w : Nat) : Bool :=
  let point := w * i.unit
  if i.closed then i.low ≤ point && point ≤ i.high else i.low < point && point < i.high

/-- The integer of the interval nearest to its centre, if there is one.  It is one of the two
neighbours of the centre. -/
def nearest? (tie : Tie) (i : Interval) : Option Nat :=
  let floor := i.centre / i.unit
  let rest := i.centre % i.unit
  match i.contains floor, i.contains (floor + 1) with
  | false, false => none
  | true, false => some floor
  | false, true => some (floor + 1)
  | true, true =>
    if 2 * rest < i.unit then some floor
    else if i.unit < 2 * rest then some (floor + 1)
    else match tie with
      | .away => some (floor + 1)
      | .even => some (if floor % 2 = 0 then floor else floor + 1)

end Interval

/-- Tries the grids `10 ^ k`, `10 ^ (k - 1)`, … and takes the first that meets the interval. -/
def firstGrid (tie : Tie) (i : Interval) : Nat → Int → Nat × Int
  | 0, k => (0, k)
  | fuel + 1, k =>
    match (i.onGrid k).nearest? tie with
    | some w => (w, k)
    | none => firstGrid tie i fuel (k - 1)

/-- The exponent of the highest power of ten that does not exceed a positive quotient. -/
def decimalOrder (num den : Nat) : Int :=
  let guess : Int :=
    ((Nat.toDigits 10 num).length : Int) - ((Nat.toDigits 10 den).length : Int)
  let reached :=
    if 0 ≤ guess then den * Nat.pow 10 guess.toNat ≤ num
    else den ≤ num * Nat.pow 10 (-guess).toNat
  if reached then guess else guess - 1

/-- The shortest `w · 10 ^ k` that reads back as the magnitude of a finite decimal; zero is
`0 · 10 ^ 0`.  Seventeen digits always suffice. -/
def shortest (tie : Tie) (d : Decimal) : Nat × Int :=
  if d.significand = 0 then (0, 0)
  else
    let (num, den) := d.magnitude
    firstGrid tie d.interval 19 (decimalOrder num den + 1)

example : shortest .even ⟨0x3fb999999999999a⟩ = (1, -1) := by decide +kernel
example : shortest .even ⟨1⟩ = (5, -324) := by decide +kernel
example : shortest .even ⟨0x3e60000000000000⟩ = (29802322387695312, -24) := by decide +kernel
example : shortest .away ⟨0x3e60000000000000⟩ = (29802322387695313, -24) := by decide +kernel

end OData.Decimal
