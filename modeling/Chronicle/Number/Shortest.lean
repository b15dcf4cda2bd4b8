import Chronicle.Number.Binary64

/-!
# The fewest decimal digits that read back

A finite number owns the interval of reals that round to it. Among the decimal grids, coarsest
first, `shortest` takes the first one with a point in that interval, and on it the point
nearest to the number; of two points equally near it takes the one with the even last digit.
-/

namespace Chronicle

/-- The decimal number `digits · 10 ^ exponent`. -/
structure Decimal where
  digits : Nat
  exponent : Int
deriving DecidableEq, Inhabited

namespace Decimal

def digitCount (n : Nat) : Nat :=
  (Nat.toDigits 10 n).length

/-- The largest `p` with `10 ^ p ≤ num / den`, for a positive ratio. -/
def magnitude (num den : Nat) : Int :=
  if den ≤ num then (digitCount (num / den) : Int) - 1
  else -(digitCount ((den + num - 1) / num - 1) : Int)

def normalizeWith : Nat → Decimal → Decimal
  | 0, d => d
  | fuel + 1, d =>
    if d.digits ≠ 0 ∧ d.digits % 10 = 0 then
      normalizeWith fuel ⟨d.digits / 10, d.exponent + 1⟩
    else d

def normalize (d : Decimal) : Decimal :=
  normalizeWith (digitCount d.digits) d

def scaleRatio (num den : Nat) (e : Int) : Nat × Nat :=
  if e < 0 then (num * Nat.pow 10 (-e).toNat, den) else (num, den * Nat.pow 10 e.toNat)

end Decimal

namespace Binary64

/-- The interval of magnitudes that round to `x`, as numerators over the common
denominator of the third part; the ends belong to it when the significand is even. Below a
power of two the neighbours are half as far apart. -/
def roundingInterval (x : Binary64) : Nat × Nat × Nat :=
  let m := x.significand
  let q := x.exponent - 2
  let low := if m = leadingBit ∧ -1074 < x.exponent then 4 * m - 1 else 4 * m - 2
  let high := 4 * m + 2
  if q < 0 then (low, high, Nat.pow 2 (-q).toNat)
  else (low * Nat.pow 2 q.toNat, high * Nat.pow 2 q.toNat, 1)

/-- Whether `digits · 10 ^ e` rounds to the magnitude of `x`. -/
def readsBack (x : Binary64) (digits : Nat) (e : Int) : Bool :=
  let (low, high, den) := x.roundingInterval
  let (n, d) :=
    if e < 0 then (digits, Nat.pow 10 (-e).toNat) else (digits * Nat.pow 10 e.toNat, 1)
  if x.significand % 2 = 0 then low * d ≤ n * den && n * den ≤ high * d
  else low * d < n * den && n * den < high * d

/-- The point of the grid `10 ^ e` that reads back and is nearest to `x`, if there is one. -/
def nearestOnGrid (x : Binary64) (e : Int) : Option Nat :=
  let (num, den) := x.ratio
  let (n, d) := Decimal.scaleRatio num den e
  let below := n / d
  let rest := n % d
  match x.readsBack below e, x.readsBack (below + 1) e with
  | true, true =>
    if 2 * rest < d then some below
    else if d < 2 * rest then some (below + 1)
    else if below % 2 = 0 then some below else some (below + 1)
  | true, false => some below
  | false, true => some (below + 1)
  | false, false => none

/-- The digits of the magnitude of a finite number other than zero, on the first grid of
`digits, digits + 1, …` significant digits that has a point in the rounding interval. -/
def shortestFrom (x : Binary64) (top : Int) : Nat → Nat → Decimal
  | 0, _ => ⟨x.significand, x.exponent⟩
  | fuel + 1, digits =>
    let e := top - digits + 1
    match x.nearestOnGrid e with
    | some n => ⟨n, e⟩
    | none => x.shortestFrom top fuel (digits + 1)

/-- The shortest decimal that reads back as the magnitude of a finite number. Seventeen digits
are always enough. -/
def shortest (x : Binary64) : Decimal :=
  if x.isZero then ⟨0, 0⟩
  else
    let (num, den) := x.ratio
    (x.shortestFrom (Decimal.magnitude num den) 18 1).normalize

end Binary64

end Chronicle
