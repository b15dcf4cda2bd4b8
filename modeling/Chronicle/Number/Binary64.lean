/-!
# Binary floating-point numbers of 64 bits

A number is kept as its bit pattern, so that two numbers are equal exactly when they are
stored alike: `0` and `-0` differ. Arithmetic goes through exact ratios of natural numbers
and one rounding step, to the nearest representable number with ties to the even one.
-/

namespace Chronicle

/-- A 64-bit binary floating-point number: one sign bit, eleven bits of exponent and 52 bits
of fraction. -/
structure Binary64 where
  bits : UInt64
deriving DecidableEq, Inhabited

namespace Binary64

def negative (x : Binary64) : Bool :=
  x.bits >>> 63 == 1

def biasedExponent (x : Binary64) : Nat :=
  ((x.bits >>> 52) &&& 0x7ff).toNat

def fraction (x : Binary64) : Nat :=
  (x.bits &&& 0xfffffffffffff).toNat

def isFinite (x : Binary64) : Bool :=
  x.biasedExponent != 2047

/-- The implicit leading bit of a significand, `2 ^ 52`: one step of the exponent bits. -/
def leadingBit : Nat :=
  0x10000000000000

def signBit : Nat :=
  0x8000000000000000

/-- The natural number `m` of the magnitude `m · 2 ^ q` of a finite number. -/
def significand (x : Binary64) : Nat :=
  if x.biasedExponent = 0 then x.fraction else leadingBit + x.fraction

/-- The exponent `q` of the magnitude `m · 2 ^ q` of a finite number. -/
def exponent (x : Binary64) : Int :=
  if x.biasedExponent = 0 then -1074 else (x.biasedExponent : Int) - 1075

def isZero (x : Binary64) : Bool :=
  x.significand == 0

def withSign (negative : Bool) (magnitude : Nat) : Binary64 :=
  ⟨UInt64.ofNat (if negative then signBit + magnitude else magnitude)⟩

/-- The pattern that follows the largest finite magnitude. -/
def infiniteMagnitude : Nat :=
  2047 * leadingBit

/-- The natural number nearest to `num / den`, the even one of two that are equally near. -/
def roundRatio (num den : Nat) : Nat :=
  let quotient := num / den
  let rest := num % den
  if 2 * rest < den then quotient
  else if den < 2 * rest then quotient + 1
  else if quotient % 2 = 0 then quotient else quotient + 1

def scaleRatio (num den : Nat) (q : Int) : Nat × Nat :=
  if q < 0 then (num * Nat.pow 2 (-q).toNat, den) else (num, den * Nat.pow 2 q.toNat)

/-- The representable number nearest to `± num / den`; magnitudes beyond the largest finite
one become infinite. A significand of `2 ^ 53` carries into the exponent bits by itself. -/
def ofRatio (negative : Bool) (num den : Nat) : Binary64 :=
  if num = 0 then withSign negative 0
  else
    let guess : Int := max ((num.log2 : Int) - den.log2 - 53) (-1074)
    let (n, d) := scaleRatio num den guess
    let q := if n / d < 2 * leadingBit then guess else guess + 1
    let (n, d) := scaleRatio num den q
    let m := roundRatio n d
    let magnitude :=
      if m < leadingBit then m else (q + 1075).toNat * leadingBit + (m - leadingBit)
    withSign negative (min magnitude infiniteMagnitude)

def ofNat (n : Nat) : Binary64 :=
  ofRatio false n 1

/-- The exact magnitude of a finite number, as a ratio. -/
def ratio (x : Binary64) : Nat × Nat :=
  scaleRatio x.significand 1 (-x.exponent)

/-- The product of two finite numbers, rounded once. -/
def mul (x y : Binary64) : Binary64 :=
  let (a, b) := x.ratio
  let (c, d) := y.ratio
  ofRatio (x.negative != y.negative) (a * c) (b * d)

/-- The quotient of a finite number by a finite number other than zero, rounded once. -/
def div (x y : Binary64) : Binary64 :=
  let (a, b) := x.ratio
  let (c, d) := y.ratio
  ofRatio (x.negative != y.negative) (a * d) (b * c)

def neg (x : Binary64) : Binary64 :=
  ⟨x.bits ^^^ .ofNat signBit⟩

def powerOfTen (n : Nat) : Binary64 :=
  ofRatio false (Nat.pow 10 n) 1

end Binary64

end Chronicle
