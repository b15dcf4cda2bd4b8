import Chronicle.Number.Shortest

/-!
# The written form of a floating-point number

A number near the decimal point is written positionally, a whole one with `.0` behind it. A
number far from the point is written with one digit before the point and an exponent of ten
that carries its sign.
-/

namespace Chronicle

/-- Where a number may do without an exponent: the count of digits before its decimal point
lies above `lowest` and not above `highest`. -/
structure NumberLayout where
  lowest : Int
  highest : Int
deriving DecidableEq, Inhabited

namespace NumberLayout

/-- Numbers of JSON: positional from five places after the point to sixteen before it. -/
def json : NumberLayout := ⟨-5, 16⟩

def zeros (n : Int) : String :=
  String.ofList (List.replicate n.toNat '0')

/-- The digits with the point after the first `point` of them; whole numbers end in `.0`. -/
def positionalText (digits : String) (point : Int) : String :=
  if point ≤ 0 then "0." ++ zeros (-point) ++ digits
  else if (digits.length : Int) ≤ point then digits ++ zeros (point - digits.length) ++ ".0"
  else
    String.ofList (digits.toList.take point.toNat) ++ "." ++
      String.ofList (digits.toList.drop point.toNat)

/-- One digit, the others behind a point if there are any, and the exponent of ten. -/
def exponentText (digits : String) (point : Int) : String :=
  let mantissa :=
    match digits.toList with
    | [] => ""
    | [d] => d.toString
    | d :: rest => d.toString ++ "." ++ String.ofList rest
  let exponent := point - 1
  mantissa ++ (if exponent < 0 then "e-" else "e+") ++ toString exponent.natAbs

def decimalText (layout : NumberLayout) (d : Decimal) : String :=
  let digits := toString d.digits
  let point : Int := if d.digits = 0 then 1 else (digits.length : Int) + d.exponent
  if layout.lowest < point ∧ point ≤ layout.highest then positionalText digits point
  else exponentText digits point

/-- The text of a finite number: its sign and its shortest decimal. -/
def text (layout : NumberLayout) (x : Binary64) : String :=
  (if x.negative then "-" else "") ++ layout.decimalText x.shortest

end NumberLayout

end Chronicle
