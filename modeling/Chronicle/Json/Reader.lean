import Chronicle.Json.Basic

/-!
# Reading JSON text

The reader follows the grammar of JSON over a list of characters. Each step consumes at least
one character, so the length of the text bounds the depth of the recursion.

A whole number is read as an integer if it fits 64 bits. Any other number is read as a
significand of at most 64 bits and a power of ten, joined by one multiplication or division
in binary floating point, so long numbers may come out one unit away from the nearest.
-/

namespace Chronicle.Json

def skipBlanks : List Char → List Char
  | c :: rest => if c = ' ' ∨ c = '\n' ∨ c = '\t' ∨ c = '\r' then skipBlanks rest else c :: rest
  | [] => []

def digitValue (c : Char) : Nat :=
  c.toNat - 48

def hexValue? (c : Char) : Option Nat :=
  if '0' ≤ c ∧ c ≤ '9' then some (c.toNat - 48)
  else if 'a' ≤ c ∧ c ≤ 'f' then some (c.toNat - 87)
  else if 'A' ≤ c ∧ c ≤ 'F' then some (c.toNat - 55)
  else none

def readHex4 : List Char → Option (Nat × List Char)
  | a :: b :: c :: d :: rest => do
    let a ← hexValue? a
    let b ← hexValue? b
    let c ← hexValue? c
    let d ← hexValue? d
    some (((a * 16 + b) * 16 + c) * 16 + d, rest)
  | _ => none

/-- The rest of an escaped character, after the backslash; surrogates come in pairs. -/
def readEscape : List Char → Option (Char × List Char)
  | '"' :: rest => some ('"', rest)
  | '\\' :: rest => some ('\\', rest)
  | '/' :: rest => some ('/', rest)
  | 'b' :: rest => some ('\x08', rest)
  | 'f' :: rest => some ('\x0c', rest)
  | 'n' :: rest => some ('\n', rest)
  | 'r' :: rest => some ('\r', rest)
  | 't' :: rest => some ('\t', rest)
  | 'u' :: rest => do
    let (high, rest) ← readHex4 rest
    if 0xD800 ≤ high ∧ high < 0xDC00 then
      match rest with
      | '\\' :: 'u' :: rest => do
        let (low, rest) ← readHex4 rest
        if 0xDC00 ≤ low ∧ low < 0xE000 then
          some (Char.ofNat (0x10000 + (high - 0xD800) * 0x400 + (low - 0xDC00)), rest)
        else none
      | _ => none
    else if 0xDC00 ≤ high ∧ high < 0xE000 then none
    else some (Char.ofNat high, rest)
  | _ => none

def readChars : Nat → List Char → List Char → Option (String × List Char)
  | _, acc, '"' :: rest => some (String.ofList acc.reverse, rest)
  | fuel + 1, acc, '\\' :: rest => do
    let (c, rest) ← readEscape rest
    readChars fuel (c :: acc) rest
  | fuel + 1, acc, c :: rest => readChars fuel (c :: acc) rest
  | _, _, _ => none

def naturalOf (digits : List Nat) : Nat :=
  digits.foldl (fun acc d => acc * 10 + d) 0

/-- A significand with the power of ten it stands for. -/
structure Scaled where
  significand : Nat
  exponent : Int

/-- The largest significand kept while reading digits. -/
def significandLimit : Nat := 0xffffffffffffffff

/-- One digit before the decimal point: once the significand is full, further digits count
only by their place. -/
def Scaled.pushWhole (s : Scaled) (digit : Nat) : Scaled :=
  if s.exponent = 0 ∧ s.significand * 10 + digit ≤ significandLimit then
    ⟨s.significand * 10 + digit, 0⟩
  else ⟨s.significand, s.exponent + 1⟩

/-- Digits after the decimal point, until the significand is full. -/
def Scaled.pushFraction (s : Scaled) : List Nat → Scaled
  | [] => s
  | digit :: rest =>
    if s.significand * 10 + digit ≤ significandLimit then
      Scaled.pushFraction ⟨s.significand * 10 + digit, s.exponent - 1⟩ rest
    else s

/-- The floating-point number nearest to the significand, multiplied or divided by the power
of ten; `none` if the result is infinite. Powers beyond `10 ^ 308` are taken in steps. -/
def scale : Nat → Binary64 → Int → Option Binary64
  | 0, f, _ => some f
  | fuel + 1, f, exponent =>
    if exponent.natAbs ≤ 308 then
      let power := Binary64.powerOfTen exponent.natAbs
      if 0 ≤ exponent then
        let product := f.mul power
        if product.isFinite then some product else none
      else some (f.div power)
    else if f.isZero then some f
    else if 0 ≤ exponent then none
    else scale fuel (f.div (Binary64.powerOfTen 308)) (exponent + 308)

def Scaled.toFloat (s : Scaled) (negative : Bool) : Option Json :=
  (scale (s.exponent.natAbs / 308 + 2) (Binary64.ofNat s.significand) s.exponent).map fun f =>
    .float (if negative then f.neg else f)

def wholeNumber (negative : Bool) (digits : List Nat) : Option Json :=
  let n := naturalOf digits
  if negative then
    if n = 0 ∨ 0x8000000000000000 < n then
      (digits.foldl Scaled.pushWhole ⟨0, 0⟩).toFloat true
    else some (.int (-(n : Int)))
  else if n ≤ significandLimit then some (.int n)
  else (digits.foldl Scaled.pushWhole ⟨0, 0⟩).toFloat false

def takeDigits (cs : List Char) : List Nat × List Char :=
  ((cs.takeWhile Char.isDigit).map digitValue, cs.dropWhile Char.isDigit)

def readExponent : List Char → Option (Int × List Char)
  | c :: rest =>
    if c = 'e' ∨ c = 'E' then
      let (negative, rest) :=
        match rest with
        | '+' :: rest => (false, rest)
        | '-' :: rest => (true, rest)
        | _ => (false, rest)
      let (digits, rest) := takeDigits rest
      if digits = [] then none
      else
        let n := naturalOf digits
        some (if negative then -(n : Int) else n, rest)
    else some (0, c :: rest)
  | [] => some (0, [])

def startsExponent : List Char → Bool
  | c :: _ => c = 'e' || c = 'E'
  | [] => false

def readNumber (negative : Bool) (cs : List Char) : Option (Json × List Char) :=
  match takeDigits cs with
  | ([], _) => none
  | (0 :: _ :: _, _) => none
  | (whole, '.' :: rest) =>
    match takeDigits rest with
    | ([], _) => none
    | (fraction, rest) => do
      let (exponent, rest) ← readExponent rest
      let s := (whole.foldl Scaled.pushWhole ⟨0, 0⟩).pushFraction fraction
      let value ← Scaled.toFloat ⟨s.significand, s.exponent + exponent⟩ negative
      some (value, rest)
  | (whole, rest) =>
    if startsExponent rest then do
      let (exponent, rest) ← readExponent rest
      let s := whole.foldl Scaled.pushWhole ⟨0, 0⟩
      let value ← Scaled.toFloat ⟨s.significand, s.exponent + exponent⟩ negative
      some (value, rest)
    else (wholeNumber negative whole).map (·, rest)

mutual

def readValue : Nat → List Char → Option (Json × List Char)
  | 0, _ => none
  | fuel + 1, cs =>
    match skipBlanks cs with
    | 'n' :: 'u' :: 'l' :: 'l' :: rest => some (.null, rest)
    | 't' :: 'r' :: 'u' :: 'e' :: rest => some (.bool true, rest)
    | 'f' :: 'a' :: 'l' :: 's' :: 'e' :: rest => some (.bool false, rest)
    | '"' :: rest => do
      let (s, rest) ← readChars rest.length [] rest
      some (.string s, rest)
    | '[' :: rest =>
      match skipBlanks rest with
      | ']' :: rest => some (.array [], rest)
      | rest => do
        let (items, rest) ← readItems fuel rest
        some (.array items, rest)
    | '\x7b' :: rest =>
      match skipBlanks rest with
      | '\x7d' :: rest => some (.object [], rest)
      | rest => do
        let (fields, rest) ← readFields fuel rest
        some (ofFields fields, rest)
    | '-' :: rest => readNumber true rest
    | rest => readNumber false rest

def readItems : Nat → List Char → Option (List Json × List Char)
  | 0, _ => none
  | fuel + 1, cs => do
    let (value, rest) ← readValue fuel cs
    match skipBlanks rest with
    | ']' :: rest => some ([value], rest)
    | ',' :: rest => do
      let (values, rest) ← readItems fuel rest
      some (value :: values, rest)
    | _ => none

def readFields : Nat → List Char → Option (List (String × Json) × List Char)
  | 0, _ => none
  | fuel + 1, cs =>
    match skipBlanks cs with
    | '"' :: rest => do
      let (key, rest) ← readChars rest.length [] rest
      match skipBlanks rest with
      | ':' :: rest => do
        let (value, rest) ← readValue fuel rest
        match skipBlanks rest with
        | '\x7d' :: rest => some ([(key, value)], rest)
        | ',' :: rest => do
          let (fields, rest) ← readFields fuel rest
          some ((key, value) :: fields, rest)
        | _ => none
      | _ => none
    | _ => none

end

/-- The value written in a text, if the whole text is one JSON value. -/
def parse? (text : String) : Option Json :=
  let cs := text.toList
  match readValue (2 * cs.length + 1) cs with
  | some (value, rest) => if skipBlanks rest = [] then some value else none
  | none => none

end Chronicle.Json
