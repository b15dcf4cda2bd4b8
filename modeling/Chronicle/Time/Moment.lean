import Chronicle.Json.Decode
import Chronicle.Time.Calendar
import Chronicle.Time.Span

/-!
# Moments and their text

A moment is a count of seconds since the beginning of 1970 in universal time, with the
nanoseconds beyond it. A leap second is kept as the last second of its minute with a thousand
million nanoseconds or more.

Moments are written as in RFC 3339, in universal time, with as many groups of three decimal
places as they need. They are read leniently: blanks may stand before numbers and around
separators, and the offset may be a name for universal time or hours and minutes.
-/

namespace Chronicle

structure Moment where
  seconds : Int
  nanos : Nat
deriving DecidableEq, Inhabited, Repr

namespace Moment

def epoch : Moment := ⟨0, 0⟩

/-- The last moment that can be written, at the end of the year 262142. -/
def last : Moment := ⟨Calendar.dayNumber ⟨262142, 12, 31⟩ * 86400 + 86399, 999999999⟩

/-- Nanoseconds since the beginning of 1970. -/
def sinceEpoch (m : Moment) : Int := m.seconds * 1000000000 + m.nanos

def ofNanos (n : Int) : Moment := ⟨n / 1000000000, (n % 1000000000).toNat⟩

/-- The moment a span later, at most the last one. -/
def after (m : Moment) (s : Span) : Moment :=
  let n := m.sinceEpoch + s.nanos
  if n ≤ last.sinceEpoch then ofNanos n else last

/-- The span from one moment to a later one; `none` if the second is earlier. -/
def spanTo? (earlier later : Moment) : Option Span :=
  let n := later.sinceEpoch - earlier.sinceEpoch
  if 0 ≤ n then some ⟨n.toNat⟩ else none

def padded (width n : Nat) : String :=
  let digits := toString n
  String.ofList (List.replicate (width - digits.length) '0') ++ digits

/-- Four digits for the years 0 to 9999, and a sign for all others. -/
def yearText (year : Int) : String :=
  if 0 ≤ year ∧ year ≤ 9999 then padded 4 year.toNat
  else (if year < 0 then "-" else "+") ++ padded 4 year.natAbs

/-- The decimal places of a second: none, or three, six or nine. -/
def fractionText (nanos : Nat) : String :=
  if nanos = 0 then ""
  else if nanos % 1000000 = 0 then "." ++ padded 3 (nanos / 1000000)
  else if nanos % 1000 = 0 then "." ++ padded 6 (nanos / 1000)
  else "." ++ padded 9 nanos

def text (m : Moment) : String :=
  let date := Calendar.dateOf (m.seconds / 86400)
  let time := (m.seconds % 86400).toNat
  let second := time % 60 + m.nanos / 1000000000
  yearText date.year ++ "-" ++ padded 2 date.month ++ "-" ++ padded 2 date.day ++ "T" ++
    padded 2 (time / 3600) ++ ":" ++ padded 2 (time / 60 % 60) ++ ":" ++ padded 2 second ++
    fractionText (m.nanos % 1000000000) ++ "Z"

inductive Misread where
  | tooShort
  | invalid
  | outOfRange
  | impossible
  | trailing
deriving DecidableEq

def Misread.message : Misread → String
  | .tooShort => "premature end of input"
  | .invalid => "input contains invalid characters"
  | .outOfRange => "input is out of range"
  | .impossible => "no possible date and time matching input"
  | .trailing => "trailing input"

def isBlank (c : Char) : Bool :=
  let n := c.toNat
  (9 ≤ n && n ≤ 13) || n = 0x20 || n = 0x85 || n = 0xa0 || n = 0x1680 ||
    (0x2000 ≤ n && n ≤ 0x200a) || n = 0x2028 || n = 0x2029 || n = 0x202f || n = 0x205f ||
    n = 0x3000

def skipBlanks (cs : List Char) : List Char := cs.dropWhile isBlank

def naturalOf (digits : List Char) : Nat :=
  digits.foldl (fun acc c => acc * 10 + (c.toNat - 48)) 0

def readDigits (width : Nat) (cs : List Char) : Except Misread (List Char × List Char) :=
  let digits := (cs.take width).takeWhile Char.isDigit
  if digits.isEmpty then .error (if cs.isEmpty then .tooShort else .invalid)
  else .ok (digits, cs.drop digits.length)

def readNumber (least greatest : Nat) (cs : List Char) :
    Except Misread (Nat × List Char) := do
  let (digits, rest) ← readDigits 2 (skipBlanks cs)
  let n := naturalOf digits
  if least ≤ n ∧ n ≤ greatest then .ok (n, rest) else .error .outOfRange

/-- A year, after blanks: up to four digits, or a sign and any number of digits. It has to be a
number of 32 bits. -/
def readYear (cs : List Char) : Except Misread (Int × List Char) := do
  let (year, rest) ←
    match skipBlanks cs with
    | '+' :: rest => do
      let (digits, rest) ← readDigits rest.length rest
      pure ((naturalOf digits : Int), rest)
    | '-' :: rest => do
      let (digits, rest) ← readDigits rest.length rest
      pure (-(naturalOf digits : Int), rest)
    | rest => do
      let (digits, rest) ← readDigits 4 rest
      pure ((naturalOf digits : Int), rest)
  if -0x80000000 ≤ year ∧ year < 0x80000000 then .ok (year, rest) else .error .outOfRange

def readMark (mark : Char) (cs : List Char) : Except Misread (List Char) :=
  match skipBlanks cs with
  | c :: rest => if c = mark then .ok rest else .error .invalid
  | [] => .error .tooShort

def readDivider : List Char → Except Misread (List Char)
  | 'T' :: rest | 't' :: rest | ' ' :: rest => .ok rest
  | [] => .error .tooShort
  | _ => .error .invalid

/-- A fraction of a second in nanoseconds; digits beyond the ninth are skipped. -/
def readFraction : List Char → Except Misread (Nat × List Char)
  | '.' :: rest => do
    let (digits, rest) ← readDigits 9 rest
    .ok (naturalOf digits * Nat.pow 10 (9 - digits.length), rest.dropWhile Char.isDigit)
  | cs => .ok (0, cs)

def readPair : List Char → Except Misread (Nat × List Char)
  | a :: b :: rest =>
    if a.isDigit ∧ b.isDigit then .ok (naturalOf [a, b], rest) else .error .invalid
  | [a] => .error (if a.utf8Size = 1 then .tooShort else .invalid)
  | [] => .error .tooShort

/-- Colons and blanks between the hours and the minutes of an offset. -/
def skipColons (cs : List Char) : List Char :=
  cs.dropWhile fun c => c = ':' || isBlank c

def readOffset (cs : List Char) : Except Misread (Int × List Char) :=
  match cs with
  | 'Z' :: rest | 'z' :: rest => .ok (0, rest)
  | sign :: rest =>
    if ((cs.take 3).map Char.toLower) = ['u', 't', 'c'] then .ok (0, cs.drop 3)
    else if sign = '+' ∨ sign = '-' ∨ sign = '−' then do
      let (hours, rest) ← readPair rest
      let (minutes, rest) ← readPair (skipColons rest)
      let n : Int := (hours * 3600 + minutes * 60 : Nat)
      if minutes < 60 then .ok (if sign = '+' then n else -n, rest)
      else .error .outOfRange
    else .error .invalid
  | [] => .error .tooShort

def yearInRange (year : Int) : Bool := -262143 ≤ year && year ≤ 262142

/-- The moment of a local date and time at an offset from universal time. -/
def ofCivil (date : Calendar.Date) (hour minute second nanos : Nat) (offset : Int) :
    Except Misread Moment :=
  if yearInRange date.year ∧ date.isValid ∧ offset.natAbs < 86400 then
    let leap := second = 60
    let time := hour * 3600 + minute * 60 + (if leap then 59 else second)
    let seconds := Calendar.dayNumber date * 86400 + (time : Int) - offset
    if yearInRange (Calendar.dateOf (seconds / 86400)).year then
      .ok ⟨seconds, if leap then 1000000000 + nanos else nanos⟩
    else .error .impossible
  else .error .outOfRange

def parse (text : String) : Except Misread Moment := do
  let (year, cs) ← readYear text.toList
  let cs ← readMark '-' cs
  let (month, cs) ← readNumber 1 12 cs
  let cs ← readMark '-' cs
  let (day, cs) ← readNumber 1 31 cs
  let cs ← readDivider cs
  let (hour, cs) ← readNumber 0 23 cs
  let cs ← readMark ':' cs
  let (minute, cs) ← readNumber 0 59 cs
  let cs ← readMark ':' cs
  let (second, cs) ← readNumber 0 60 cs
  let (nanos, cs) ← readFraction cs
  let (offset, cs) ← readOffset (skipBlanks cs)
  if (skipBlanks cs).isEmpty then ofCivil ⟨year, month, day⟩ hour minute second nanos offset
  else .error .trailing

def toJson (m : Moment) : Json := .string m.text

def decode : Json.Decoder Moment
  | .string s => (parse s).mapError fun why => .malformed why.message
  | v => Json.Decoder.wrongType v "an RFC 3339 formatted date and time string"

end Moment

end Chronicle
