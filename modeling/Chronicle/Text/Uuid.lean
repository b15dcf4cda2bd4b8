import Chronicle.Json.Decode
import Chronicle.Json.Writer

/-!
# Universally unique identifiers

An identifier is a number of 128 bits. It is written as 32 hexadecimal digits in five groups
and read in that form, without hyphens, in braces, or as a name with the scheme `urn:uuid:`,
with letters of either case.
-/

namespace Chronicle

structure Uuid where
  value : BitVec 128
deriving DecidableEq, Inhabited

namespace Uuid

def nil : Uuid := ⟨0⟩

def hexDigits : Nat → Nat → List Char
  | 0, _ => []
  | width + 1, n => hexDigits width (n / 16) ++ [Json.hexDigit (n % 16)]

def hyphenate (cs : List Char) : List Char :=
  cs.take 8 ++ '-' :: (cs.drop 8).take 4 ++ '-' :: (cs.drop 12).take 4 ++
    '-' :: (cs.drop 16).take 4 ++ '-' :: cs.drop 20

def text (u : Uuid) : String :=
  String.ofList (hyphenate (hexDigits 32 u.value.toNat))

def digitValue? (c : Char) : Option Nat :=
  if '0' ≤ c ∧ c ≤ '9' then some (c.toNat - 48)
  else if 'a' ≤ c ∧ c ≤ 'f' then some (c.toNat - 87)
  else if 'A' ≤ c ∧ c ≤ 'F' then some (c.toNat - 55)
  else none

def readHex (cs : List Char) : Option Nat :=
  cs.foldl (fun acc c => do
    let n ← acc
    let d ← digitValue? c
    some (n * 16 + d)) (some 0)

def readDigits (cs : List Char) : Option Uuid :=
  if cs.length = 32 then (readHex cs).map fun n => ⟨BitVec.ofNat 128 n⟩ else none

def readGroups (cs : List Char) : Option Uuid :=
  let digits := cs.filter (· != '-')
  if cs = hyphenate digits then readDigits digits else none

/-- What stands in braces or behind the scheme of identifiers as names. -/
structure Wrapped where
  body : List Char
  before : Nat
  /-- How many bytes stand before and after the body. -/
  around : Nat

/-- What a text wraps, if it is in braces or begins with the scheme in letters of either case. -/
def wrapped? (cs : List Char) : Option Wrapped :=
  if cs.head? = some '\x7b' ∧ cs.getLast? = some '\x7d' then
    some ⟨(cs.drop 1).dropLast, 1, 2⟩
  else if (cs.take 9).map Char.toLower = "urn:uuid:".toList then some ⟨cs.drop 9, 9, 9⟩
  else none

/-- What has to be the hyphenated form in a text: the text or what it wraps, whichever has the
36 bytes of that form. -/
def hyphenated? (text : String) : Option (List Char) :=
  let size := text.utf8ByteSize
  if size = 36 then some text.toList
  else (wrapped? text.toList).bind fun w => if size = 36 + w.around then some w.body else none

/-- Read an identifier in any of its written forms. -/
def parse? (text : String) : Option Uuid :=
  match hyphenated? text with
  | some body => readGroups body
  | none => readDigits text.toList

inductive Misread where
  /-- A character that is neither a digit nor a hyphen, and how many bytes stand before it. -/
  | character (c : Char) (position : Nat)
  /-- Another number of bytes, in a bare number or in a text longer than all written forms. -/
  | length (found : Nat)
  | groups (found : Nat)
  | group (index expected found : Nat)
deriving DecidableEq

def Misread.message : Misread → String
  | .character c position =>
    "invalid character: found `" ++ c.toString ++ "` at " ++ toString position
  | .length found => "invalid length: found " ++ toString found
  | .groups found => "invalid group count: expected 5, found " ++ toString found
  | .group index expected found =>
    "invalid group length in group " ++ toString index ++ ": expected " ++ toString expected ++
      ", found " ++ toString found

/-- The first character that is neither a digit nor a hyphen, with its position. -/
def firstStray : List Char → Nat → Option Misread
  | [], _ => none
  | c :: rest, position =>
    if c = '-' ∨ (digitValue? c).isSome then firstStray rest (position + c.utf8Size)
    else some (.character c position)

def groupsOf : List Char → List (List Char)
  | [] => [[]]
  | c :: rest =>
    match groupsOf rest with
    | [] => [[c]]
    | g :: gs => if c = '-' then [] :: g :: gs else (c :: g) :: gs

/-- What is wrong with the groups: their number, or the length of the first one that differs.
The last group is to blame if no other is, and what surrounds the groups counts towards it. -/
def misfit (around : Nat) : List (List Char) → Misread
  | [a, b, c, d, e] =>
    if a.length ≠ 8 then .group 0 8 a.length
    else if b.length ≠ 4 then .group 1 4 b.length
    else if c.length ≠ 4 then .group 2 4 c.length
    else if d.length ≠ 4 then .group 3 4 d.length
    else .group 4 12 (e.length + around)
  | groups => .groups groups.length

/-- What is wrong with a text that is not an identifier. In a text of the size of a hyphenated
form, positions count from the front of that form. -/
def misread (text : String) : Misread :=
  let cs := text.toList
  let size := text.utf8ByteSize
  if 45 < size then .length size
  else
    match hyphenated? text, wrapped? cs with
    | some body, _ => (firstStray body 0).getD (misfit 0 (groupsOf body))
    | none, some w => (firstStray w.body w.before).getD (misfit w.around (groupsOf w.body))
    | none, none =>
      (firstStray cs 0).getD (if cs.contains '-' then misfit 0 (groupsOf cs) else .length size)

def toJson (u : Uuid) : Json := .string u.text

def decode : Json.Decoder Uuid
  | .string s =>
    match parse? s with
    | some u => .ok u
    | none => .error (.malformed ("UUID parsing failed: " ++ (misread s).message))
  | v => Json.Decoder.wrongType v "a formatted UUID string"

end Uuid

end Chronicle
