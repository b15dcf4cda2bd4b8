import Chronicle.Json.Basic
import Chronicle.Text.Uuid
import Chronicle.Time.Moment

/-!
# Masks

Two runs of the same program differ in the identifiers they draw and in the times they read.
A mask replaces both in a report, so that reports can be compared: identifiers are numbered in
the order in which they appear, and current times become one word. Identifiers that were known
before stay as they are.
-/

namespace Chronicle.Report

/-- The identifier in hyphenated form that stands at the front of a text, as it is written. -/
def uuidAt (cs : List Char) : Option String := (Uuid.readGroups (cs.take 36)).map Uuid.text

/-- Which identifiers and times a mask hides. -/
structure Mask where
  isKnown : String → Bool
  isCurrent : Moment → Bool

namespace Mask

def keeps (m : Mask) (u : String) : Bool := u = Uuid.nil.text || m.isKnown u

/-- Replace the identifiers in a text; `skip` characters belong to one that was replaced. The
list holds the identifiers seen so far, in order. -/
def chars (m : Mask) : Nat → List Char → List String → List Char × List String
  | _, [], seen => ([], seen)
  | skip + 1, _ :: rest, seen => chars m skip rest seen
  | 0, c :: rest, seen =>
    match (uuidAt (c :: rest)).filter (!m.keeps ·) with
    | none =>
      let (tail, seen) := chars m 0 rest seen
      (c :: tail, seen)
    | some u =>
      let seen := if seen.contains u then seen else seen ++ [u]
      let name := "<uuid:" ++ toString (seen.idxOf u) ++ ">"
      let (tail, seen) := chars m 35 rest seen
      (name.toList ++ tail, seen)

def text (m : Mask) (s : String) (seen : List String) : String × List String :=
  if (Moment.parse s).toOption.any m.isCurrent then ("<now>", seen)
  else
    let (cs, seen) := m.chars 0 s.toList seen
    (String.ofList cs, seen)

mutual

/-- Mask a value: arrays in order, objects in the order of their keys. -/
def value (m : Mask) : Json → List String → Json × List String
  | .string s, seen =>
    let (s, seen) := m.text s seen
    (.string s, seen)
  | .array items, seen =>
    let (items, seen) := valueItems m items seen
    (.array items, seen)
  | .object fields, seen =>
    let (fields, seen) := valueFields m fields seen
    (.object fields, seen)
  | .null, seen => (.null, seen)
  | .bool b, seen => (.bool b, seen)
  | .int n, seen => (.int n, seen)
  | .float x, seen => (.float x, seen)

def valueItems (m : Mask) : List Json → List String → List Json × List String
  | [], seen => ([], seen)
  | v :: rest, seen =>
    let (v, seen) := value m v seen
    let (rest, seen) := valueItems m rest seen
    (v :: rest, seen)

def valueFields (m : Mask) :
    List (String × Json) → List String → List (String × Json) × List String
  | [], seen => ([], seen)
  | (k, v) :: rest, seen =>
    let (v, seen) := value m v seen
    let (rest, seen) := valueFields m rest seen
    ((k, v) :: rest, seen)

end

/-- The mask of a report on a request: it hides identifiers that the text of the request, in
lower case, does not hold, and the time that the clock shows. -/
def ofRequest (request : String) (now : Moment) : Mask where
  isKnown u := Text.contains request u
  isCurrent m := m = now

def apply (m : Mask) (v : Json) : Json := (m.value v []).1

end Mask

end Chronicle.Report
