import Chronicle.Text.Picture

/-!
# Spans of time

A span is a length of time in whole nanoseconds.
-/

namespace Chronicle

/-- A length of time in nanoseconds. -/
structure Span where
  nanos : Nat
deriving DecidableEq, Inhabited, Repr

namespace Span

instance : LE Span := ⟨fun a b => a.nanos ≤ b.nanos⟩
instance : LT Span := ⟨fun a b => a.nanos < b.nanos⟩
instance (a b : Span) : Decidable (a ≤ b) := inferInstanceAs (Decidable (a.nanos ≤ b.nanos))
instance (a b : Span) : Decidable (a < b) := inferInstanceAs (Decidable (a.nanos < b.nanos))
instance : Add Span := ⟨fun a b => ⟨a.nanos + b.nanos⟩⟩
instance : Sub Span := ⟨fun a b => ⟨a.nanos - b.nanos⟩⟩

def zero : Span := ⟨0⟩

/-- The last time that a clock can show: it counts its seconds with 63 bits. -/
def latest : Span := ⟨0x7fffffffffffffff * 1000000000 + 999999999⟩

def ofMillis (n : Nat) : Span := ⟨n * 1000000⟩

def ofSeconds (n : Nat) : Span := ⟨n * 1000000000⟩

def seconds (s : Span) : Nat := s.nanos / 1000000000

def subsecond (s : Span) : Nat := s.nanos % 1000000000

def millis (s : Span) : Nat := s.nanos / 1000000

/-- The milliseconds of a span, with one more for a part of one. -/
def millisUp (s : Span) : Nat := (s.nanos + 999999) / 1000000

/-- A fraction of `width` decimal places without its trailing zeros, behind a point if any
are left. -/
def fractionText (width part : Nat) : String :=
  let digits := toString part
  let padded := List.replicate (width - digits.length) '0' ++ digits.toList
  match (padded.reverse.dropWhile (· == '0')).reverse with
  | [] => ""
  | cs => "." ++ String.ofList cs

/-- A span in the largest unit of seconds, milliseconds, microseconds and nanoseconds of which
it holds at least one. -/
def text (s : Span) : String :=
  if 1000000000 ≤ s.nanos then toString s.seconds ++ fractionText 9 s.subsecond ++ "s"
  else if 1000000 ≤ s.nanos then
    toString (s.nanos / 1000000) ++ fractionText 6 (s.nanos % 1000000) ++ "ms"
  else if 1000 ≤ s.nanos then
    toString (s.nanos / 1000) ++ fractionText 3 (s.nanos % 1000) ++ "µs"
  else toString s.nanos ++ "ns"

def picture (s : Span) : Text.Picture := .word s.text

end Span

end Chronicle
