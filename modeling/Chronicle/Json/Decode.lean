import Chronicle.Json.Basic
import Chronicle.Number.Layout
import Chronicle.Text.Quoted

/-!
# Typed reading of JSON values

A decoder turns a value into a typed one or says what is wrong with it. Records are accepted
as objects, whose unknown fields are ignored, and as arrays of their fields in order.

In an object the fields that are present are read in the order of their keys, and the first
bad one is reported; only then are missing fields reported, in the order of declaration.
-/

namespace Chronicle.Json

/-- What a decoder found where it expected something else. -/
inductive Found where
  | null
  | boolean (b : Bool)
  | integer (n : Int)
  | float (x : Binary64)
  | string (s : String)
  | sequence
  | map
  | unitVariant
deriving DecidableEq, Inhabited

def Found.describe : Found → String
  | .null => "null"
  | .boolean b => "boolean `" ++ (if b then "true" else "false") ++ "`"
  | .integer n => "integer `" ++ toString n ++ "`"
  | .float x => "floating point `" ++ NumberLayout.json.text x ++ "`"
  | .string s => "string " ++ Text.quoted s
  | .sequence => "sequence"
  | .map => "map"
  | .unitVariant => "unit variant"

def found : Json → Found
  | .null => .null
  | .bool b => .boolean b
  | .int n => .integer n
  | .float x => .float x
  | .string s => .string s
  | .array _ => .sequence
  | .object _ => .map

inductive DecodeError where
  | invalidType (found : Found) (expected : String)
  | invalidValue (found : Found) (expected : String)
  | invalidLength (length : Nat) (expected : String)
  | missingField (name : String)
  | unknownVariant (name : String) (expected : List String)
  | malformed (reason : String)
deriving DecidableEq, Inhabited

def ticked (name : String) : String :=
  "`" ++ name ++ "`"

def oneOf : List String → String
  | [] => "there are no variants"
  | [a] => "expected " ++ ticked a
  | [a, b] => "expected " ++ ticked a ++ " or " ++ ticked b
  | names => "expected one of " ++ ", ".intercalate (names.map ticked)

def DecodeError.message : DecodeError → String
  | .invalidType found expected =>
    "invalid type: " ++ found.describe ++ ", expected " ++ expected
  | .invalidValue found expected =>
    "invalid value: " ++ found.describe ++ ", expected " ++ expected
  | .invalidLength length expected =>
    "invalid length " ++ toString length ++ ", expected " ++ expected
  | .missingField name => "missing field " ++ ticked name
  | .unknownVariant name expected =>
    "unknown variant " ++ ticked name ++ ", " ++ oneOf expected
  | .malformed reason => reason

abbrev Decoder (α : Type) := Json → Except DecodeError α

namespace Decoder

variable {α β : Type}

def wrongType (v : Json) (expected : String) : Except DecodeError α :=
  .error (.invalidType v.found expected)

def value : Decoder Json := fun v => .ok v

def string : Decoder String
  | .string s => .ok s
  | v => wrongType v "a string"

def bool : Decoder Bool
  | .bool b => .ok b
  | v => wrongType v "a boolean"

def integer (name : String) (low high : Int) : Decoder Int
  | .int n =>
    if low ≤ n ∧ n ≤ high then .ok n else .error (.invalidValue (.integer n) name)
  | v => wrongType v name

def natural (name : String) (high : Nat) : Decoder Nat := fun v =>
  (integer name 0 high v).map Int.toNat

def u32 : Decoder Nat := natural "u32" 0xffffffff

def u64 : Decoder Nat := natural "u64" 0xffffffffffffffff

def size : Decoder Nat := natural "usize" 0xffffffffffffffff

def i64 : Decoder Int := integer "i64" (-0x8000000000000000) 0x7fffffffffffffff

def option (d : Decoder α) : Decoder (Option α)
  | .null => .ok none
  | v => (d v).map some

def items (d : Decoder α) : List Json → Except DecodeError (List α)
  | [] => .ok []
  | v :: rest => do
    let a ← d v
    let as ← items d rest
    .ok (a :: as)

def list (d : Decoder α) : Decoder (List α)
  | .array vs => items d vs
  | v => wrongType v "a sequence"

def entries (d : Decoder α) : List (String × Json) → Except DecodeError (List (String × α))
  | [] => .ok []
  | (k, v) :: rest => do
    let a ← d v
    let as ← entries d rest
    .ok ((k, a) :: as)

/-- A map from strings, as its entries in the order of their keys. -/
def map (d : Decoder α) : Decoder (List (String × α))
  | .object fs => entries d fs
  | v => wrongType v "a map"

def unit (name : String) : Decoder Unit
  | .null => .ok ()
  | v => wrongType v name

end Decoder

/-- What happens when a field of a record is absent. -/
inductive Absent (α : Type) where
  | refused
  /-- An object may leave the field out, an array may not. -/
  | inObject (value : α)
  | anywhere (value : α)

/-- A reader for the fields of a record, in the order of their declaration. -/
structure Fields (α : Type) where
  /-- The names of the fields, each with a check of a value that is present. -/
  checks : List (String × (Json → Except DecodeError Unit))
  /-- Read the fields of an object, given the values that are present. -/
  fromObject : (String → Option Json) → Except DecodeError α
  /-- Read the fields from the front of an array; the first part says what a field reports
  that is not there, given its position in the record. -/
  fromArray : (Nat → DecodeError) → Nat → List Json → Except DecodeError (α × Nat × List Json)

namespace Fields

variable {α β : Type}

def field (name : String) (d : Decoder α) (absent : Absent α := .refused) : Fields α where
  checks := [(name, fun v => (d v).map fun _ => ())]
  fromObject get :=
    match get name, absent with
    | some v, _ => d v
    | none, .refused => .error (.missingField name)
    | none, .inObject a | none, .anywhere a => .ok a
  fromArray short i
    | v :: rest => (d v).map fun a => (a, i + 1, rest)
    | [] =>
      match absent with
      | .anywhere a => .ok (a, i + 1, [])
      | _ => .error (short i)

/-- An optional field: null and, in an object, absence stand for nothing. -/
def optional (name : String) (d : Decoder α) : Fields (Option α) :=
  field name d.option (.inObject none)

def none (a : α) : Fields α where
  checks := []
  fromObject _ := .ok a
  fromArray _ i vs := .ok (a, i, vs)

def both (f : Fields (α → β)) (x : Fields α) : Fields β where
  checks := f.checks ++ x.checks
  fromObject get := do
    let g ← f.fromObject get
    let a ← x.fromObject get
    .ok (g a)
  fromArray short i vs := do
    let (g, i, vs) ← f.fromArray short i vs
    let (a, i, vs) ← x.fromArray short i vs
    .ok (g a, i, vs)

instance : Applicative Fields where
  pure := none
  seq f x := both f (x ())

/-- Check the fields that are present, in the order of their keys. -/
def check (checks : List (String × (Json → Except DecodeError Unit))) :
    List (String × Json) → Except DecodeError Unit
  | [] => .ok ()
  | (k, v) :: rest =>
    match checks.lookup k with
    | some c => do c v; check checks rest
    | .none => check checks rest

def elements (n : Nat) : String :=
  toString n ++ (if n = 1 then " element" else " elements")

def record (name : String) (fields : Fields α) : Decoder α
  | .object fs => do
    check fields.checks fs
    fields.fromObject fun k => fs.lookup k
  | .array vs => do
    let expected := "struct " ++ name ++ " with " ++ elements fields.checks.length
    let (a, _, rest) ← fields.fromArray (fun i => .invalidLength i expected) 0 vs
    if rest.isEmpty then .ok a
    else .error (.invalidLength vs.length "fewer elements in array")
  | v => Decoder.wrongType v ("struct " ++ name)

end Fields

/-- One alternative of a choice between named variants: without content, or with a value. -/
inductive Variant (α : Type) where
  | plain (name : String) (a : α)
  | holding (name : String) (d : Decoder α)

namespace Variant

variable {α : Type}

def name : Variant α → String
  | .plain n _ => n
  | .holding n _ => n

def find (variants : List (Variant α)) (name : String) : Except DecodeError (Variant α) :=
  match variants.find? (·.name == name) with
  | some v => .ok v
  | none => .error (.unknownVariant name (variants.map Variant.name))

/-- A choice between named variants: a string names a variant without content, an object with
one field names a variant by its key and holds its content. -/
def choice (variants : List (Variant α)) : Decoder α
  | .string s => do
    match ← find variants s with
    | .plain _ a => .ok a
    | .holding _ _ => .error (.invalidType .unitVariant "newtype variant")
  | .object [(k, content)] => do
    match ← find variants k with
    | .plain _ a => (Decoder.unit "unit" content).map fun _ => a
    | .holding _ d => d content
  | .object _ => .error (.invalidValue .map "map with a single key")
  | v => Decoder.wrongType v "string or map"

end Variant

end Chronicle.Json
