import Chronicle.Number.Binary64

/-!
# JSON values

Payloads of events and records of state are free JSON. Whole numbers that fit 64 bits, signed
or unsigned, are kept as integers and every other number as a binary floating-point number.
The fields of an object stand in the order of their keys, without repetition.
-/

namespace Chronicle

inductive Json where
  | null
  | bool (b : Bool)
  | int (n : Int)
  | float (x : Binary64)
  | string (s : String)
  | array (items : List Json)
  | object (fields : List (String × Json))
deriving Inhabited

namespace Json

mutual

def decEq : (a b : Json) → Decidable (a = b)
  | .null, .null => isTrue rfl
  | .bool a, .bool b =>
    if h : a = b then isTrue (h ▸ rfl) else isFalse fun e => h (by cases e; rfl)
  | .int a, .int b =>
    if h : a = b then isTrue (h ▸ rfl) else isFalse fun e => h (by cases e; rfl)
  | .float a, .float b =>
    if h : a = b then isTrue (h ▸ rfl) else isFalse fun e => h (by cases e; rfl)
  | .string a, .string b =>
    if h : a = b then isTrue (h ▸ rfl) else isFalse fun e => h (by cases e; rfl)
  | .array a, .array b =>
    match decEqItems a b with
    | isTrue h => isTrue (h ▸ rfl)
    | isFalse h => isFalse fun e => h (by cases e; rfl)
  | .object a, .object b =>
    match decEqFields a b with
    | isTrue h => isTrue (h ▸ rfl)
    | isFalse h => isFalse fun e => h (by cases e; rfl)
  | .null, .bool _ | .null, .int _ | .null, .float _ | .null, .string _
  | .null, .array _ | .null, .object _
  | .bool _, .null | .bool _, .int _ | .bool _, .float _ | .bool _, .string _
  | .bool _, .array _ | .bool _, .object _
  | .int _, .null | .int _, .bool _ | .int _, .float _ | .int _, .string _
  | .int _, .array _ | .int _, .object _
  | .float _, .null | .float _, .bool _ | .float _, .int _ | .float _, .string _
  | .float _, .array _ | .float _, .object _
  | .string _, .null | .string _, .bool _ | .string _, .int _ | .string _, .float _
  | .string _, .array _ | .string _, .object _
  | .array _, .null | .array _, .bool _ | .array _, .int _ | .array _, .float _
  | .array _, .string _ | .array _, .object _
  | .object _, .null | .object _, .bool _ | .object _, .int _ | .object _, .float _
  | .object _, .string _ | .object _, .array _ => isFalse (by simp)

def decEqItems : (a b : List Json) → Decidable (a = b)
  | [], [] => isTrue rfl
  | [], _ :: _ | _ :: _, [] => isFalse (by simp)
  | a :: as, b :: bs =>
    match decEq a b, decEqItems as bs with
    | isTrue h, isTrue hs => isTrue (h ▸ hs ▸ rfl)
    | isFalse h, _ => isFalse fun e => h (by cases e; rfl)
    | _, isFalse hs => isFalse fun e => hs (by cases e; rfl)

def decEqFields : (a b : List (String × Json)) → Decidable (a = b)
  | [], [] => isTrue rfl
  | [], _ :: _ | _ :: _, [] => isFalse (by simp)
  | (k, a) :: as, (l, b) :: bs =>
    if hk : k = l then
      match decEq a b, decEqFields as bs with
      | isTrue h, isTrue hs => isTrue (hk ▸ h ▸ hs ▸ rfl)
      | isFalse h, _ => isFalse fun e => h (by cases e; rfl)
      | _, isFalse hs => isFalse fun e => hs (by cases e; rfl)
    else isFalse fun e => hk (by cases e; rfl)

end

instance : DecidableEq Json := decEq

/-- Put a field into a list of fields ordered by key; a field of the same key is replaced. -/
def insertField (key : String) (value : Json) : List (String × Json) → List (String × Json)
  | [] => [(key, value)]
  | (k, v) :: rest =>
    if key < k then (key, value) :: (k, v) :: rest
    else if key = k then (key, value) :: rest
    else (k, v) :: insertField key value rest

/-- The object with the given fields: ordered by key, and of fields with one key the last. -/
def ofFields (fields : List (String × Json)) : Json :=
  .object (fields.foldl (fun acc f => insertField f.1 f.2 acc) [])

def get? (key : String) : Json → Option Json
  | .object fields => fields.lookup key
  | _ => none

end Json

end Chronicle
