import Chronicle.Entity.Basic

/-!
# Sample events

The events of the sample entities. Whole numbers have 64 bits with a sign or 32 bits without
one, and arithmetic on them wraps around.
-/

namespace Chronicle.Samples

/-- The number of 64 bits with a sign that a sum wraps around to. -/
def wrap64 (n : Int) : Int := n.bmod 0x10000000000000000

/-- The number of 32 bits that a sum wraps around to. -/
def wrap32 (n : Nat) : Nat := n % 0x100000000

/-- A type of event that is a record and can always be encoded. -/
def recordType {E : Type} (kind name : String) (encode : E → List (String × Json))
    (fields : Json.Fields E) : EventType E :=
  ⟨kind, fun e => .ok (.ofFields (encode e)), Json.Fields.record name fields⟩

structure Step where
  n : Nat

structure Noted where
  text : String

structure Deposited where
  amount : Int

structure Withdrawn where
  amount : Int

structure Renamed where
  name : String
  nick : Option String

structure Viewed where

structure Restocked where
  quantity : Nat

structure Reserved where
  quantity : Nat

structure Added where
  n : Int

structure PlainAdded where
  amount : Int

structure Wrote where
  text : String
  tags : List String
  extra : Json

structure Poked where
  x : Int
  y : Int
  v : Int

structure Filled where
  cells : List (Int × Int × Int)

def Step.type : EventType Step :=
  recordType "tally.step" "Step" (fun e => [("n", .int e.n)]) (Step.mk <$> .field "n" .u32)

def Noted.type : EventType Noted :=
  recordType "tally.noted" "Noted" (fun e => [("text", .string e.text)])
    (Noted.mk <$> .field "text" .string)

def Deposited.type : EventType Deposited :=
  recordType "account.deposited" "Deposited" (fun e => [("amount", .int e.amount)])
    (Deposited.mk <$> .field "amount" .i64)

def Withdrawn.type : EventType Withdrawn :=
  recordType "account.withdrawn" "Withdrawn" (fun e => [("amount", .int e.amount)])
    (Withdrawn.mk <$> .field "amount" .i64)

def optionalString : Option String → Json
  | some s => .string s
  | none => .null

def Renamed.type : EventType Renamed :=
  recordType "account.renamed" "Renamed"
    (fun e => [("name", .string e.name), ("nick", optionalString e.nick)])
    (Renamed.mk <$> .field "name" .string <*> .optional "nick" .string)

def Viewed.type : EventType Viewed where
  kind := "account.viewed"
  encode _ := .ok .null
  decode v := (Json.Decoder.unit "unit struct Viewed" v).map fun _ => ⟨⟩

def Restocked.type : EventType Restocked :=
  recordType "inventory.item.restocked" "Restocked" (fun e => [("quantity", .int e.quantity)])
    (Restocked.mk <$> .field "quantity" .u32)

def Reserved.type : EventType Reserved :=
  recordType "inventory.item.reserved" "Reserved" (fun e => [("quantity", .int e.quantity)])
    (Reserved.mk <$> .field "quantity" .u32)

def Added.type : EventType Added :=
  recordType "counter.added" "Added" (fun e => [("n", .int e.n)]) (Added.mk <$> .field "n" .i64)

def PlainAdded.type : EventType PlainAdded :=
  recordType "plain.added" "PlainAdded" (fun e => [("by", .int e.amount)])
    (PlainAdded.mk <$> .field "by" .i64)

def Wrote.type : EventType Wrote :=
  recordType "journal.wrote" "Wrote"
    (fun e => [("text", .string e.text), ("tags", .array (e.tags.map .string)),
      ("extra", e.extra)])
    (Wrote.mk <$> .field "text" .string <*> .field "tags" (.list .string) <*>
      .field "extra" .value)

def Poked.type : EventType Poked :=
  recordType "matrix.poked" "Poked"
    (fun e => [("x", .int e.x), ("y", .int e.y), ("v", .int e.v)])
    (Poked.mk <$> .field "x" .i64 <*> .field "y" .i64 <*> .field "v" .i64)

/-- Why a map that is not keyed by strings has no JSON form. -/
def unencodableKey : String := "key must be a string"

def triple : Json.Decoder (Int × Int × Int)
  | .array [x, y, v] => do
    let x ← Json.Decoder.i64 x
    let y ← Json.Decoder.i64 y
    let v ← Json.Decoder.i64 v
    .ok (x, y, v)
  | v => Json.Decoder.wrongType v "a tuple of size 3"

/-- The type of fillings. They are given as a list of cells, but hold a map keyed by pairs,
which has a JSON form only if it is empty. -/
def Filled.type : EventType Filled where
  kind := "matrix.filled"
  encode e :=
    if e.cells.isEmpty then .ok (.object [("cells", .object [])]) else .error unencodableKey
  decode v := (Json.Decoder.list triple v).map Filled.mk

end Chronicle.Samples
