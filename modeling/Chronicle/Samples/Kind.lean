import Chronicle.Samples.States

/-!
# The sample kinds

Each sample kind has a type of states and a table of routes, so that an entity of any kind can
be worked with once its kind is known.
-/

namespace Chronicle.Samples

inductive Kind where
  | tally
  | account
  | stockItem
  | counter
  | plain
  | journal
  | matrix
  | line
deriving DecidableEq, Inhabited, Repr

/-- What sample routes ask of the surroundings: to take a note, and to break down. -/
structure Hooks (m : Type → Type) where
  note : String → m Unit
  crash : ConflictRoute m Counter

namespace Kind

def all : List Kind := [tally, account, stockItem, counter, plain, journal, matrix, line]

def name : Kind → String
  | tally => "tally"
  | account => "account"
  | stockItem => "stock_item"
  | counter => "counter"
  | plain => "plain"
  | journal => "journal"
  | matrix => "matrix"
  | line => "line"

def ofName? (name : String) : Option Kind := all.find? (·.name == name)

abbrev State : Kind → Type
  | tally => Tally
  | account => Account
  | stockItem => StockItem
  | counter => Counter
  | plain => Plain
  | journal => Journal
  | matrix => Matrix
  | line => Line

def routes {m : Type → Type} [Monad m] (hooks : Hooks m) : (k : Kind) → Routes m k.State
  | tally => Tally.routes hooks.note
  | account => Account.routes
  | stockItem => StockItem.routes
  | counter => Counter.routes hooks.crash
  | plain => Plain.routes
  | journal => Journal.routes
  | matrix => Matrix.routes
  | line => Line.routes

def stateJson : (k : Kind) → k.State → Json
  | tally => Tally.toJson
  | account => Account.toJson
  | stockItem => StockItem.toJson
  | counter => Counter.toJson
  | plain => Plain.toJson
  | journal => Journal.toJson
  | matrix => Matrix.toJson
  | line => Line.toJson

def statePicture : (k : Kind) → k.State → Text.Picture
  | tally => Tally.picture
  | account => Account.picture
  | stockItem => StockItem.picture
  | counter => Counter.picture
  | plain => Plain.picture
  | journal => Journal.picture
  | matrix => Matrix.picture
  | line => Line.picture

end Kind

/-- A way of reading an event and applying it to a state. -/
structure Reading (S : Type) where
  kind : String
  read : Json → Except Json.DecodeError (Move S)

namespace Reading

def of {E S : Type} (type : EventType E) (apply : E → S → S) : Reading S :=
  ⟨type.kind, fun v => (type.decode v).map fun e => type.move e apply⟩

/-- Read events of a type that do nothing to a state. -/
def inert {E S : Type} (type : EventType E) : Reading S := of type fun _ s => s

/-- The move of a kind of event and a payload, if there is a way of reading it. -/
def move? {S : Type} (readings : List (Reading S)) (kind : String) (payload : Json) :
    Option (Except Json.DecodeError (Move S)) :=
  (readings.find? (·.kind == kind)).map fun r => r.read payload

def all (S : Type) : List (Reading S) :=
  [inert Step.type, inert Noted.type, inert Deposited.type, inert Withdrawn.type,
    inert Renamed.type, inert Viewed.type, inert Restocked.type, inert Reserved.type,
    inert Added.type, inert PlainAdded.type, inert Wrote.type, inert Poked.type,
    inert Filled.type]

end Reading

def Kind.readings : (k : Kind) → List (Reading k.State)
  | tally => [.of Step.type Tally.step]
  | account => [.of Deposited.type Account.deposit, .of Withdrawn.type Account.withdraw,
      .of Renamed.type Account.rename]
  | stockItem => [.of Restocked.type StockItem.restock, .of Reserved.type StockItem.reserve]
  | counter => [.of Added.type Counter.add]
  | plain => [.of PlainAdded.type Plain.add]
  | journal => [.of Wrote.type Journal.write]
  | matrix => [.of Poked.type Matrix.poke, .of Filled.type Matrix.fill]
  | line => []

structure AnyEntity where
  kind : Kind
  entity : Entity kind.State

end Chronicle.Samples
