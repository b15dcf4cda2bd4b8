import Chronicle.Samples.Events

/-!
# Sample entities

Eight kinds of entities that between them use every sort of route: with and without conflict
routes, merging, discarding and abandoning, with every snapshot policy and with states that
cannot be recorded.
-/

namespace Chronicle.Samples

variable {m : Type → Type} [Monad m]

def merged {S : Type} (s : S) : m (Except ConflictSignal Unit × S) := pure (.ok (), s)

def discarded {S : Type} (s : S) : m (Except ConflictSignal Unit × S) :=
  pure (.error .discard, s)

def abandoned {S : Type} (reason : String) (s : S) : m (Except ConflictSignal Unit × S) :=
  pure (.error (.abandon reason), s)

def numbers (ns : List Int) : Json := .array (ns.map .int)

def pictureNumbers (ns : List Int) : Text.Picture := .list (ns.map .int)

/-- The steps that were applied and those that were merged. -/
structure Tally where
  applied : List Nat
  merged : List Nat
deriving DecidableEq, Inhabited

namespace Tally

def toJson (t : Tally) : Json :=
  .ofFields [("applied", numbers (t.applied.map Int.ofNat)),
    ("merged", numbers (t.merged.map Int.ofNat))]

def decode : Json.Decoder Tally :=
  Json.Fields.record "Tally"
    (Tally.mk <$> .field "applied" (.list .u32) <*> .field "merged" (.list .u32))

def picture (t : Tally) : Text.Picture :=
  .record "Tally" false [("applied", pictureNumbers (t.applied.map Int.ofNat)),
    ("merged", pictureNumbers (t.merged.map Int.ofNat))]

def step (e : Step) (t : Tally) : Tally := { t with applied := t.applied ++ [e.n] }

def mergeStep (note : String → m Unit) (e : Step) : ConflictRoute m Tally := fun t => do
  note ("conflict:" ++ toString e.n)
  if e.n = 4294967295 then abandoned "poison step" t
  else if e.n = 0 then discarded t
  else Samples.merged { t with merged := t.merged ++ [e.n] }

def routes (note : String → m Unit) : Routes m Tally :=
  Routes.new "tally" ⟨[], []⟩
    |>.handle Step.type step
    |>.conflict Step.type (mergeStep note)
    |>.withSnapshots (.everyEvents 3) (fun t => .ok t.toJson) decode

end Tally

structure Account where
  balance : Int
  name : Option String
deriving DecidableEq, Inhabited

namespace Account

def toJson (a : Account) : Json :=
  .ofFields [("balance", .int a.balance), ("name", optionalString a.name)]

def decode : Json.Decoder Account :=
  Json.Fields.record "Account"
    (Account.mk <$> .field "balance" .i64 <*> .field "name" (.option .string) (.anywhere none))

def picture (a : Account) : Text.Picture :=
  .record "Account" false [("balance", .int a.balance),
    ("name", .option (a.name.map .string))]

def deposit (e : Deposited) (a : Account) : Account :=
  { a with balance := wrap64 (a.balance + e.amount) }

def withdraw (e : Withdrawn) (a : Account) : Account :=
  { a with balance := wrap64 (a.balance - e.amount) }

def rename (e : Renamed) (a : Account) : Account :=
  { a with name := some (e.nick.getD e.name) }

def mergeDeposit (e : Deposited) : ConflictRoute m Account := fun a =>
  if e.amount = 0 then discarded a else merged (deposit e a)

def mergeWithdrawal (e : Withdrawn) : ConflictRoute m Account := fun a =>
  if a.balance < e.amount then
    abandoned ("insufficient funds: balance " ++ toString a.balance ++ ", requested " ++
      toString e.amount) a
  else merged (withdraw e a)

/-- The routes of accounts: a snapshot every two events; renamings cannot be merged. -/
def routes : Routes m Account :=
  Routes.new "account" ⟨0, none⟩
    |>.handle Deposited.type deposit
    |>.handle Withdrawn.type withdraw
    |>.handle Renamed.type rename
    |>.conflict Deposited.type mergeDeposit
    |>.conflict Withdrawn.type mergeWithdrawal
    |>.withSnapshots (.everyEvents 2) (fun a => .ok a.toJson) decode

end Account

structure StockItem where
  available : Nat
deriving DecidableEq, Inhabited

namespace StockItem

def toJson (s : StockItem) : Json := .ofFields [("available", .int s.available)]

def decode : Json.Decoder StockItem :=
  Json.Fields.record "StockItem" (StockItem.mk <$> .field "available" .u32)

def picture (s : StockItem) : Text.Picture :=
  .record "StockItem" false [("available", .int s.available)]

def restock (e : Restocked) (s : StockItem) : StockItem := ⟨wrap32 (s.available + e.quantity)⟩

def reserve (e : Reserved) (s : StockItem) : StockItem := ⟨s.available - e.quantity⟩

def mergeRestock (e : Restocked) : ConflictRoute m StockItem := fun s => merged (restock e s)

def mergeReserve (e : Reserved) : ConflictRoute m StockItem := fun s =>
  if s.available < e.quantity then discarded s else merged (reserve e s)

def routes : Routes m StockItem :=
  Routes.new "stock_item" ⟨0⟩
    |>.handle Restocked.type restock
    |>.handle Reserved.type reserve
    |>.conflict Restocked.type mergeRestock
    |>.conflict Reserved.type mergeReserve
    |>.withSnapshots (.everyEvents 10) (fun s => .ok s.toJson) decode

end StockItem

/-- A value and the numbers that were merged into it. -/
structure Counter where
  value : Int
  merged : List Int
deriving DecidableEq, Inhabited

namespace Counter

def toJson (c : Counter) : Json :=
  .ofFields [("value", .int c.value), ("merged", numbers c.merged)]

def decode : Json.Decoder Counter :=
  Json.Fields.record "Counter"
    (Counter.mk <$> .field "value" .i64 <*> .field "merged" (.list .i64))

def picture (c : Counter) : Text.Picture :=
  .record "Counter" false [("value", .int c.value), ("merged", pictureNumbers c.merged)]

def add (e : Added) (c : Counter) : Counter := { c with value := wrap64 (c.value + e.n) }

/-- Merge an addition: none is discarded, a negative one abandons the batch, and one number
breaks down. -/
def mergeAdd (crash : ConflictRoute m Counter) (e : Added) : ConflictRoute m Counter := fun c =>
  if e.n = 0 then discarded c
  else if e.n = 666 then crash c
  else if e.n < 0 then abandoned "negative" c
  else Samples.merged ⟨wrap64 (c.value + e.n), c.merged ++ [e.n]⟩

def routes (crash : ConflictRoute m Counter) : Routes m Counter :=
  Routes.new "counter" ⟨0, []⟩
    |>.handle Added.type add
    |>.conflict Added.type (mergeAdd crash)
    |>.withSnapshots .always (fun c => .ok c.toJson) decode

end Counter

structure Plain where
  value : Int
deriving DecidableEq, Inhabited

namespace Plain

def toJson (p : Plain) : Json := .ofFields [("value", .int p.value)]

def picture (p : Plain) : Text.Picture := .record "Plain" false [("value", .int p.value)]

def add (e : PlainAdded) (p : Plain) : Plain := ⟨wrap64 (p.value + e.amount)⟩

def routes : Routes m Plain :=
  Routes.new "plain" ⟨0⟩
    |>.handle PlainAdded.type add
    |>.conflict PlainAdded.type fun e p => merged (add e p)

end Plain

structure Journal where
  pages : List String
  extras : List Json
deriving DecidableEq, Inhabited

namespace Journal

def toJson (j : Journal) : Json :=
  .ofFields [("pages", .array (j.pages.map .string)), ("extras", .array j.extras)]

def decode : Json.Decoder Journal :=
  Json.Fields.record "Journal"
    (Journal.mk <$> .field "pages" (.list .string) <*> .field "extras" (.list .value))

mutual

def pictureJson : Json → Text.Picture
  | .null => .word "Null"
  | .bool b => .tuple "Bool" [.word (if b then "true" else "false")]
  | .int n => .tuple "Number" [.int n]
  | .float x => .tuple "Number" [.word (NumberLayout.json.text x)]
  | .string s => .tuple "String" [.string s]
  | .array items => .word ("Array " ++ (Text.Picture.list (pictureItems items)).text)
  | .object fields => .word ("Object " ++ (Text.Picture.map (pictureFields fields)).text)

def pictureItems : List Json → List Text.Picture
  | [] => []
  | v :: rest => pictureJson v :: pictureItems rest

def pictureFields : List (String × Json) → List (Text.Picture × Text.Picture)
  | [] => []
  | (k, v) :: rest => (.string k, pictureJson v) :: pictureFields rest

end

def picture (j : Journal) : Text.Picture :=
  .record "Journal" false [("pages", .list (j.pages.map .string)),
    ("extras", .list (pictureItems j.extras))]

def write (e : Wrote) (j : Journal) : Journal where
  pages := j.pages ++ [e.text ++ String.join (e.tags.map ("#" ++ ·))]
  extras := j.extras ++ [e.extra]

/-- Merge a page: an empty one is discarded, and a mark of exclamation abandons the batch for
the reason behind it. -/
def mergeWrite (e : Wrote) : ConflictRoute m Journal := fun j =>
  match e.text.toList with
  | [] => discarded j
  | '!' :: reason => abandoned (String.ofList reason) j
  | _ => merged { j with pages := j.pages ++ ["~" ++ e.text] }

/-- The routes of journals, which are recorded only on request. -/
def routes : Routes m Journal :=
  Routes.new "journal" ⟨[], []⟩
    |>.handle Wrote.type write
    |>.conflict Wrote.type mergeWrite
    |>.withSnapshots .never (fun j => .ok j.toJson) decode

end Journal

/-- The cells that hold something, ordered by position. -/
structure Matrix where
  cells : List ((Int × Int) × Int)
deriving DecidableEq, Inhabited

namespace Matrix

def before (p q : Int × Int) : Bool := p.1 < q.1 || (p.1 = q.1 && p.2 < q.2)

def insert (p : Int × Int) (v : Int) : List ((Int × Int) × Int) → List ((Int × Int) × Int)
  | [] => [(p, v)]
  | (q, w) :: rest =>
    if before p q then (p, v) :: (q, w) :: rest
    else if p = q then (p, v) :: rest
    else (q, w) :: insert p v rest

def toJson (a : Matrix) : Json :=
  .array (a.cells.map fun ((x, y), v) => numbers [x, y, v])

/-- The record of a matrix, a map keyed by pairs, which has a JSON form only if it is empty. -/
def encode (a : Matrix) : Except String Json :=
  if a.cells.isEmpty then .ok (.object [("cells", .object [])]) else .error unencodableKey

/-- Read a map keyed by pairs: only the empty one can be read. -/
def decodeCells : Json.Decoder (List ((Int × Int) × Int))
  | .object [] => .ok []
  | .object ((k, _) :: _) => .error (.invalidType (.string k) "a tuple of size 2")
  | v => Json.Decoder.wrongType v "a map"

def decode : Json.Decoder Matrix :=
  Json.Fields.record "Matrix" (Matrix.mk <$> .field "cells" decodeCells)

def picture (a : Matrix) : Text.Picture :=
  .record "Matrix" false [("cells",
    .map (a.cells.map fun ((x, y), v) => (.tuple "" [.int x, .int y], .int v)))]

def poke (e : Poked) (a : Matrix) : Matrix :=
  if e.v = 0 then ⟨a.cells.filter fun (p, _) => p != (e.x, e.y)⟩
  else ⟨insert (e.x, e.y) e.v a.cells⟩

def fill (e : Filled) (_ : Matrix) : Matrix :=
  ⟨e.cells.foldl (fun cells (x, y, v) => insert (x, y) v cells) []⟩

def routes : Routes m Matrix :=
  Routes.new "matrix" ⟨[]⟩
    |>.handle Poked.type poke
    |>.conflict Poked.type (fun e a => merged (poke e a))
    |>.withSnapshots .always encode decode

end Matrix

structure Line where
deriving DecidableEq, Inhabited

namespace Line

def toJson (_ : Line) : Json := .object []

def picture (_ : Line) : Text.Picture := .word "Line"

def routes : Routes m Line := Routes.new "line" ⟨⟩

end Line

end Chronicle.Samples
