import Chronicle.Store.Error

/-!
# Event stores

An event store keeps lists of events under keys, and for each key a record of metadata with a
revision of its own. `EventStore` says what a store can be asked, in any surroundings `m`.
-/

namespace Chronicle

abbrev NonEmptyList (α : Type) := { xs : List α // xs ≠ [] }

def NonEmptyList.ofList? {α : Type} : List α → Option (NonEmptyList α)
  | [] => none
  | x :: xs => some ⟨x :: xs, by simp⟩

/-- The claim of one instance on a stream. -/
structure Freeze where
  owner : Uuid
  since : Moment
deriving DecidableEq

namespace Freeze

def toJson (f : Freeze) : Json :=
  .ofFields [("owner", f.owner.toJson), ("at", f.since.toJson)]

def decode : Json.Decoder Freeze :=
  Json.Fields.record "Freeze"
    (Freeze.mk <$> .field "owner" Uuid.decode <*> .field "at" Moment.decode)

end Freeze

structure StreamMetadata where
  frozen : Option Freeze
  custom : Headers
deriving DecidableEq

namespace StreamMetadata

def empty : StreamMetadata := ⟨none, ∅⟩

instance : Inhabited StreamMetadata := ⟨empty⟩

def toJson (d : StreamMetadata) : Json :=
  .ofFields [("frozen", match d.frozen with
      | some f => f.toJson
      | none => .null),
    ("custom", d.custom.toJson)]

def decode : Json.Decoder StreamMetadata :=
  Json.Fields.record "StreamMetadata" (StreamMetadata.mk <$>
    .field "frozen" (.option Freeze.decode) (.anywhere none) <*>
    .field "custom" Headers.decode (.anywhere ∅))

end StreamMetadata

/-- What an event store can be asked. -/
structure EventStore (m : Type → Type) where
  /-- The events under a key from a version on, at most so many. -/
  read : String → Int → Option Nat → m (Except StoreError (List Event))
  /-- The last events under a key, the newest first. -/
  readBack : String → Nat → m (Except StoreError (List Event))
  /-- Append events under a key, if it is at the expected version, and give them the next
  versions, the time and the headers of their commit. The result is the new version. -/
  write : String → NonEmptyList Event → Headers → Option Int → m (Except StoreError Int)
  /-- Refuse a key that is not at the expected version. -/
  verify : String → Int → m (Except StoreError Unit)
  metadata : String → m (Except StoreError (Int × StreamMetadata))
  /-- Replace the metadata of a key, if it is at the expected revision. The result is the new
  revision. -/
  writeMetadata : String → StreamMetadata → Int → m (Except StoreError Int)

end Chronicle
