import Chronicle.Event.Basic

/-!
# Snapshots

A snapshot records the state of an entity at a version, so that loading can start there. A
policy says, from the number of events since the last snapshot, when a new one is taken.
-/

namespace Chronicle

/-- A record of the state of an entity. -/
structure Snapshot where
  version : Int
  memento : Json
  taken : Moment
deriving DecidableEq

namespace Snapshot

def toJson (s : Snapshot) : Json :=
  .ofFields [("version", .int s.version), ("memento", s.memento), ("taken", s.taken.toJson)]

def decode : Json.Decoder Snapshot :=
  Json.Fields.record "Snapshot" (Snapshot.mk <$> .field "version" .i64 <*>
    .field "memento" .value <*> .field "taken" Moment.decode)

end Snapshot

inductive SnapshotPolicy where
  | always
  /-- As soon as so many events have come since the last snapshot. -/
  | everyEvents (count : Nat)
  | never
deriving DecidableEq, Inhabited

namespace SnapshotPolicy

/-- The policy of an entity that names none: every hundred events. -/
def standard : SnapshotPolicy := .everyEvents 100

def isDue : SnapshotPolicy → Nat → Bool
  | always, _ => true
  | everyEvents count, since => count ≤ since
  | never, _ => false

def toJson : SnapshotPolicy → Json
  | always => .string "always"
  | everyEvents count => .object [("every_n_events", .int count)]
  | never => .string "never"

def decode : Json.Decoder SnapshotPolicy :=
  Json.Variant.choice [.plain "always" always,
    .holding "every_n_events" fun v => (Json.Decoder.u64 v).map everyEvents,
    .plain "never" never]

def picture : SnapshotPolicy → Text.Picture
  | always => .word "Always"
  | everyEvents count => .tuple "EveryNEvents" [.int count]
  | never => .word "Never"

end SnapshotPolicy

end Chronicle
