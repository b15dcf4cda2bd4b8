import Std.Data.ExtTreeMap
import Chronicle.Event.Reference
import Chronicle.Text.Uuid
import Chronicle.Time.Moment

/-!
# Events

An event is a kind and a JSON payload together with a descriptor that says which stream and
lane it belongs to, its version there, when it was recorded, and two sets of headers: those of
the event itself and those of the commit that stored it.
-/

namespace Chronicle

abbrev Headers := Std.ExtTreeMap String String

/-- The version of a stream that holds no events; the first event has version 0. -/
def newStreamVersion : Int := -1

/-- The last version that an event can have; versions have 64 bits. -/
def lastVersion : Int := 0x7fffffffffffffff

namespace Headers

def oob : String := "oob"

/-- Whether an out-of-band event may be dropped by its consumers. -/
def oobTransient : String := "oob.transient"

def oobDaysToLive : String := "oob.days_to_live"

def conflictResolution : String := "conflict_resolution"

def commitId : String := "commit_id"

def toJson (h : Headers) : Json :=
  .object (h.toList.map fun (k, v) => (k, .string v))

def decode : Json.Decoder Headers := fun v =>
  (Json.Decoder.map .string v).map fun entries => Std.ExtTreeMap.ofList entries

end Headers

/-- What is known of an event beside its kind and payload. -/
structure Descriptor where
  stream : StreamRef
  lane : Lane
  version : Int
  time : Moment
  headers : Headers
  commitHeaders : Headers
deriving DecidableEq

namespace Descriptor

/-- The JSON form of a descriptor, which spreads the reference over its own fields. -/
def toJson (d : Descriptor) : Json :=
  .ofFields [("entity", .string d.stream.entity), ("stream_type", d.lane.toJson),
    ("bucket", .string d.stream.bucket), ("stream_id", .string d.stream.id),
    ("parents", .array (d.stream.parents.map ParentRef.toJson)), ("version", .int d.version),
    ("timestamp", d.time.toJson), ("headers", d.headers.toJson),
    ("commit_headers", d.commitHeaders.toJson)]

def ofParts (entity : String) (lane : Lane) (bucket id : String) (parents : List ParentRef)
    (version : Int) (time : Moment) (headers commitHeaders : Headers) : Descriptor :=
  ⟨⟨entity, bucket, id, parents⟩, lane, version, time, headers, commitHeaders⟩

def decode : Json.Decoder Descriptor :=
  Json.Fields.record "EventDescriptor" (ofParts <$> .field "entity" .string <*>
    .field "stream_type" Lane.decode <*> .field "bucket" .string <*>
    .field "stream_id" .string <*>
    .field "parents" (.list ParentRef.decode) (.anywhere []) <*> .field "version" .i64 <*>
    .field "timestamp" Moment.decode <*> .field "headers" Headers.decode (.anywhere ∅) <*>
    .field "commit_headers" Headers.decode (.anywhere ∅))

end Descriptor

structure Event extends Descriptor where
  id : Option Uuid
  kind : String
  payload : Json
deriving DecidableEq

namespace Event

def channel? (e : Event) : Option String := e.headers[Headers.oob]?

/-- The kind and payload of an event, which is all that a reader of the state sees. -/
def content (e : Event) : String × Json := (e.kind, e.payload)

def toJson (e : Event) : Json :=
  .ofFields [("event_id", match e.id with
      | some u => u.toJson
      | none => .null),
    ("kind", .string e.kind), ("event", e.payload), ("descriptor", e.toDescriptor.toJson)]

def ofParts (id : Option Uuid) (kind : String) (payload : Json) (d : Descriptor) : Event :=
  { d with id, kind, payload }

def decode : Json.Decoder Event :=
  Json.Fields.record "FullEvent" (ofParts <$> .optional "event_id" Uuid.decode <*>
    .field "kind" .string <*> .field "event" .value <*> .field "descriptor" Descriptor.decode)

end Event

/-- What recording an event takes from the surroundings: a fresh identifier and the time. -/
structure Stamp where
  id : Uuid
  time : Moment
deriving DecidableEq

end Chronicle
