import Chronicle.Json.Decode

/-!
# References to streams

The events of one entity form a stream. A stream has several lanes, each stored under a key of
its own; the key names the lane, the bucket, the chain of parent identifiers, the kind of
entity and the identifier.
-/

namespace Chronicle

/-- The lanes of a stream. -/
inductive Lane where
  | domain
  | oob
  | delayed
  | snapshot
  | plain
deriving DecidableEq, Inhabited, Repr

namespace Lane

def name : Lane → String
  | domain => "DOMAIN"
  | oob => "OOB"
  | delayed => "DELAYED"
  | snapshot => "SNAPSHOT"
  | plain => "POCO"

def all : List Lane := [domain, oob, delayed, snapshot, plain]

def toJson (l : Lane) : Json := .string l.name

def decode : Json.Decoder Lane :=
  Json.Variant.choice (all.map fun l => .plain l.name l)

end Lane

structure ParentRef where
  entity : String
  id : String
deriving DecidableEq, Inhabited

namespace ParentRef

def toJson (p : ParentRef) : Json :=
  .ofFields [("entity", .string p.entity), ("id", .string p.id)]

def decode : Json.Decoder ParentRef :=
  Json.Fields.record "ParentRef" (ParentRef.mk <$> .field "entity" .string <*> .field "id" .string)

end ParentRef

/-- The key of a lane of a stream. Of the parents only the identifiers take part. -/
def streamKey (lane : Lane) (bucket : String) (parents : List ParentRef) (entity id : String) :
    String :=
  lane.name ++ "-" ++ bucket ++ "-[" ++ ":".intercalate (parents.map ParentRef.id) ++ "]-" ++
    entity ++ "-" ++ id

/-- The identity of a stream: the kind of entity, the bucket it lives in, its identifier and
its chain of parents, the closest last. -/
structure StreamRef where
  entity : String
  bucket : String
  id : String
  parents : List ParentRef
deriving DecidableEq, Inhabited

namespace StreamRef

def key (r : StreamRef) (lane : Lane) : String :=
  streamKey lane r.bucket r.parents r.entity r.id

/-- The key of one channel of out-of-band events. -/
def channelKey (r : StreamRef) (channel : String) : String :=
  streamKey .oob r.bucket r.parents r.entity (r.id ++ "." ++ channel)

def toJson (r : StreamRef) : Json :=
  .ofFields [("entity", .string r.entity), ("bucket", .string r.bucket), ("id", .string r.id),
    ("parents", .array (r.parents.map ParentRef.toJson))]

def decode : Json.Decoder StreamRef :=
  Json.Fields.record "StreamRef" (StreamRef.mk <$> .field "entity" .string <*>
    .field "bucket" .string <*> .field "id" .string <*>
    .field "parents" (.list ParentRef.decode) (.anywhere []))

end StreamRef

end Chronicle
