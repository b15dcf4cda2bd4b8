import Chronicle.Event.Basic

/-!
# Failures of a store
-/

namespace Chronicle

/-- A write that expected another version of a stream than it found. -/
structure VersionConflict where
  stream : String
  expected : Int
  actual : Int
deriving DecidableEq, Inhabited

/-- The message of a version conflict. A stream expected to be new and one found empty are
named as such. -/
def VersionConflict.message (c : VersionConflict) : String :=
  "version conflict on `" ++ c.stream ++ "`: " ++
    if c.expected = newStreamVersion then
      "expected new stream, found version " ++ toString c.actual ++
        " (hint: another process created this entity; reload and retry)"
    else if c.actual = newStreamVersion then
      "expected version " ++ toString c.expected ++ ", stream is empty"
    else
      "expected version " ++ toString c.expected ++ ", found " ++ toString c.actual ++
        " (hint: stream was modified; reload and retry)"

inductive StoreError where
  | version (conflict : VersionConflict)
  | frozen (stream : String) (owner : Uuid)
  | codec (error : Json.DecodeError)
  | backend (cause : String)
deriving DecidableEq

namespace StoreError

def frozenMessage (stream : String) (owner : Uuid) : String :=
  "stream `" ++ stream ++ "` is frozen by " ++ owner.text

def message : StoreError → String
  | version c => c.message
  | frozen stream owner => frozenMessage stream owner
  | codec error => "codec error: " ++ error.message
  | backend cause => "store error: " ++ cause

def versionConflict? : StoreError → Option VersionConflict
  | version c => some c
  | _ => none

end StoreError

end Chronicle
