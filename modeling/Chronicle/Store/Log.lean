import Chronicle.Store.Events

/-!
# The event log in memory

An event log is an event store as a value: a map from keys to their events, oldest first, and
a map from keys to their metadata. The version of a key is that of its last event. Writing
takes the time of the write, and identifiers for the events that have none.
-/

namespace Chronicle

/-- Events and metadata by key. -/
structure EventLog where
  streams : Std.ExtTreeMap String (List Event)
  metadata : Std.ExtTreeMap String (Int × StreamMetadata)
deriving DecidableEq

namespace EventLog

def empty : EventLog := ⟨∅, ∅⟩

instance : Inhabited EventLog := ⟨empty⟩

def events (log : EventLog) (key : String) : List Event := log.streams.getD key []

def keys (log : EventLog) : List String := log.streams.keys

def version (log : EventLog) (key : String) : Int :=
  match (log.events key).getLast? with
  | some e => e.version
  | none => newStreamVersion

def read (log : EventLog) (key : String) (start : Int) (count : Option Nat) : List Event :=
  let found := (log.events key).filter fun e => start ≤ e.version
  match count with
  | some n => found.take n
  | none => found

def readBack (log : EventLog) (key : String) (count : Nat) : List Event :=
  (log.events key).reverse.take count

def verify (log : EventLog) (key : String) (expected : Int) : Except StoreError Unit :=
  if log.version key = expected then .ok ()
  else .error (.version ⟨key, expected, log.version key⟩)

def check (log : EventLog) (key : String) : Option Int → Except StoreError Unit
  | some expected => log.verify key expected
  | none => .ok ()

/-- Give events the versions after a version, a time and the headers of their commit. An event
without an identifier takes the one at its position of the list. -/
def stamped (version : Int) (time : Moment) (commitHeaders : Headers) :
    List Uuid → List Event → List Event
  | _, [] => []
  | ids, e :: rest =>
    { e with version := version + 1, time, commitHeaders, id := e.id <|> ids.head? } ::
      stamped (version + 1) time commitHeaders ids.tail rest

/-- Append events under a key, whatever its version. The result is the new version and the new
log. -/
def append (log : EventLog) (key : String) (events : NonEmptyList Event)
    (commitHeaders : Headers) (ids : List Uuid) (time : Moment) : Int × EventLog :=
  let stored := stamped (log.version key) time commitHeaders ids events.1
  (log.version key + events.1.length,
    { log with streams := log.streams.insert key (log.events key ++ stored) })

/-- Append events under a key that is at the expected version. -/
def write (log : EventLog) (key : String) (events : NonEmptyList Event) (commitHeaders : Headers)
    (expected : Option Int) (ids : List Uuid) (time : Moment) :
    Except StoreError (Int × EventLog) :=
  (log.check key expected).map fun _ => log.append key events commitHeaders ids time

def metadataOf (log : EventLog) (key : String) : Int × StreamMetadata :=
  log.metadata.getD key (newStreamVersion, .empty)

/-- Replace the metadata of a key that is at the expected revision. The result is the new
revision and the new log. -/
def writeMetadata (log : EventLog) (key : String) (metadata : StreamMetadata) (expected : Int) :
    Except StoreError (Int × EventLog) :=
  let revision := (log.metadataOf key).1
  if revision = expected then
    .ok (revision + 1, { log with metadata := log.metadata.insert key (revision + 1, metadata) })
  else .error (.version ⟨key, expected, revision⟩)

@[simp] theorem events_empty (key : String) : empty.events key = [] := by
  simp [events, empty]

@[simp] theorem metadataOf_empty (key : String) :
    empty.metadataOf key = (newStreamVersion, .empty) := by
  simp [metadataOf, empty]

@[simp] theorem length_stamped (version : Int) (time : Moment) (commitHeaders : Headers)
    (ids : List Uuid) (events : List Event) :
    (stamped version time commitHeaders ids events).length = events.length := by
  induction events generalizing version ids with
  | nil => rfl
  | cons e rest ih => simp [stamped, ih]

theorem events_append_self (log : EventLog) (key : String) (events : NonEmptyList Event)
    (commitHeaders : Headers) (ids : List Uuid) (time : Moment) :
    (log.append key events commitHeaders ids time).2.events key =
      log.events key ++ stamped (log.version key) time commitHeaders ids events.1 := by
  simp [append, EventLog.events]

theorem events_append_of_ne (log : EventLog) {key other : String} (h : other ≠ key)
    (events : NonEmptyList Event) (commitHeaders : Headers) (ids : List Uuid) (time : Moment) :
    (log.append key events commitHeaders ids time).2.events other = log.events other := by
  simp [append, EventLog.events, Std.ExtTreeMap.getD_insert, Ne.symm h]

@[simp] theorem metadataOf_append (log : EventLog) (key other : String)
    (events : NonEmptyList Event) (commitHeaders : Headers) (ids : List Uuid) (time : Moment) :
    (log.append key events commitHeaders ids time).2.metadataOf other = log.metadataOf other :=
  rfl

/-- A write goes through exactly at the expected version, and is an append then. -/
theorem write_some (log : EventLog) (key : String) (events : NonEmptyList Event)
    (commitHeaders : Headers) (expected : Int) (ids : List Uuid) (time : Moment) :
    log.write key events commitHeaders (some expected) ids time =
      if log.version key = expected then .ok (log.append key events commitHeaders ids time)
      else .error (.version ⟨key, expected, log.version key⟩) := by
  by_cases h : log.version key = expected <;> simp [write, check, verify, h, Except.map]

theorem write_none (log : EventLog) (key : String) (events : NonEmptyList Event)
    (commitHeaders : Headers) (ids : List Uuid) (time : Moment) :
    log.write key events commitHeaders none ids time =
      .ok (log.append key events commitHeaders ids time) := rfl

def picture (log : EventLog) : Text.Picture :=
  .record "Store" false [("streams", .int log.streams.size)]

end EventLog

end Chronicle
