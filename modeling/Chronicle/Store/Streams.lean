import Chronicle.Event.Timeline
import Chronicle.Store.Log
import Chronicle.Store.Surroundings

/-!
# Stream stores

A stream store loads and stores timelines. `StreamStore` says what one can be asked;
`CachedStore` keeps timelines in an event store:

* domain events go to the domain key, with a check of the version;
* out-of-band events go to one key per channel, without a check;
* a snapshot is appended to the snapshot key, and the last one counts;
* a freeze is kept in the metadata of the domain key. A freeze of another instance refuses
  writes until it is older than the freeze timeout.

Timelines without pending parts are cached after every load and every checked write. A version
conflict drops the cached copy, so that the next load reads the event store again.
-/

namespace Chronicle

/-- What a stream store can be asked. -/
structure StreamStore (m : Type → Type) where
  fetch : StreamRef → m (Except StoreError Timeline)
  /-- Store what is pending, if the stream is still at the version of the timeline. The result
  is the new version. -/
  write : Uuid → Timeline → Headers → m (Except StoreError Int)
  /-- Store what is pending, whatever the version of the stream. -/
  append : Uuid → Timeline → Headers → m (Except StoreError Int)
  /-- Keep other instances from writing the stream. -/
  freeze : Timeline → m (Except StoreError Unit)
  /-- Give up a freeze, if this instance holds one. -/
  unfreeze : Timeline → m (Except StoreError Unit)
  /-- Refuse a timeline that is not at the version of its stream. -/
  verify : Timeline → m (Except StoreError Unit)

def EventLog.store {m : Type → Type} [Monad m] (cell : Cell m EventLog) (s : Surroundings m) :
    EventStore m where
  read key start count := do
    pure (.ok ((← cell.get).read key start count))
  readBack key count := do
    pure (.ok ((← cell.get).readBack key count))
  write key events commitHeaders expected := do
    let log ← cell.get
    match log.check key expected with
    | .error err => pure (.error err)
    | .ok () =>
      let ids ← s.freshIds events.1.length
      let time ← s.now
      let (version, log) := log.append key events commitHeaders ids time
      cell.set log
      pure (.ok version)
  verify key expected := do
    pure ((← cell.get).verify key expected)
  metadata key := do
    pure (.ok ((← cell.get).metadataOf key))
  writeMetadata key metadata expected := do
    match (← cell.get).writeMetadata key metadata expected with
    | .error err => pure (.error err)
    | .ok (revision, log) =>
      cell.set log
      pure (.ok revision)

abbrev TimelineCache := Std.ExtTreeMap String Timeline

/-- A stream store over an event store, with a cache, for one instance. -/
structure CachedStore (m : Type → Type) where
  events : EventStore m
  cache : Cell m TimelineCache
  surroundings : Surroundings m
  owner : Uuid
  freezeTimeout : Span

namespace CachedStore

variable {m : Type → Type} [Monad m]

def snapshotKind : String := "concord.snapshot"

/-- Whether a freeze is at least as old as the timeout. A freeze from the future is not. -/
def isStale (timeout : Span) (now : Moment) (f : Freeze) : Bool :=
  match f.since.spanTo? now with
  | some age => timeout ≤ age
  | none => false

def evict (st : CachedStore m) (key : String) : m Unit :=
  st.cache.modify fun cache => cache.erase key

def remember (st : CachedStore m) (key : String) (t : Timeline) : m Unit :=
  st.cache.modify fun cache => cache.insert key t

def readSnapshot (st : CachedStore m) (stream : StreamRef) :
    ExceptT StoreError m (Option Snapshot) := do
  match ← (st.events.readBack (stream.key .snapshot) 1 : ExceptT StoreError m _) with
  | [] => pure none
  | record :: _ =>
    match Snapshot.decode record.payload with
    | .ok snapshot => pure (some snapshot)
    | .error err => throw (.codec err)

/-- The timeline that the event store holds for a stream: its last snapshot and the events
after it. -/
def load (st : CachedStore m) (stream : StreamRef) : ExceptT StoreError m Timeline := do
  let snapshot ← st.readSnapshot stream
  let start :=
    match snapshot with
    | some s => s.version + 1
    | none => 0
  let events ← (st.events.read (stream.key .domain) start none : ExceptT StoreError m _)
  pure (.ofHistory stream events snapshot)

/-- The cached timeline of a stream, or the one that the event store holds. -/
def fetch (st : CachedStore m) (stream : StreamRef) : ExceptT StoreError m Timeline := do
  let key := stream.key .domain
  match (← st.cache.get)[key]? with
  | some t => pure t
  | none =>
    let t ← st.load stream
    st.remember key t
    pure t

def ensureWritable (st : CachedStore m) (key : String) : ExceptT StoreError m Unit := do
  let (_, metadata) ← (st.events.metadata key : ExceptT StoreError m _)
  match metadata.frozen with
  | none => pure ()
  | some f =>
    if f.owner = st.owner ∨ isStale st.freezeTimeout (← st.surroundings.now) f then pure ()
    else throw (.frozen key f.owner)

def snapshotRecord (t : Timeline) (s : Snapshot) (id : Uuid) : Event where
  stream := t.stream
  lane := .snapshot
  version := s.version
  time := s.taken
  headers := ∅
  commitHeaders := ∅
  id := some id
  kind := snapshotKind
  payload := s.toJson

def writeOobs (st : CachedStore m) (headers : Headers) :
    List (String × List Event) → ExceptT StoreError m Unit
  | [] => pure ()
  | (key, events) :: rest => do
    match NonEmptyList.ofList? events with
    | some events => discard (st.events.write key events headers none : ExceptT StoreError m _)
    | none => pure ()
    st.writeOobs headers rest

/-- Store what is pending in a timeline: the domain events, then the out-of-band events, then
the snapshot. The result is the version after the domain events. -/
def store (st : CachedStore m) (commitId : Uuid) (t : Timeline) (headers : Headers)
    (expected : Option Int) : ExceptT StoreError m Int := do
  let key := t.key .domain
  st.ensureWritable key
  let headers := headers.insert Headers.commitId commitId.text
  let version ←
    match NonEmptyList.ofList? t.pending with
    | some events => (st.events.write key events headers expected : ExceptT StoreError m _)
    -- without a domain event nothing is asked, so no version is checked
    | none => pure t.version
  -- every part is a request of its own, and the parts before one that fails stay stored
  st.writeOobs headers t.oobBatches
  match t.pendingSnapshot with
  | some s =>
    let record := snapshotRecord t s (← st.surroundings.freshId)
    discard (st.events.write (t.key .snapshot) ⟨[record], by simp⟩ headers none :
      ExceptT StoreError m _)
  | none => pure ()
  pure version

/-- Store what is pending with a check of the version, and cache the settled timeline. -/
def write (st : CachedStore m) (commitId : Uuid) (t : Timeline) (headers : Headers) :
    ExceptT StoreError m Int := do
  let key := t.key .domain
  match ← ExceptT.lift (st.store commitId t headers (some t.version)).run with
  | .ok version =>
    -- whatever is cached gives way, also a copy at a later version
    st.remember key t.settle
    pure version
  | .error err =>
    if err.versionConflict?.isSome then st.evict key
    throw err

/-- Store what is pending without a check of the version, and drop the cached timeline. -/
def append (st : CachedStore m) (commitId : Uuid) (t : Timeline) (headers : Headers) :
    ExceptT StoreError m Int := do
  let result ← ExceptT.lift (st.store commitId t headers none).run
  st.evict (t.key .domain)
  result

/-- Take hold of a stream, unless it is held already and the freeze is not stale. -/
def freeze (st : CachedStore m) (t : Timeline) : ExceptT StoreError m Unit := do
  let key := t.key .domain
  let (revision, metadata) ← (st.events.metadata key : ExceptT StoreError m _)
  let now ← st.surroundings.now
  match metadata.frozen with
  | some f => if isStale st.freezeTimeout now f then pure () else throw (.frozen key f.owner)
  | none => pure ()
  discard (st.events.writeMetadata key { metadata with frozen := some ⟨st.owner, now⟩ } revision :
    ExceptT StoreError m _)

def unfreeze (st : CachedStore m) (t : Timeline) : ExceptT StoreError m Unit := do
  let key := t.key .domain
  let (revision, metadata) ← (st.events.metadata key : ExceptT StoreError m _)
  match metadata.frozen with
  | none => pure ()
  | some f =>
    if f.owner = st.owner then
      discard (st.events.writeMetadata key { metadata with frozen := none } revision :
        ExceptT StoreError m _)

/-- Refuse a timeline that is not at the version of its stream, and drop the cached one. -/
def verify (st : CachedStore m) (t : Timeline) : ExceptT StoreError m Unit := do
  let key := t.key .domain
  match ← ExceptT.lift (st.events.verify key t.version) with
  | .ok () => pure ()
  | .error err =>
    if err.versionConflict?.isSome then st.evict key
    throw err

def streams (st : CachedStore m) : StreamStore m where
  fetch stream := (st.fetch stream).run
  write commitId t headers := (st.write commitId t headers).run
  append commitId t headers := (st.append commitId t headers).run
  freeze t := (st.freeze t).run
  unfreeze t := (st.unfreeze t).run
  verify t := (st.verify t).run

def picture (events : Text.Picture) (owner : Uuid) (freezeTimeout : Span) : Text.Picture :=
  .record "StreamStore" true [("events", events), ("instance", .word owner.text),
    ("freeze_timeout", freezeTimeout.picture)]

end CachedStore

end Chronicle
