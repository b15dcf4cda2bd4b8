import Chronicle.Resolve.Load
import Chronicle.Resolve.Merge
import Chronicle.Staging.Agenda
import Chronicle.Staging.Queue

/-!
# Staging batches and merging them later

A batch that meets a newer history is staged in the group of its stream, and the stream is put
on the agenda. Once the oldest staged batch is old enough, the staged batches are merged in one
go, together with the batch that found them due.

Batches that were pulled and could not be merged are given back and the stream is scheduled
again. When only the current batch is to blame, the staged batches are merged without it.
-/

namespace Chronicle

/-- A staged batch: the kind of entity and its parents, with the events. -/
structure ConflictBatch where
  entity : String
  parents : List ParentRef
  events : List Event
deriving DecidableEq

namespace ConflictBatch

/-- The stream that a batch is meant for, as its first event names it. -/
def stream? (b : ConflictBatch) : Option StreamRef :=
  b.events.head?.map fun first =>
    { entity := b.entity, bucket := first.stream.bucket, id := first.stream.id,
      parents := b.parents }

def toJson (b : ConflictBatch) : Json :=
  .ofFields [("entity_type", .string b.entity),
    ("parents", .array (b.parents.map ParentRef.toJson)),
    ("events", .array (b.events.map Event.toJson))]

def decode : Json.Decoder ConflictBatch :=
  Json.Fields.record "ConflictingEvents" (ConflictBatch.mk <$> .field "entity_type" .string <*>
    .field "parents" (.list ParentRef.decode) (.anywhere []) <*>
    .field "events" (.list Event.decode))

end ConflictBatch

def weakChannel : String := "resolve_weakly"

def stagedEvents (pulled : List (Staged ConflictBatch)) : List Event :=
  pulled.flatMap fun s => s.message.events

structure WeakResolver (m : Type → Type) where
  store : StreamStore m
  staging : Staging m ConflictBatch
  agenda : Cell m (Agenda StreamRef)
  surroundings : Surroundings m
  ageThreshold : Span
  pullMax : Option Nat
  freezeThreshold : Nat

namespace WeakResolver

variable {m : Type → Type} {S : Type} [Monad m]

/-- A resolver with the age, the pull limit and the freeze threshold of the settings. -/
def ofSettings (c : ConflictSettings) (store : StreamStore m) (staging : Staging m ConflictBatch)
    (agenda : Cell m (Agenda StreamRef)) (surroundings : Surroundings m) : WeakResolver m :=
  { store, staging, agenda, surroundings, ageThreshold := c.weakAge, pullMax := c.weakPullMax,
    freezeThreshold := c.freezeThreshold }

def schedule (r : WeakResolver m) (stream : StreamRef) (delay : Span) : m Unit :=
  r.agenda.schedule r.surroundings stream delay

/-- Merge staged batches into a freshly loaded entity, without any other batch. The entity at
hand is replaced if that works. -/
def mergeStagedAlone (r : WeakResolver m) (routes : Routes m S)
    (pulled : List (Staged ConflictBatch)) : Resolving m S Bool := do
  let stream := (← Resolving.entity).timeline.stream
  match ← Resolving.ask (loadEntity r.store routes stream).run with
  | .error _ => pure false
  | .ok fresh =>
    let commitId ← Resolving.ask r.surroundings.freshId
    let merge := settleBatch r.store r.surroundings routes (stagedEvents pulled) commitId ∅
      .resolveWeakly r.freezeThreshold
    match ← Resolving.ask (merge.run.run fresh) with
    | (.ok _, fresh) =>
      Resolving.setEntity fresh
      pure true
    | (.error _, _) => pure false

/-- Merge the staged batches of an entity's stream together with a current batch. What is left to
do goes on the agenda under the stream that the entity has after the merge. -/
def resolveStaged (r : WeakResolver m) (routes : Routes m S) (current : List Event)
    (commitId : Uuid) (headers : Headers) : Resolving m S Resolution := do
  let key := (← Resolving.entity).timeline.key .domain
  let waiting ← Resolving.staging (r.staging.size weakChannel key)
  let pulled ← Resolving.staging (r.staging.pull weakChannel key r.pullMax)
  let events := stagedEvents pulled ++ current
  if events.isEmpty then pure .discarded
  else
    let result ← (settleBatch r.store r.surroundings routes events commitId headers
      .resolveWeakly r.freezeThreshold).outcome
    let settled ←
      match result with
      | .ok _ => pure true
      | .error err =>
        -- a failure for now may pass, so nothing is to blame yet
        if !err.isTransient && !current.isEmpty && !pulled.isEmpty then
          r.mergeStagedAlone routes pulled
        else pure false
    let stream := (← Resolving.entity).timeline.stream
    if settled then
      if pulled.length < waiting then Resolving.ask (r.schedule stream .zero)
    else if !pulled.isEmpty then
      -- also after a write that succeeded under a freeze that could not be given up
      Resolving.staging (r.staging.requeue weakChannel key pulled)
      Resolving.ask (r.schedule stream r.ageThreshold)
    result

/-- Stage a batch, or merge it with the staged ones if they have waited long enough. -/
def resolve (r : WeakResolver m) (routes : Routes m S) (batch : List Event) (commitId : Uuid)
    (headers : Headers) : Resolving m S Resolution := do
  let e ← Resolving.entity
  let key := e.timeline.key .domain
  let age ← Resolving.staging (r.staging.age weakChannel key)
  if (age.any fun age => r.ageThreshold ≤ age) then
    r.resolveStaged routes batch commitId headers
  else
    Resolving.staging (r.staging.add weakChannel key ⟨routes.entity, e.parents, batch⟩)
    -- due when the oldest batch of the group is old enough, not the one just added
    Resolving.ask (r.schedule e.timeline.stream (r.ageThreshold - age.getD .zero))
    pure .deferred

/-- Merge what is staged for a stream. A load that fails for now is tried again later. -/
def handleStaged (r : WeakResolver m) (routes : Routes m S) (stream : StreamRef) :
    m (Except ResolveError Resolution) := do
  match ← (loadEntity r.store routes stream).run with
  | .error err =>
    let err := err.toResolve
    if err.isTransient then r.schedule stream r.ageThreshold
    pure (.error err)
  | .ok e =>
    let commitId ← r.surroundings.freshId
    let (result, _) ← (r.resolveStaged routes [] commitId ∅).run.run e
    pure result

end WeakResolver

end Chronicle
