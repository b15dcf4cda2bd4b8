import Chronicle.Entity.Basic
import Chronicle.Resolve.Outcome
import Chronicle.Resolve.Settings
import Chronicle.Store.Streams

/-!
# Merging a batch into an entity

`replay` sends the domain events of a batch through their conflict routes, in order, and
records its out-of-band events again. `settleBatch` does so for a freshly loaded entity and
stores what was recorded; a batch of more domain events than the threshold freezes the stream
meanwhile, and the freeze is given up last, whatever happened.
-/

namespace Chronicle

/-- A step that works on an entity and may fail to resolve; the entity is kept in both cases. -/
abbrev Resolving (m : Type → Type) (S : Type) := ExceptT ResolveError (StateT (Entity S) m)

namespace Resolving

variable {m : Type → Type} {S α : Type} [Monad m]

def store (request : m (Except StoreError α)) : Resolving m S α :=
  ExceptT.mk do
    return (← StateT.lift request).mapError .ofStore

def staging (request : m (Except String α)) : Resolving m S α :=
  ExceptT.mk do
    return (← StateT.lift request).mapError .channel

def ask (request : m α) : Resolving m S α :=
  ExceptT.lift (StateT.lift request)

/-- The outcome of a step, as a value. -/
def outcome (step : Resolving m S α) : Resolving m S (Except ResolveError α) :=
  ExceptT.lift step.run

def entity : Resolving m S (Entity S) := ExceptT.lift get

def setEntity (e : Entity S) : Resolving m S Unit := ExceptT.lift (set e)

end Resolving

variable {m : Type → Type} {S : Type} [Monad m]

/-- What one event of a batch does to an entity, and how many events it merges. -/
def replayEvent (routes : Routes m S) (stamp : m Stamp) (strategy : ConflictStrategy)
    (event : Event) : Resolving m S Nat := do
  match event.lane with
  | .domain =>
    let (outcome, e) ←
      Resolving.ask ((← Resolving.entity).conflict routes stamp event strategy.name)
    Resolving.setEntity e
    match outcome with
    | .ok () => pure 1
    | .error (.signal .discard) => pure 0
    | .error err => throw (.ofConflict routes.entity err)
  | .oob =>
    let stamp ← Resolving.ask stamp
    let (_, e) := (← Resolving.entity).reraise stamp event
    Resolving.setEntity e
    pure 0
  | _ => pure 0

/-- Merge the events of a batch into an entity. The result is the number of events merged. -/
def replay (routes : Routes m S) (stamp : m Stamp) (strategy : ConflictStrategy) :
    List Event → Resolving m S Nat
  | [] => pure 0
  | event :: rest => do
    let merged ← replayEvent routes stamp strategy event
    let others ← replay routes stamp strategy rest
    pure (merged + others)

/-- Merge a batch and store what was recorded, with a snapshot if one is due. A batch that
leaves nothing to store is discarded. -/
def mergeAndWrite (store : StreamStore m) (s : Surroundings m) (routes : Routes m S)
    (events : List Event) (commitId : Uuid) (headers : Headers) (strategy : ConflictStrategy) :
    Resolving m S Resolution := do
  discard (replay routes s.stamp strategy events)
  let e ← Resolving.entity
  if e.shouldTakeSnapshot routes then
    match e.takeSnapshot routes (← Resolving.ask s.now) with
    | .ok e => Resolving.setEntity e
    | .error err => throw (.route err)
  let e ← Resolving.entity
  if e.timeline.dirty then
    discard (Resolving.store (store.write commitId e.timeline headers))
    Resolving.setEntity e.settle
    pure .committed
  else pure .discarded

def domainCount (events : List Event) : Nat :=
  events.countP fun e => e.lane == .domain

/-- Merge a batch into a freshly loaded entity and store it, under a freeze if it is large. If
the freeze cannot be given up, a success becomes that failure. -/
def settleBatch (store : StreamStore m) (s : Surroundings m) (routes : Routes m S)
    (events : List Event) (commitId : Uuid) (headers : Headers) (strategy : ConflictStrategy)
    (freezeThreshold : Nat) : Resolving m S Resolution := do
  let merge := mergeAndWrite store s routes events commitId headers strategy
  if freezeThreshold < domainCount events then
    Resolving.store (store.freeze (← Resolving.entity).timeline)
    let result ← merge.outcome
    let released ←
      (Resolving.store (store.unfreeze (← Resolving.entity).timeline)).outcome
    match result, released with
    | .ok resolution, .ok () => pure resolution
    | .ok _, .error err => throw err
    | .error err, _ => throw err
  else merge

end Chronicle
