import Chronicle.Resolve.Strategies

/-!
# Repositories

A repository loads entities, creates them, and commits them. A commit that meets a newer
history reloads the entity, hands the pending batch to the resolver, and replaces the entity
by the reloaded one if that succeeds. If it fails the entity keeps its pending batch.
-/

namespace Chronicle

/-- A bucket of a stream store with a resolver. -/
structure Repository (m : Type → Type) where
  store : StreamStore m
  resolver : Resolver m
  surroundings : Surroundings m
  bucket : String

namespace Repository

variable {m : Type → Type} {S P : Type} [Monad m]

def defaultBucket : String := "default"

def streamRef (r : Repository m) (routes : Routes m S) (id : String) (parents : List ParentRef) :
    StreamRef :=
  { entity := routes.entity, bucket := r.bucket, id, parents }

def childParents (routes : Routes m P) (parent : Entity P) : List ParentRef :=
  parent.parents ++ [parent.parentRef routes]

def newEntity (r : Repository m) (routes : Routes m S) (id : String) :
    Except RouteError (Entity S) :=
  Entity.ofTimeline routes (.empty (r.streamRef routes id []))

def get (r : Repository m) (routes : Routes m S) (id : String) :
    ExceptT LoadError m (Entity S) :=
  loadEntity r.store routes (r.streamRef routes id [])

def newChild (r : Repository m) (routes : Routes m S) (parentRoutes : Routes m P)
    (parent : Entity P) (id : String) : Except RouteError (Entity S) :=
  Entity.ofTimeline routes (.empty (r.streamRef routes id (childParents parentRoutes parent)))

def getChild (r : Repository m) (routes : Routes m S) (parentRoutes : Routes m P)
    (parent : Entity P) (id : String) : ExceptT LoadError m (Entity S) :=
  loadEntity r.store routes (r.streamRef routes id (childParents parentRoutes parent))

def stageSnapshot (r : Repository m) (routes : Routes m S) (e : Entity S) :
    m (Except RouteError (Entity S)) :=
  if e.shouldTakeSnapshot routes then do
    pure (e.takeSnapshot routes (← r.surroundings.now))
  else pure (.ok e)

/-- Reload the stream of an entity and resolve its pending batch there. The result replaces
the entity only if that succeeds. -/
def resolveConflict (r : Repository m) (routes : Routes m S) (e : Entity S) (commitId : Uuid)
    (headers : Headers) : m (Except CommitError CommitOutcome × Entity S) := do
  match ← (loadEntity r.store routes e.timeline.stream).run with
  | .error err => pure (.error (.ofLoad err), e)
  | .ok fresh =>
    match ← (r.resolver.resolve routes e.timeline.batch commitId headers).run.run fresh with
    | (.ok resolution, fresh) => pure (.ok (.resolved resolution), fresh)
    | (.error err, _) => pure (.error (.resolve err), e)

/-- Store what is pending in an entity. The entity comes back in either case. -/
def commit (r : Repository m) (routes : Routes m S) (e : Entity S) (commitId : Uuid)
    (headers : Headers) : m (Except CommitError CommitOutcome × Entity S) := do
  if !e.timeline.dirty then pure (.ok .clean, e)
  else
    match ← r.stageSnapshot routes e with
    | .error err => pure (.error (.route err), e)
    | .ok e =>
      match ← r.store.write commitId e.timeline headers with
      | .ok version => pure (.ok (.written version), e.settle)
      | .error (.version _) => r.resolveConflict routes e commitId headers
      | .error err => pure (.error (.store err), e)

/-- Load an entity, let it record events, and store them without resolving conflicts. -/
def seed (r : Repository m) (routes : Routes m S) (id : String)
    (record : Entity S → m (Except RouteError (Entity S))) : m (Except SeedError Int) := do
  match ← (r.get routes id).run with
  | .error err => pure (.error (.ofLoad err))
  | .ok e =>
    match ← record e with
    | .error err => pure (.error (.route err))
    | .ok e =>
      let commitId ← r.surroundings.freshId
      pure ((← r.store.write commitId e.timeline ∅).mapError .store)

/-- Apply moves to an entity one by one, up to the first that cannot be recorded. -/
def applyAll (s : Surroundings m) (e : Entity S) :
    List (Move S) → m (Except RouteError Unit × Entity S)
  | [] => pure (.ok (), e)
  | move :: rest => do
    match e.apply (← s.stamp) move with
    | .error err => pure (.error err, e)
    | .ok e => applyAll s e rest

/-- Store one event of another writer, through a copy of the entity of its own. -/
def injectConcurrent (r : Repository m) (routes : Routes m S) (id : String) (move : Move S) :
    m (Except SeedError Int) :=
  r.seed routes id fun e => do
    pure (e.apply (← r.surroundings.stamp) move)

end Repository

end Chronicle
