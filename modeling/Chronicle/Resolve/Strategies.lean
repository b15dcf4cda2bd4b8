import Chronicle.Resolve.Weak

/-!
# The five strategies

Each strategy receives a freshly loaded entity and the batch that met its newer history.
-/

namespace Chronicle

/-- A way of resolving conflicts for entities of any kind. -/
structure Resolver (m : Type → Type) where
  strategy : ConflictStrategy
  resolve : {S : Type} → Routes m S → List Event → Uuid → Headers → Resolving m S Resolution

namespace Resolver

variable {m : Type → Type} [Monad m]

def throwing : Resolver m where
  strategy := .throw
  resolve routes _ _ _ :=
    throw (.failed routes.entity "conflicts are not resolved for this entity")

def discarding : Resolver m where
  strategy := .discard
  resolve _ _ _ _ := pure .discarded

/-- What one event of a batch that is stored all the same does to an entity. -/
def reapplyEvent {S : Type} (routes : Routes m S) (stamp : m Stamp) (event : Event) :
    Resolving m S Unit := do
  match event.lane with
  | .domain =>
    let stamp ← Resolving.ask stamp
    match (← Resolving.entity).reapply routes stamp event ConflictStrategy.ignore.name with
    | .ok e => Resolving.setEntity e
    | .error err => throw (.route err)
  | .oob =>
    let stamp ← Resolving.ask stamp
    let (_, e) := (← Resolving.entity).reraise stamp event
    Resolving.setEntity e
  | _ => pure ()

def reapplyAll {S : Type} (routes : Routes m S) (stamp : m Stamp) :
    List Event → Resolving m S Unit
  | [] => pure ()
  | event :: rest => do
    reapplyEvent routes stamp event
    reapplyAll routes stamp rest

/-- Store every batch behind the newer history, without a check of the version. -/
def ignoring (store : StreamStore m) (s : Surroundings m) : Resolver m where
  strategy := .ignore
  resolve routes batch commitId headers := do
    reapplyAll routes s.stamp batch
    let e ← Resolving.entity
    if e.timeline.dirty then
      discard (Resolving.store (store.append commitId e.timeline headers))
      Resolving.setEntity e.settle
      pure .committed
    else pure .discarded

def strong (store : StreamStore m) (s : Surroundings m) (freezeThreshold : Nat) : Resolver m where
  strategy := .resolveStrongly
  resolve routes batch commitId headers :=
    settleBatch store s routes batch commitId headers .resolveStrongly freezeThreshold

/-- Stage every batch, or merge it with the staged ones once they are old enough. -/
def weak (r : WeakResolver m) : Resolver m where
  strategy := .resolveWeakly
  resolve routes batch commitId headers := r.resolve routes batch commitId headers

/-- The resolver of a strategy, with the settings of a weak resolver. -/
def ofStrategy (strategy : ConflictStrategy) (r : WeakResolver m) : Resolver m :=
  match strategy with
  | .throw => throwing
  | .discard => discarding
  | .ignore => ignoring r.store r.surroundings
  | .resolveStrongly => strong r.store r.surroundings r.freezeThreshold
  | .resolveWeakly => weak r

end Resolver

end Chronicle
