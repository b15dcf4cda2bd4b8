import Chronicle.Session.Basic

/-!
# What a session does with its entities

Steps that fill a slot with an entity, change the entity in a slot, or commit and resolve it
through a node. A slot whose entity could not be made or loaded keeps what it held.
-/

namespace Chronicle.Session

open Samples (Kind)

def newEntity (n : Nat) (name : String) (k : Kind) (id : String) :
    InSession (Except RouteError Unit) := do
  fill name k (((← node n).repository site).newEntity (routes k) id)

def load (n : Nat) (name : String) (k : Kind) (id : String) :
    InSession (Except LoadError Unit) := do
  let node ← node n
  fill name k (← act ((node.repository site).get (routes k) id).run)

def newChild (n : Nat) (name : String) (k : Kind) (parent id : String) :
    InSession (Except RouteError Unit) := do
  let p ← entity parent
  fill name k
    (((← node n).repository site).newChild (routes k) (routes p.kind) p.entity id)

def loadChild (n : Nat) (name : String) (k : Kind) (parent id : String) :
    InSession (Except LoadError Unit) := do
  let p ← entity parent
  let node ← node n
  fill name k
    (← act ((node.repository site).getChild (routes k) (routes p.kind) p.entity id).run)

def ofTimeline (name : String) (k : Kind) (other : String) :
    InSession (Except RouteError Unit) := do
  fill name k (Entity.ofTimeline (routes k) (← timeline other))

/-- Apply moves to the entity in a slot, up to the first that cannot be recorded. -/
def applyAll (name : String) (moves : (k : Kind) → Except Crash (List (Move k.State))) :
    InSession (Except RouteError Unit) :=
  withEntity name fun k e => do Repository.applyAll surroundings e (← moves k)

def raise (name : String) (move : (k : Kind) → Except Crash (Move k.State)) (channel : String)
    (transient : Bool) (days : Option Nat) : InSession (Except RouteError Unit) :=
  change name fun k e => do
    let move ← move k
    pure (e.raise (← surroundings.stamp) move channel transient days)

def conflict (name : String) (event : Event) (strategy : String) :
    InSession (Except ConflictError Unit) :=
  withEntity name fun k e => e.conflict (routes k) surroundings.stamp event strategy

def reapply (name : String) (event : Event) (strategy : String) :
    InSession (Except RouteError Unit) :=
  change name fun k e => do
    pure (e.reapply (routes k) (← surroundings.stamp) event strategy)

def reraise (name : String) (event : Event) : InSession Bool :=
  withEntity name fun _ e => do pure (e.reraise (← surroundings.stamp) event)

def replayBatch (name : String) (batch : List Event) (strategy : ConflictStrategy) :
    InSession (Except ResolveError Nat) :=
  resolving name fun k => replay (routes k) surroundings.stamp strategy batch

def hydrate (name : String) (batch : List Event) : InSession (Except RouteError Nat) :=
  withEntity name fun k e => pure (e.hydrate (routes k) batch)

def restore (name : String) (snapshot : Snapshot) : InSession (Except RouteError Bool) :=
  withEntity name fun k e => do
    match e.restore (routes k) snapshot with
    | .ok (restored, e) => pure (.ok restored, e)
    | .error err => pure (.error err, e)

def takeSnapshot (name : String) : InSession (Except RouteError Unit) :=
  change name fun k e => do pure (e.takeSnapshot (routes k) (← surroundings.now))

def commit (n : Nat) (name : String) (commitId : Uuid) (headers : Headers) :
    InSession (Except CommitError CommitOutcome) := do
  let node ← node n
  withEntity name fun k e => (node.repository site).commit (routes k) e commitId headers

/-- Let a node load an entity, apply moves to it and store them. -/
def seed (n : Nat) (k : Kind) (id : String) (moves : List (Move k.State)) :
    InSession (Except SeedError Int) := do
  let node ← node n
  act ((node.repository site).seed (routes k) id fun e => do
    let (result, e) ← Repository.applyAll surroundings e moves
    pure (result.map fun _ => e))

/-- Let a node store one event of another writer. -/
def inject (n : Nat) (k : Kind) (id : String) (move : Move k.State) :
    InSession (Except SeedError Int) := do
  let node ← node n
  act ((node.repository site).injectConcurrent (routes k) id move)

/-- Resolve a batch on the entity in a slot, by the strategy of a node or by another one. -/
def resolve (n : Nat) (name : String) (strategy : Option ConflictStrategy) (batch : List Event)
    (commitId : Uuid) (headers : Headers) : InSession (Except ResolveError Resolution) := do
  let node ← node n
  let strategy := strategy.getD node.settings.strategy
  resolving name fun k => (node.resolver site strategy).resolve (routes k) batch commitId headers

def resolveStaged (n : Nat) (name : String) (batch : List Event) (commitId : Uuid)
    (headers : Headers) : InSession (Except ResolveError Resolution) := do
  let node ← node n
  resolving name fun k => (node.weak site).resolveStaged (routes k) batch commitId headers

end Chronicle.Session
