import Chronicle.Entity.Routes
import Chronicle.Store.Error

/-!
# Outcomes of loading, committing and resolving
-/

namespace Chronicle

/-- What became of a batch that met a newer history. -/
inductive Resolution where
  | committed
  | discarded
  | deferred
deriving DecidableEq, Inhabited

def Resolution.name : Resolution → String
  | committed => "Committed"
  | discarded => "Discarded"
  | deferred => "Deferred"

inductive ResolveError where
  | failed (entity reason : String)
  | abandoned (reason : String)
  | version (conflict : VersionConflict)
  | frozen (stream : String) (owner : Uuid)
  | route (error : RouteError)
  | store (cause : String)
  | channel (cause : String)
deriving DecidableEq

namespace ResolveError

def message : ResolveError → String
  | failed entity reason => "conflict resolution failed for `" ++ entity ++ "`: " ++ reason
  | abandoned reason => abandonMessage reason
  | version c => c.message
  | frozen stream owner => StoreError.frozenMessage stream owner
  | route error => error.message
  | store cause => "store error: " ++ cause
  | channel cause => "delayed channel error: " ++ cause

/-- Whether the same attempt may succeed later. -/
def isTransient : ResolveError → Bool
  | version _ | frozen .. | store _ | channel _ => true
  | failed .. | abandoned _ | route _ => false

def ofStore : StoreError → ResolveError
  | .version c => version c
  | .frozen stream owner => frozen stream owner
  | .codec error => store error.message
  | .backend cause => store cause

/-- A conflict route that stopped a batch. A missing route and a discarded event name the kind
of entity. -/
def ofConflict (entity : String) : ConflictError → ResolveError
  | .route (.noRoute _ kind _) => failed entity ("no conflict route for `" ++ kind ++ "`")
  | .route error => route error
  | .signal (.abandon reason) => abandoned reason
  | .signal .discard => failed entity "event discarded outside of a batch"

end ResolveError

inductive LoadError where
  | store (error : StoreError)
  | route (error : RouteError)
deriving DecidableEq

namespace LoadError

def message : LoadError → String
  | store error => "failed to read stream: " ++ error.message
  | route error => "failed to rebuild entity state: " ++ error.message

def toResolve : LoadError → ResolveError
  | store error => .ofStore error
  | route error => .route error

end LoadError

inductive CommitError where
  | store (error : StoreError)
  | route (error : RouteError)
  | resolve (error : ResolveError)
deriving DecidableEq

namespace CommitError

def message : CommitError → String
  | store error => "failed to persist stream: " ++ error.message
  | route error => "failed to stage snapshot: " ++ error.message
  | resolve error => "conflict resolution failed: " ++ error.message

def ofLoad : LoadError → CommitError
  | .store error => store error
  | .route error => route error

end CommitError

inductive CommitOutcome where
  | written (version : Int)
  | clean
  | resolved (resolution : Resolution)
deriving DecidableEq, Inhabited

inductive SeedError where
  | store (error : StoreError)
  | route (error : RouteError)
deriving DecidableEq

namespace SeedError

def message : SeedError → String
  | store error => "failed to persist events: " ++ error.message
  | route error => "failed to route events: " ++ error.message

def ofLoad : LoadError → SeedError
  | .store error => store error
  | .route error => route error

end SeedError

end Chronicle
