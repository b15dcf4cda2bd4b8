import Chronicle.Resolve.Outcome

/-!
# Reports on failures

A failure is reported as an object with its kind and its message. The kind is the path of
causes, outermost first; a failure to resolve also says whether it is transient.
-/

namespace Chronicle.Report

def failure (kind message : String) : Json :=
  .ofFields [("error", .string kind), ("message", .string message)]

def routeKind : RouteError → String
  | .noRoute .. => "NoRoute"
  | .decode .. => "Decode"
  | .encode .. => "Encode"

def storeKind : StoreError → String
  | .version _ => "Version"
  | .frozen .. => "Frozen"
  | .codec _ => "Codec"
  | .backend _ => "Backend"

def conflictKind : ConflictError → String
  | .route e => "Route/" ++ routeKind e
  | .signal .discard => "Signal/Discard"
  | .signal (.abandon _) => "Signal/Abandon"

def resolveKind : ResolveError → String
  | .failed .. => "Failed"
  | .abandoned _ => "Abandoned"
  | .version _ => "Version"
  | .frozen .. => "Frozen"
  | .route e => "Route/" ++ routeKind e
  | .store _ => "Store"
  | .channel _ => "Channel"

def loadKind : LoadError → String
  | .store e => "Store/" ++ storeKind e
  | .route e => "Route/" ++ routeKind e

def commitKind : CommitError → String
  | .store e => "Store/" ++ storeKind e
  | .route e => "Route/" ++ routeKind e
  | .resolve e => "Resolve/" ++ resolveKind e

def seedKind : SeedError → String
  | .store e => "Store/" ++ storeKind e
  | .route e => "Route/" ++ routeKind e

def route (e : RouteError) : Json := failure (routeKind e) e.message

def store (e : StoreError) : Json := failure (storeKind e) e.message

def conflict (e : ConflictError) : Json := failure (conflictKind e) e.message

def load (e : LoadError) : Json := failure (loadKind e) e.message

def commit (e : CommitError) : Json := failure (commitKind e) e.message

def seed (e : SeedError) : Json := failure (seedKind e) e.message

def resolve (e : ResolveError) : Json :=
  .ofFields [("error", .string (resolveKind e)), ("message", .string e.message),
    ("transient", .bool e.isTransient)]

end Chronicle.Report
