import Chronicle.Event.Snapshot

/-!
# Routes

A table of routes says how the events of one kind of entity act on its state. A handle route
applies an event of the history. A conflict route decides about an event that meets a newer
history: it merges the event into the state, discards it, or abandons the whole batch.
Conflict routes may have effects in the surroundings `m`.

`hydrate` applies the handle routes to a list of events. Events without a route are skipped,
and an event that cannot be read stops the run with the state reached so far.
-/

namespace Chronicle

/-- A type of event: its kind and its JSON form. -/
structure EventType (E : Type) where
  kind : String
  encode : E → Except String Json
  decode : Json.Decoder E

/-- Why a conflict route did not merge an event. -/
inductive ConflictSignal where
  | discard
  | abandon (reason : String)
deriving DecidableEq, Inhabited

def abandonMessage (reason : String) : String :=
  "conflict abandoned: " ++ reason

def ConflictSignal.message : ConflictSignal → String
  | discard => "conflicting event discarded"
  | abandon reason => abandonMessage reason

inductive RouteKind where
  | handle
  | conflict
deriving DecidableEq, Inhabited

def RouteKind.name : RouteKind → String
  | handle => "handle"
  | conflict => "conflict"

inductive RouteError where
  | noRoute (entity kind : String) (route : RouteKind)
  | decode (kind : String) (error : Json.DecodeError)
  | encode (kind : String) (reason : String)
deriving DecidableEq, Inhabited

def RouteError.message : RouteError → String
  | noRoute entity kind route =>
    "no " ++ route.name ++ " route on `" ++ entity ++ "` for event kind `" ++ kind ++ "`"
  | decode kind error => "failed to decode `" ++ kind ++ "` payload: " ++ error.message
  | encode kind reason => "failed to encode `" ++ kind ++ "`: " ++ reason

/-- Why a conflict route did not merge an event: it could not be reached, or it declined. -/
inductive ConflictError where
  | route (error : RouteError)
  | signal (signal : ConflictSignal)
deriving DecidableEq, Inhabited

def ConflictError.message : ConflictError → String
  | route error => error.message
  | signal s => s.message

structure SnapshotRoutes (S : Type) where
  policy : SnapshotPolicy
  encode : S → Except String Json
  decode : Json.Decoder S

/-- A conflict route: what it says about the event, and the state it leaves. -/
abbrev ConflictRoute (m : Type → Type) (S : Type) :=
  S → m (Except ConflictSignal Unit × S)

/-- The routes of one kind of entity. -/
structure Routes (m : Type → Type) (S : Type) where
  entity : String
  initial : S
  handlers : Std.ExtTreeMap String (Json → Except Json.DecodeError (S → S))
  conflicts : Std.ExtTreeMap String (Json → Except Json.DecodeError (ConflictRoute m S))
  snapshots : Option (SnapshotRoutes S)

namespace Routes

variable {m : Type → Type} {S E : Type}

def new (entity : String) (initial : S) : Routes m S :=
  ⟨entity, initial, ∅, ∅, none⟩

def handle (r : Routes m S) (type : EventType E) (apply : E → S → S) : Routes m S :=
  { r with handlers := r.handlers.insert type.kind fun v => (type.decode v).map apply }

def conflict (r : Routes m S) (type : EventType E) (merge : E → ConflictRoute m S) :
    Routes m S :=
  { r with conflicts := r.conflicts.insert type.kind fun v => (type.decode v).map merge }

def withSnapshots (r : Routes m S) (policy : SnapshotPolicy) (encode : S → Except String Json)
    (decode : Json.Decoder S) : Routes m S :=
  { r with snapshots := some ⟨policy, encode, decode⟩ }

def hasHandle (r : Routes m S) (kind : String) : Bool := r.handlers.contains kind

def hasConflict (r : Routes m S) (kind : String) : Bool := r.conflicts.contains kind

def policy? (r : Routes m S) : Option SnapshotPolicy := r.snapshots.map (·.policy)

/-- Apply an event of the history; the flag says whether there was a route. -/
def handleEvent (r : Routes m S) (s : S) (e : Event) : Except RouteError (S × Bool) :=
  match r.handlers[e.kind]? with
  | none => .ok (s, false)
  | some route =>
    match route e.payload with
    | .ok apply => .ok (apply s, true)
    | .error err => .error (.decode e.kind err)

def noConflictRoute (r : Routes m S) (kind : String) : ConflictError :=
  .route (.noRoute r.entity kind .conflict)

def conflictEvent [Monad m] (r : Routes m S) (s : S) (e : Event) :
    m (Except ConflictError Unit × S) :=
  match r.conflicts[e.kind]? with
  | none => pure (.error (r.noConflictRoute e.kind), s)
  | some route =>
    match route e.payload with
    | .error err => pure (.error (.route (.decode e.kind err)), s)
    | .ok merge => do
      let (outcome, s) ← merge s
      pure (outcome.mapError .signal, s)

def encodeSnapshot (r : Routes m S) (s : S) : Except RouteError (Option Json) :=
  match r.snapshots with
  | none => .ok none
  | some routes =>
    match routes.encode s with
    | .ok v => .ok (some v)
    | .error reason => .error (.encode r.entity reason)

def decodeSnapshot (r : Routes m S) (v : Json) : Except RouteError (Option S) :=
  match r.snapshots with
  | none => .ok none
  | some routes =>
    match routes.decode v with
    | .ok s => .ok (some s)
    | .error err => .error (.decode r.entity err)

/-- Apply a history to a state. The result is the number of events that had a route, or the
first failure, with the state reached by then. -/
def hydrate (r : Routes m S) : S → List Event → Except RouteError Nat × S
  | s, [] => (.ok 0, s)
  | s, e :: rest =>
    match r.handleEvent s e with
    | .error err => (.error err, s)
    | .ok (s, applied) =>
      let (count, s) := r.hydrate s rest
      (count.map (· + if applied then 1 else 0), s)

def picture (r : Routes m S) : Text.Picture :=
  .record "Routes" false [("entity", .string r.entity),
    ("handlers", .list (r.handlers.keys.map .string)),
    ("conflicts", .list (r.conflicts.keys.map .string)),
    ("snapshots", .option (r.policy?.map SnapshotPolicy.picture))]

end Routes

/-- The kinds of entities whose tables have been built. Each table is built once and then
shared. -/
structure RouteRegistry where
  built : List String
deriving DecidableEq, Inhabited

namespace RouteRegistry

def empty : RouteRegistry := ⟨[]⟩

def visit (r : RouteRegistry) (entity : String) : RouteRegistry :=
  if r.built.contains entity then r else ⟨r.built ++ [entity]⟩

def picture (r : RouteRegistry) : Text.Picture :=
  .record "RouteResolver" false [("cached", .int r.built.length)]

end RouteRegistry

def Json.DecodeError.picture (e : Json.DecodeError) : Text.Picture :=
  .word ("Error(" ++ Text.quoted e.message ++ ", line: 0, column: 0)")

def RouteError.picture : RouteError → Text.Picture
  | noRoute entity kind route =>
    .record "NoRoute" false [("entity", .string entity), ("kind", .string kind),
      ("route", .word (match route with | .handle => "Handle" | .conflict => "Conflict"))]
  | decode kind error =>
    .record "Decode" false [("kind", .string kind), ("source", error.picture)]
  | encode kind reason =>
    .record "Encode" false [("kind", .string kind),
      ("source", (Json.DecodeError.malformed reason).picture)]

def ConflictError.picture : ConflictError → Text.Picture
  | route error => .tuple "Route" [error.picture]
  | signal .discard => .tuple "Signal" [.tuple "Discard" [.word "DiscardEvent"]]
  | signal (.abandon reason) =>
    .tuple "Signal" [.tuple "Abandon"
      [.record "AbandonConflict" false [("reason", .string reason)]]]

end Chronicle
