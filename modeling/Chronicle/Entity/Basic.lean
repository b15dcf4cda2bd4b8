import Chronicle.Entity.Routes
import Chronicle.Event.Timeline

/-!
# Entities

An entity is a state together with the timeline it was built from. Its operations take the
table of routes of its kind, and those that record an event take a stamp for it.
-/

namespace Chronicle

/-- A state and the timeline behind it, with the number of conflict routes it went through. -/
structure Entity (S : Type) where
  state : S
  timeline : Timeline
  conflicts : Nat
deriving DecidableEq

/-- An event that is about to be recorded: its kind, its payload or the reason why it has none,
and what it does to the state. -/
structure Move (S : Type) where
  kind : String
  payload : Except String Json
  apply : S → S

namespace EventType

def move {E S : Type} (type : EventType E) (event : E) (apply : E → S → S) : Move S :=
  ⟨type.kind, type.encode event, apply event⟩

end EventType

namespace Move

variable {S : Type}

def encoded (move : Move S) : Except RouteError Json :=
  move.payload.mapError (.encode move.kind)

end Move

namespace Entity

variable {m : Type → Type} {S : Type}

def startState (routes : Routes m S) (t : Timeline) : Except RouteError S :=
  match t.snapshot with
  | none => .ok routes.initial
  | some s => (routes.decodeSnapshot s.memento).map fun state => state.getD routes.initial

/-- The entity of a timeline: its snapshot with the settled events applied. -/
def ofTimeline (routes : Routes m S) (t : Timeline) : Except RouteError (Entity S) := do
  let start ← startState routes t
  match routes.hydrate start t.settled with
  | (.ok _, state) => .ok ⟨state, t, 0⟩
  | (.error err, _) => .error err

def id (e : Entity S) : String := e.timeline.stream.id

def parents (e : Entity S) : List ParentRef := e.timeline.stream.parents

def version (e : Entity S) : Int := e.timeline.version

def parentRef (e : Entity S) (routes : Routes m S) : ParentRef := ⟨routes.entity, e.id⟩

/-- Record an event and apply it to the state. An event that cannot be encoded changes
nothing. -/
def apply (e : Entity S) (stamp : Stamp) (move : Move S) : Except RouteError (Entity S) :=
  move.encoded.map fun payload =>
    { e with
      timeline := e.timeline.add stamp move.kind payload ∅
      state := move.apply e.state }

def raiseHeaders (transient : Bool) (daysToLive : Option Nat) : Headers :=
  let headers : Headers :=
    (∅ : Headers).insert Headers.oobTransient (if transient then "true" else "false")
  match daysToLive with
  | some days => headers.insert Headers.oobDaysToLive (toString days)
  | none => headers

def raise (e : Entity S) (stamp : Stamp) (move : Move S) (channel : String) (transient : Bool)
    (daysToLive : Option Nat) : Except RouteError (Entity S) :=
  move.encoded.map fun payload =>
    { e with timeline :=
        e.timeline.addOob stamp move.kind payload channel (raiseHeaders transient daysToLive) }

/-- The headers of an event that is recorded again, with the strategy that did so. -/
def mergedHeaders (event : Event) (strategy : String) : Headers :=
  event.headers.insert Headers.conflictResolution strategy

/-- Record an event of another history again. -/
def record (e : Entity S) (stamp : Stamp) (event : Event) (strategy : String) : Entity S :=
  { e with timeline :=
      e.timeline.add stamp event.kind event.payload (mergedHeaders event strategy) }

/-- Send an event through its conflict route, and record it if it was merged. -/
def conflict [Monad m] (e : Entity S) (routes : Routes m S) (stamp : m Stamp) (event : Event)
    (strategy : String) : m (Except ConflictError Unit × Entity S) :=
  if routes.hasConflict event.kind then do
    let (outcome, state) ← routes.conflictEvent e.state event
    let e := { e with state, conflicts := e.conflicts + 1 }
    match outcome with
    | .ok () => pure (.ok (), e.record (← stamp) event strategy)
    | .error err => pure (.error err, e)
  else pure (.error (routes.noConflictRoute event.kind), e)

/-- Apply an event through its handle route, if it has one, and record it in any case. -/
def reapply (e : Entity S) (routes : Routes m S) (stamp : Stamp) (event : Event)
    (strategy : String) : Except RouteError (Entity S) :=
  (routes.handleEvent e.state event).map fun (state, _) =>
    { e with state }.record stamp event strategy

/-- Record an out-of-band event again; an event that names no channel is dropped. -/
def reraise (e : Entity S) (stamp : Stamp) (event : Event) : Bool × Entity S :=
  match event.channel? with
  | none => (false, e)
  | some channel =>
    (true, { e with timeline :=
      e.timeline.addOob stamp event.kind event.payload channel event.headers })

def shouldTakeSnapshot (e : Entity S) (routes : Routes m S) : Bool :=
  !e.timeline.pending.isEmpty &&
    match routes.policy? with
    | some policy => policy.isDue e.timeline.sinceSnapshot
    | none => false

/-- Put a snapshot of the state among what is to be stored, if states are recorded at all. -/
def takeSnapshot (e : Entity S) (routes : Routes m S) (time : Moment) :
    Except RouteError (Entity S) :=
  (routes.encodeSnapshot e.state).map fun memento =>
    match memento with
    | some memento => { e with timeline := e.timeline.addSnapshot time memento }
    | none => e

/-- Replace the state by a recorded one; `false` if states are not recorded. -/
def restore (e : Entity S) (routes : Routes m S) (snapshot : Snapshot) :
    Except RouteError (Bool × Entity S) :=
  (routes.decodeSnapshot snapshot.memento).map fun state =>
    match state with
    | some state => (true, { e with state })
    | none => (false, e)

/-- Apply further events to the state without recording them. -/
def hydrate (e : Entity S) (routes : Routes m S) (events : List Event) :
    Except RouteError Nat × Entity S :=
  let (count, state) := routes.hydrate e.state events
  (count, { e with state })

def settle (e : Entity S) : Entity S := { e with timeline := e.timeline.settle }

end Entity

end Chronicle
