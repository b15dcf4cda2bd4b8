import Chronicle.Entity.Basic
import Chronicle.Store.Surroundings

/-!
# Rehearsing conflict routes

A rehearsal puts an entity into a state through given events and then sends it one conflicting
event, without any store. Expectations look at the outcome; one that is not met says what was
found instead.
-/

namespace Chronicle

structure Rehearsal (S : Type) where
  entity : Entity S

/-- The entity of a rehearsal after the conflicting event, with the outcome of its route. -/
structure RehearsalResult (S : Type) where
  entity : Entity S
  outcome : Except ConflictError Unit

namespace Rehearsal

variable {m : Type → Type} {S : Type}

def stream (entity : String) : StreamRef := ⟨entity, "test", "test", []⟩

def new (routes : Routes m S) : Rehearsal S :=
  ⟨⟨routes.initial, .empty (stream routes.entity), 0⟩⟩

def given (r : Rehearsal S) (stamp : Stamp) (move : Move S) : Except RouteError (Rehearsal S) :=
  (r.entity.apply stamp move).map fun e => ⟨e.settle⟩

def givenFailure (err : RouteError) : String :=
  "given event must serialize: " ++ err.picture.text

def conflictingFailure (reason : String) : String :=
  "conflicting event must serialize: " ++ (Json.DecodeError.malformed reason).picture.text

/-- The conflicting event, recorded on a stream of the same name without parents. -/
def conflicting (r : Rehearsal S) (stamp : Stamp) (kind : String) (payload : Json) : Event :=
  let stream := { r.entity.timeline.stream with parents := [] }
  (Timeline.empty stream).draft .domain 0 stamp kind payload ∅

def whenConflicting [Monad m] (r : Rehearsal S) (routes : Routes m S) (s : Surroundings m)
    (kind : String) (payload : Json) : m (RehearsalResult S) := do
  let event := r.conflicting (← s.stamp) kind payload
  let (outcome, entity) ← r.entity.conflict routes s.stamp event "test"
  pure ⟨entity, outcome⟩

def picture (state : Text.Picture) : Text.Picture :=
  .record "ConflictTest" false [("state", state)]

end Rehearsal

namespace RehearsalResult

variable {S : Type}

def outcomePicture : Except ConflictError Unit → Text.Picture
  | .ok () => .tuple "Ok" [.word "()"]
  | .error err => .tuple "Err" [err.picture]

def butGot (expected : String) (r : RehearsalResult S) : String :=
  expected ++ " but got: " ++ (outcomePicture r.outcome).text

def expectMerged (r : RehearsalResult S) : Except String S :=
  match r.outcome with
  | .ok () =>
    if r.entity.timeline.pending.length = 1 then .ok r.entity.state
    else .error "Expected the merged event to be recorded"
  | .error err => .error ("Expected the conflict to merge but got: " ++ err.message)

def expectDiscarded (r : RehearsalResult S) : Except String Unit :=
  match r.outcome with
  | .error (.signal .discard) => .ok ()
  | _ => .error (r.butGot "Expected the event to be discarded")

def expectAbandoned (r : RehearsalResult S) (part : String) : Except String Unit :=
  match r.outcome with
  | .error (.signal (.abandon reason)) =>
    if Text.contains reason part then .ok ()
    else .error ("Expected abandon reason to contain '" ++ part ++ "' but got: " ++ reason)
  | _ => .error (r.butGot "Expected the conflict to be abandoned")

def expectNoRoute (r : RehearsalResult S) : Except String Unit :=
  match r.outcome with
  | .error (.route (.noRoute ..)) => .ok ()
  | _ => .error (r.butGot "Expected no conflict route")

end RehearsalResult

end Chronicle
