import Chronicle.Cluster.Scenario
import Chronicle.Samples.Kind

/-!
# Sessions

A session drives the nodes of a scenario step by step. It keeps what it works with in named
slots, each of which holds an entity of a sample kind or a timeline. A step that makes an
entity fills a slot with it, and leaves the slot alone if that failed.
-/

namespace Chronicle

open Samples (Kind AnyEntity Hooks)

inductive Slot where
  | entity (e : AnyEntity)
  | timeline (t : Timeline)

def Slot.history : Slot → Timeline
  | .entity e => e.entity.timeline
  | .timeline t => t

structure Member where
  node : Node
  kinds : List Kind

structure Session where
  members : List Member
  slots : List (String × Slot)

abbrev InSession := StateT Session Run

namespace Session

/-- The time at which every session begins. Its fraction of a second sets the times that are
read from the clock apart from those that a request gives. -/
def opened : Moment := ⟨1780272000, 271828183⟩

/-- Where sessions take place. -/
def site : Site Run := Scenario.site opened

def surroundings : Surroundings Run := site.surroundings

/-- Sample routes note in the journal, and break down for good. -/
def hooks : Hooks Run := ⟨Scenario.note, fun _ => throw ⟨"counter broke down"⟩⟩

def routes (k : Kind) : Routes Run k.State := k.routes hooks

def missing {α : Type} (what : String) : InSession α := throw ⟨"bad input: " ++ what⟩

def act {α : Type} (run : Run α) : InSession α := StateT.lift run

def member (n : Nat) : InSession Member := do
  match (← get).members[n]? with
  | some m => pure m
  | none => missing "node"

def node (n : Nat) : InSession Node := do pure (← member n).node

def slot? (name : String) : InSession (Option Slot) := do pure ((← get).slots.lookup name)

def place (name : String) (s : Slot) : InSession Unit :=
  modify fun session =>
    { session with slots := (name, s) :: session.slots.filter (·.1 != name) }

def clear (name : String) : InSession Unit :=
  modify fun session => { session with slots := session.slots.filter (·.1 != name) }

def slot (name : String) : InSession Slot := do
  match ← slot? name with
  | some s => pure s
  | none => missing "slot"

def entity (name : String) : InSession AnyEntity := do
  match ← slot name with
  | .entity e => pure e
  | .timeline _ => missing "entity"

def timeline (name : String) : InSession Timeline := do pure (← slot name).history

def edit (name : String) (f : Stamp → Timeline → Timeline) : InSession Unit := do
  let stamp ← act surroundings.stamp
  match ← slot name with
  | .entity e =>
    place name (.entity ⟨e.kind, { e.entity with timeline := f stamp e.entity.timeline }⟩)
  | .timeline t => place name (.timeline (f stamp t))

def fill {ε : Type} (name : String) (k : Kind) (made : Except ε (Entity k.State)) :
    InSession (Except ε Unit) := do
  match made with
  | .ok e =>
    place name (.entity ⟨k, e⟩)
    pure (.ok ())
  | .error err => pure (.error err)

def withEntity {α : Type} (name : String)
    (f : (k : Kind) → Entity k.State → Run (α × Entity k.State)) : InSession α := do
  let ⟨k, e⟩ ← entity name
  let (a, e) ← act (f k e)
  place name (.entity ⟨k, e⟩)
  pure a

def change {ε : Type} (name : String)
    (f : (k : Kind) → Entity k.State → Run (Except ε (Entity k.State))) :
    InSession (Except ε Unit) :=
  withEntity name fun k e => do
    match ← f k e with
    | .ok e => pure (.ok (), e)
    | .error err => pure (.error err, e)

def resolving {α : Type} (name : String) (step : (k : Kind) → Resolving Run k.State α) :
    InSession (Except ResolveError α) :=
  withEntity name fun k e => (step k).run.run e

/-- What a member is to be like. -/
structure MemberSpec where
  settings : ConflictSettings
  owner : Option Uuid
  bucket : String
  /-- Whether it has a staging area of its own. -/
  ownArea : Bool
  /-- The number of an earlier member whose agenda it shares. -/
  agendaOf : Option Nat
  kinds : List Kind

/-- Set up members one after the other, behind those that are there. The first staging area is
shared. -/
def setUp : List Member → List MemberSpec → Run (List Member)
  | members, [] => pure members
  | members, spec :: rest => do
    let n := members.length
    let owner ←
      match spec.owner with
      | some u => pure u
      | none => surroundings.freshId
    let agenda :=
      match spec.agendaOf with
      | some other => ((members[other]?).map (·.node.agenda)).getD other
      | none => n
    let area := if spec.ownArea then n + 1 else 0
    let node : Node :=
      { owner, bucket := spec.bucket, settings := spec.settings, cache := n, agenda, area }
    setUp (members ++ [⟨node, spec.kinds⟩]) rest

end Session

end Chronicle
