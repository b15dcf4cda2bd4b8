import Chronicle.Event.Snapshot

/-!
# Timelines

A timeline is a working copy of a stream: the settled events that were loaded, and what has
been added since. Added domain events get the versions after the settled one; out-of-band
events carry no version and are grouped by channel; at most one snapshot is pending. A
timeline is settled when all of this has been stored, and reverted to forget it.
-/

namespace Chronicle

/-- The definition of a channel of out-of-band events, taken from the first event on it. -/
structure Channel where
  id : String
  transient : Bool
  daysToLive : Option Nat
deriving DecidableEq, Inhabited

namespace Channel

def toJson (c : Channel) : Json :=
  .ofFields [("id", .string c.id), ("transient", .bool c.transient),
    ("days_to_live", match c.daysToLive with
      | some n => .int n
      | none => .null)]

def decode : Json.Decoder Channel :=
  Json.Fields.record "OobDefinition" (Channel.mk <$> .field "id" .string <*>
    .field "transient" .bool <*> .optional "days_to_live" .u32)

/-- A count of days: digits, possibly behind a plus sign, of a number of 32 bits. -/
def readDays (text : String) : Option Nat :=
  let digits :=
    match text.toList with
    | '+' :: rest => rest
    | cs => cs
  if digits.isEmpty ∨ digits.any (!·.isDigit) then none
  else
    let n := digits.foldl (fun acc c => acc * 10 + (c.toNat - 48)) 0
    if n < 0x100000000 then some n else none

def ofHeaders (id : String) (headers : Headers) : Channel where
  id
  transient := headers[Headers.oobTransient]? != some "false"
  daysToLive := headers[Headers.oobDaysToLive]?.bind readDays

end Channel

/-- A working copy of a stream. -/
structure Timeline where
  stream : StreamRef
  /-- The version of the stream that was loaded or last stored. -/
  version : Int
  /-- The version after the pending events. -/
  nextVersion : Int
  /-- The settled events after the snapshot, oldest first. -/
  settled : List Event
  /-- The domain events to be stored. -/
  pending : List Event
  /-- The channels on which an out-of-band event was ever added. -/
  channels : List Channel
  /-- The out-of-band events to be stored. -/
  pendingOobs : List Event
  /-- The last snapshot that was loaded or stored. -/
  snapshot : Option Snapshot
  /-- The snapshot to be stored. -/
  pendingSnapshot : Option Snapshot
deriving DecidableEq

namespace Timeline

/-- The timeline of a stream with a history: its version is that of the last event, or that of
the snapshot. -/
def ofHistory (stream : StreamRef) (settled : List Event) (snapshot : Option Snapshot) :
    Timeline :=
  let version :=
    match settled.getLast?, snapshot with
    | some event, _ => event.version
    | none, some s => s.version
    | none, none => newStreamVersion
  { stream, version, nextVersion := version, settled, pending := [], channels := [],
    pendingOobs := [], snapshot, pendingSnapshot := none }

def empty (stream : StreamRef) : Timeline := ofHistory stream [] none

def key (t : Timeline) (lane : Lane) : String := t.stream.key lane

def dirty (t : Timeline) : Bool :=
  !t.pending.isEmpty || !t.pendingOobs.isEmpty || t.pendingSnapshot.isSome

def pendingCount (t : Timeline) : Nat := t.pending.length + t.pendingOobs.length

/-- All events to be stored, the domain events first. -/
def batch (t : Timeline) : List Event := t.pending ++ t.pendingOobs

def oobsOf (t : Timeline) (channel : String) : List Event :=
  t.pendingOobs.filter fun e => e.channel? == some channel

/-- The pending out-of-band events by channel, under the keys of the channels; channels
without events are left out. -/
def oobBatches (t : Timeline) : List (String × List Event) :=
  t.channels.filterMap fun c =>
    match t.oobsOf c.id with
    | [] => none
    | events => some (t.stream.channelKey c.id, events)

/-- How many events there are after the last snapshot, the pending ones included. -/
def sinceSnapshot (t : Timeline) : Nat :=
  let base :=
    match t.snapshot with
    | some s => s.version
    | none => newStreamVersion
  (t.nextVersion - base).toNat

def draft (t : Timeline) (lane : Lane) (version : Int) (stamp : Stamp) (kind : String)
    (payload : Json) (headers : Headers) : Event where
  stream := t.stream
  lane
  version
  time := stamp.time
  headers
  commitHeaders := ∅
  id := some stamp.id
  kind
  payload

/-- Add a domain event. The version behind the pending events has to be one that an event can have,
so at most `lastVersion`. -/
def add (t : Timeline) (stamp : Stamp) (kind : String) (payload : Json) (headers : Headers) :
    Timeline :=
  let version := t.nextVersion + 1
  { t with
    nextVersion := version
    pending := t.pending ++ [t.draft .domain version stamp kind payload headers] }

/-- Add an out-of-band event on a channel, which its headers name from then on. The channel is
defined if it is new. -/
def addOob (t : Timeline) (stamp : Stamp) (kind : String) (payload : Json) (channel : String)
    (headers : Headers) : Timeline :=
  let headers := headers.insert Headers.oob channel
  { t with
    channels :=
      if t.channels.any (·.id == channel) then t.channels
      else t.channels ++ [Channel.ofHeaders channel headers]
    pendingOobs :=
      t.pendingOobs ++ [t.draft .oob newStreamVersion stamp kind payload headers] }

/-- Put a snapshot of the state after the pending events among what is to be stored. -/
def addSnapshot (t : Timeline) (time : Moment) (memento : Json) : Timeline :=
  { t with pendingSnapshot := some ⟨t.nextVersion, memento, time⟩ }

def settle (t : Timeline) : Timeline :=
  { t with
    version := t.nextVersion
    -- the events that the new snapshot covers stay
    settled := t.settled ++ t.pending
    pending := []
    pendingOobs := []
    snapshot := t.pendingSnapshot <|> t.snapshot
    pendingSnapshot := none }

def revert (t : Timeline) : Timeline :=
  { t with
    nextVersion := t.version
    pending := []
    pendingOobs := []
    pendingSnapshot := none }

@[simp] theorem pending_add (t : Timeline) (stamp : Stamp) (kind : String) (payload : Json)
    (headers : Headers) :
    (t.add stamp kind payload headers).pending =
      t.pending ++ [t.draft .domain (t.nextVersion + 1) stamp kind payload headers] := rfl

@[simp] theorem nextVersion_add (t : Timeline) (stamp : Stamp) (kind : String) (payload : Json)
    (headers : Headers) :
    (t.add stamp kind payload headers).nextVersion = t.nextVersion + 1 := rfl

@[simp] theorem pending_addOob (t : Timeline) (stamp : Stamp) (kind : String) (payload : Json)
    (channel : String) (headers : Headers) :
    (t.addOob stamp kind payload channel headers).pending = t.pending := rfl

@[simp] theorem dirty_settle (t : Timeline) : t.settle.dirty = false := rfl

@[simp] theorem dirty_revert (t : Timeline) : t.revert.dirty = false := rfl

@[simp] theorem dirty_ofHistory (stream : StreamRef) (settled : List Event)
    (snapshot : Option Snapshot) : (ofHistory stream settled snapshot).dirty = false := rfl

end Timeline

end Chronicle
