import Chronicle.Resolve.Weak

/-!
# Probes

A probe watches the requests to a store or a staging area: it notes each of them before it is
made, and a planned fault may then strike in its place. The wrapped operations are operations
of the same type, so that everything built on them can be watched.
-/

namespace Chronicle

inductive FaultMode where
  | error
  | version
  /-- Another writer stores an event first; only writes of events can be struck so. -/
  | intrude (event : Event)
deriving DecidableEq

/-- A planned fault: so many requests pass, and so many are struck after them. -/
structure Fault where
  mode : FaultMode
  skip : Nat
  times : Nat
deriving DecidableEq

abbrev FaultPlan := Std.ExtTreeMap String Fault

namespace FaultPlan

/-- Whether a request is struck, and the plan after it. -/
def strike (plan : FaultPlan) (target : String) : Option FaultMode × FaultPlan :=
  match plan[target]? with
  | none => (none, plan)
  | some f =>
    if 0 < f.skip then (none, plan.insert target { f with skip := f.skip - 1 })
    else if 0 < f.times then (some f.mode, plan.insert target { f with times := f.times - 1 })
    else (none, plan)

end FaultPlan

/-- How requests are noted and struck. -/
structure Probe (m : Type → Type) where
  note : String → m Unit
  strike : String → m (Option FaultMode)

namespace Probe

variable {m : Type → Type} {α M : Type} [Monad m]

def unavailable : String := "store unavailable"

def orStar {β : Type} [ToString β] : Option β → String
  | some n => toString n
  | none => "*"

/-- Note a request, and make it unless a fault strikes; `stream` names the stream of a version
conflict. -/
def request (p : Probe m) (target entry stream : String) (run : m (Except StoreError α)) :
    m (Except StoreError α) := do
  p.note entry
  match ← p.strike target with
  | some .error =>
    p.note ("fault:" ++ target)
    pure (.error (.backend unavailable))
  | some .version =>
    p.note ("fault:" ++ target)
    pure (.error (.version ⟨stream, 0, 1⟩))
  | _ => run

/-- Note a write of events, and make it unless a fault strikes. An intruding writer comes
first. -/
def requestWrite (p : Probe m) (store : EventStore m) (key : String)
    (events : NonEmptyList Event) (headers : Headers) (expected : Option Int) :
    m (Except StoreError Int) := do
  p.note ("write_events:" ++ key ++ ":" ++ toString events.1.length ++ ":" ++ orStar expected)
  match ← p.strike "write_events" with
  | some .error =>
    p.note "fault:write_events"
    pure (.error (.backend unavailable))
  | some .version =>
    p.note "fault:write_events"
    pure (.error (.version ⟨key, 0, 1⟩))
  | some (.intrude event) =>
    p.note "intrude"
    discard (store.write key ⟨[event], by simp⟩ ∅ none)
    store.write key events headers expected
  | none => store.write key events headers expected

def events (p : Probe m) (store : EventStore m) : EventStore m where
  read key start count :=
    p.request "get_events"
      ("get_events:" ++ key ++ ":" ++ toString start ++ ":" ++ orStar count) key
      (store.read key start count)
  readBack key count :=
    p.request "get_events_backwards"
      ("get_events_backwards:" ++ key ++ ":" ++ toString count) key (store.readBack key count)
  write := p.requestWrite store
  verify key expected :=
    p.request "verify_version" ("verify_version:" ++ key ++ ":" ++ toString expected) key
      (store.verify key expected)
  metadata key :=
    p.request "get_metadata" ("get_metadata:" ++ key) key (store.metadata key)
  writeMetadata key metadata expected :=
    p.request "write_metadata"
      ("write_metadata:" ++ key ++ ":" ++ (if metadata.frozen.isSome then "frozen" else "free") ++
        ":" ++ toString expected) key
      (store.writeMetadata key metadata expected)

def pendingText (t : Timeline) : String :=
  ":" ++ toString t.pending.length ++ ":" ++ toString t.pendingOobs.length ++ ":" ++
    (if t.pendingSnapshot.isSome then "1" else "0")

def streams (p : Probe m) (store : StreamStore m) : StreamStore m where
  fetch stream := p.request "get_stream" "get_stream" "" (store.fetch stream)
  write commitId t headers :=
    p.request "write_stream" ("write_stream" ++ pendingText t) (t.key .domain)
      (store.write commitId t headers)
  append commitId t headers :=
    p.request "append_stream" ("append_stream" ++ pendingText t) (t.key .domain)
      (store.append commitId t headers)
  freeze t := p.request "freeze" "freeze" (t.key .domain) (store.freeze t)
  unfreeze t := p.request "unfreeze" "unfreeze" (t.key .domain) (store.unfreeze t)
  verify t := do
    p.note "verify"
    store.verify t

def requestStaging (p : Probe m) (target entry : String) (run : m (Except String α)) :
    m (Except String α) := do
  p.note entry
  match ← p.strike target with
  | some _ =>
    p.note ("fault:" ++ target)
    pure (.error unavailable)
  | none => run

def staging (p : Probe m) (area : Staging m ConflictBatch) : Staging m ConflictBatch where
  age channel key := p.requestStaging "age" "age" (area.age channel key)
  size channel key := p.requestStaging "size" "size" (area.size channel key)
  add channel key batch :=
    p.requestStaging "add_to_queue"
      ("add_to_queue:" ++ channel ++ ":" ++ key ++ ":" ++ toString batch.events.length)
      (area.add channel key batch)
  pull channel key max :=
    p.requestStaging "pull" ("pull:" ++ orStar max) (area.pull channel key max)
  requeue channel key messages :=
    p.requestStaging "requeue" ("requeue:" ++ toString messages.length)
      (area.requeue channel key messages)

end Probe

end Chronicle
