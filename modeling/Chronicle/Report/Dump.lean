import Chronicle.Resolve.Weak
import Chronicle.Samples.Kind

/-!
# Reports on events, timelines and entities
-/

namespace Chronicle.Report

def list {α : Type} (f : α → Json) (xs : List α) : Json := .array (xs.map f)

def option {α : Type} (f : α → Json) : Option α → Json
  | some a => f a
  | none => .null

/-- A field that is left out if there is nothing in it. -/
def fieldUnless (absent : Bool) (name : String) (v : Json) : List (String × Json) :=
  if absent then [] else [(name, v)]

def span (s : Span) : Json :=
  .ofFields [("secs", .int s.seconds), ("nanos", .int s.subsecond)]

/-- An event in short: without its stream and its time, and without empty headers. -/
def event (e : Event) : Json :=
  .ofFields ([("id", option Uuid.toJson e.id), ("k", .string e.kind), ("e", e.payload),
    ("t", .string e.lane.name), ("v", .int e.version)] ++
    fieldUnless e.headers.isEmpty "h" e.headers.toJson ++
    fieldUnless e.commitHeaders.isEmpty "ch" e.commitHeaders.toJson)

def keyedEvents (entry : String × List Event) : Json :=
  .array [.string entry.1, list event entry.2]

def timeline (t : Timeline) : Json :=
  .ofFields [("key", .string (t.key .domain)), ("version", .int t.version),
    ("commit_version", .int t.nextVersion), ("dirty", .bool t.dirty),
    ("total_uncommitted", .int t.pendingCount), ("since_snapshot", .int t.sinceSnapshot),
    ("committed", list event t.settled), ("uncommitted", list event t.pending),
    ("pending_oobs", list event t.pendingOobs), ("oobs", list Channel.toJson t.channels),
    ("snapshot", option Snapshot.toJson t.snapshot),
    ("pending_snapshot", option Snapshot.toJson t.pendingSnapshot)]

def batchStream (b : ConflictBatch) : Json :=
  option (fun r => .string (r.key .domain)) b.stream?

def stagedBatch (s : Staged ConflictBatch) : Json :=
  .ofFields [("message_id", s.id.toJson), ("entity_type", .string s.message.entity),
    ("parents", list ParentRef.toJson s.message.parents),
    ("events", list event s.message.events), ("stream", batchStream s.message)]

/-- The keys of a stream: one for each lane, and one for each of some channels. -/
def keys (r : StreamRef) (channels : List String) : Json :=
  .ofFields [("entity", .string r.entity), ("bucket", .string r.bucket), ("id", .string r.id),
    ("parents", list ParentRef.toJson r.parents),
    ("keys", list (fun l => .string (r.key l)) Lane.all), ("ref", r.toJson),
    ("oob", list (fun c => .string (r.channelKey c)) channels)]

def agenda {α : Type} (a : Agenda α) : List (String × Json) :=
  [("len", .int a.size), ("empty", .bool a.isEmpty), ("next", option span a.nextDue)]

def resolution (r : Resolution) : Json := .string r.name

def commitOutcome : CommitOutcome → Json
  | .written v => .ofFields [("Written", .int v)]
  | .clean => .string "Clean"
  | .resolved r => .ofFields [("Resolved", resolution r)]

def entity {m : Type → Type} [Monad m] (hooks : Samples.Hooks m) (e : Samples.AnyEntity) :
    Json :=
  let routes := e.kind.routes hooks
  .ofFields [("entity", .string routes.entity), ("id", .string e.entity.id),
    ("parents", list ParentRef.toJson e.entity.parents), ("version", .int e.entity.version),
    ("conflicts", .int e.entity.conflicts),
    ("should_snapshot", .bool (e.entity.shouldTakeSnapshot routes)),
    ("state", e.kind.stateJson e.entity.state), ("stream", timeline e.entity.timeline)]

end Chronicle.Report
