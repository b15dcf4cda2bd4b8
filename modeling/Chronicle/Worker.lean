import Chronicle.Resolve.Weak

/-!
# Workers

A worker takes the streams that are due from the agenda of its resolver and merges what is
staged for them. Kinds of entities are registered with their routes; a due stream of any other
kind fails. A running worker looks for due streams when it first runs and then at every tick
of its interval.
-/

namespace Chronicle

/-- A worker: a resolver and, by kind of entity, how it handles a due stream. -/
structure Worker (m : Type → Type) where
  resolver : WeakResolver m
  handlers : Std.ExtTreeMap String (StreamRef → m (Except ResolveError Resolution))
  pollInterval : Span

namespace Worker

variable {m : Type → Type} {S : Type} [Monad m]

def ofSettings (c : ConflictSettings) (resolver : WeakResolver m) : Worker m :=
  ⟨resolver, ∅, c.workerPoll⟩

def register (w : Worker m) (routes : Routes m S) : Worker m :=
  { w with handlers := w.handlers.insert routes.entity (w.resolver.handleStaged routes) }

def handle (w : Worker m) (stream : StreamRef) : m (Except ResolveError Resolution) :=
  match w.handlers[stream.entity]? with
  | some handler => handler stream
  | none => pure (.error (.failed stream.entity "no conflict handler registered"))

/-- Handle streams one after the other, whatever becomes of each. -/
def handleAll (w : Worker m) : List StreamRef → m Unit
  | [] => pure ()
  | stream :: rest => do
    discard (w.handle stream)
    w.handleAll rest

/-- Handle every stream that is due. The result is their number. -/
def runDue (w : Worker m) : m Nat := do
  let due ← w.resolver.agenda.takeDue w.resolver.surroundings
  w.handleAll due
  pure due.length

def picture (w : Worker m) : Text.Picture :=
  .record "ConflictWorker" true [("entities", .list (w.handlers.keys.map .string)),
    ("poll_interval", w.pollInterval.picture)]

end Worker

inductive WorkerError where
  | taskPanicked
deriving DecidableEq, Inhabited

def WorkerError.message : WorkerError → String
  | taskPanicked => "conflict worker task panicked"

/-- The ticks of a running worker. -/
structure Ticks where
  interval : Span
  /-- When the next tick is due; unknown before the worker first runs. -/
  next : Option Span
deriving DecidableEq, Inhabited

namespace Ticks

/-- A tick that is later than this is not made up for. -/
def tolerance : Span := .ofMillis 5

/-- When the next tick is due, as seen at a time: at once before the worker first runs. -/
def due (t : Ticks) (now : Span) : Span := t.next.getD now

/-- The ticks after the worker has run at a time: an interval after the tick that was due, or,
if that was missed by more than the tolerance, an interval after the run. -/
def ran (t : Ticks) (now : Span) : Ticks :=
  let due := t.due now
  { t with next := some (if due + tolerance < now then now + t.interval else due + t.interval) }

/-- At most how many ticks are made up for at one time. -/
def backlog (t : Ticks) : Nat := tolerance.nanos / t.interval.nanos + 1

end Ticks

end Chronicle
