import Chronicle.Session.Basic

/-!
# What a session does with its nodes

Steps that ask the stores of a node, its staging area and its agenda, steps that drive its
worker, and pictures of its parts.
-/

namespace Chronicle.Session

def fetch (n : Nat) (name : String) (stream : StreamRef) :
    InSession (Except StoreError Unit) := do
  let node ← node n
  match ← act ((node.store site).fetch stream) with
  | .ok t =>
    place name (.timeline t)
    pure (.ok ())
  | .error err => pure (.error err)

def ask {α : Type} (n : Nat) (name : String) (f : StreamStore Run → Timeline → Run α) :
    InSession α := do
  let node ← node n
  act (f (node.store site) (← timeline name))

def log : InSession EventLog := do pure (← act get).world.log

def area (n : Nat) : InSession (Staging Run ConflictBatch) := do
  pure (site.area (← node n).area)

def agenda (n : Nat) : InSession (Cell Run (Agenda StreamRef)) := do
  pure (World.agendaCell site.world (← node n).agenda)

def workerOf (m : Member) : Worker Run :=
  m.kinds.foldl (fun w k => w.register (routes k)) (m.node.worker site)

def passOf (members : List Member) (n : Nat) : Run Unit :=
  match members[n]? with
  | some m => discard (workerOf m).runDue
  | none => pure ()

def handle (n : Nat) (stream : StreamRef) : InSession (Except ResolveError Resolution) := do
  let m ← member n
  act ((workerOf m).handle stream)

def runDue (n : Nat) : InSession Nat := do
  let m ← member n
  act (workerOf m).runDue

/-- Start the worker of a node. The result says whether it is running. -/
def start (n : Nat) : InSession Bool := do
  let m ← member n
  act do
    Scenario.startTask n (workerOf m).pollInterval
    Scenario.isRunning n

def stop (n : Nat) : InSession (Except WorkerError Unit) := do
  let members := (← get).members
  match ← act (Scenario.stop (passOf members) n) with
  | some result => pure result
  | none => missing "worker"

def sleep (s : Span) : InSession Unit := do
  let members := (← get).members
  act (Scenario.sleep (passOf members) s)

def picture (n : Nat) (what name : String) : InSession Text.Picture := do
  let m ← member n
  match what with
  | "store" => do pure (← log).picture
  | "streams" => do
    pure (CachedStore.picture (← log).picture m.node.owner m.node.freezeTimeout)
  | "channel" => do pure ((← act get).world.area m.node.area).picture
  | "worker" => pure (workerOf m).picture
  | "routes" => do pure (routes (← entity name).kind).picture
  | _ => missing "what"

end Chronicle.Session
