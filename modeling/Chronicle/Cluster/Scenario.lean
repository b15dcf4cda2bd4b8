import Chronicle.Cluster.Probe
import Chronicle.Cluster.World
import Chronicle.Time.Wheel

/-!
# Scenarios

A scenario is a world that is watched: it keeps a journal of the requests that were made, a
plan of faults, and the running workers. A conflict route that breaks down ends what called
it; a worker that is running then stops for good.

A running worker waits for its timer. When the timer goes off the worker gets in line, and the
workers in line run, one after the other, while the scenario itself waits: in `sleep`, until its
own timer goes off, and in `stop`, for the end of a worker. `advance` only moves the clock.
-/

namespace Chronicle

/-- A route broke down, with a message. -/
structure Crash where
  message : String
deriving DecidableEq

inductive TaskStatus where
  | running
  | ended
  | crashed
deriving DecidableEq, Inhabited

structure Task where
  node : Nat
  ticks : Ticks
  status : TaskStatus
deriving DecidableEq, Inhabited

inductive Sleeper where
  | scenario
  | worker (node : Nat)
deriving DecidableEq, Inhabited

structure Scenario where
  world : World
  /-- The entries of the journal, the newest first. -/
  journal : List String
  faults : FaultPlan
  /-- The started workers, at most one for a node. -/
  tasks : List Task
  /-- The timers, by milliseconds of the clock. -/
  timers : TimingWheel Sleeper
  /-- The nodes whose workers are in line to run. -/
  line : List Nat

abbrev Run := ExceptT Crash (StateM Scenario)

namespace Scenario

def start (wall : Moment) : Scenario := ⟨.start wall, [], ∅, [], .start, []⟩

def note (entry : String) : Run Unit :=
  modify fun s => { s with journal := entry :: s.journal }

/-- The entries of the journal in order; the journal is empty after that. -/
def drain : Run (List String) :=
  modifyGet fun s => (s.journal.reverse, { s with journal := [] })

def strike (target : String) : Run (Option FaultMode) :=
  modifyGet fun s =>
    let (mode, faults) := s.faults.strike target
    (mode, { s with faults })

/-- Plan a fault, in place of an earlier one for the same request. -/
def planFault (target : String) (fault : Fault) : Run Unit :=
  modify fun s => { s with faults := s.faults.insert target fault }

def probe : Probe Run := ⟨note, strike⟩

def worldCell : Cell Run World where
  get := do pure (← get).world
  set w := modify fun s => { s with world := w }

def site (opened : Moment) : Site Run where
  world := worldCell
  watch := ⟨probe.events, probe.streams, probe.staging⟩
  opened

def now : Run Span := do pure (← get).world.elapsed

/-- Let the clock show a time. The workers whose timers go off get in line; the result says
whether the timer of the scenario went off. -/
def reach (time : Span) : Run Bool :=
  modifyGet fun s =>
    let (fired, timers) := s.timers.turn time.millis
    let woken := fired.filterMap fun
      | .worker node => some node
      | .scenario => none
    (fired.contains .scenario,
      { s with timers, line := s.line ++ woken, world := { s.world with elapsed := time } })

def advance (s : Span) : Run Unit := do discard (reach ((← now) + s))

/-- Do something that may break down; the result says whether it went through. -/
def survives (run : Run Unit) : Run Bool := do
  match ← ExceptT.lift run.run with
  | .ok () => pure true
  | .error _ => pure false

def task? (node : Nat) : Run (Option Task) := do
  pure ((← get).tasks.find? (·.node == node))

def isRunning (node : Nat) : Run Bool := do
  pure ((← task? node).any fun t => t.status = .running)

def setTask (task : Task) : Run Unit :=
  modify fun s =>
    { s with tasks := s.tasks.map fun t => if t.node = task.node then task else t }

def dismiss (node : Nat) : Run Unit :=
  modify fun s =>
    { s with timers := s.timers.unset (.worker node), line := s.line.filter (· ≠ node) }

/-- Start a worker, in place of an earlier one of the node. It gets in line. -/
def startTask (node : Nat) (interval : Span) : Run Unit := do
  dismiss node
  modify fun s =>
    { s with
      tasks := s.tasks.filter (·.node ≠ node) ++ [⟨node, ⟨interval, none⟩, .running⟩]
      line := s.line ++ [node] }

/-- Let a worker run for the ticks that are due, at most so many, and then wait for the next. -/
def runTicks (runDue : Nat → Run Unit) (task : Task) : Nat → Run Unit
  | 0 => do
    setTask task
    let due := task.ticks.due (← now)
    modify fun s => { s with timers := s.timers.set (.worker task.node) due.millisUp }
  | fuel + 1 => do
    let time ← now
    if task.ticks.due time ≤ time then
      let task := { task with ticks := task.ticks.ran time }
      if ← survives (runDue task.node) then runTicks runDue task fuel
      else setTask { task with status := .crashed }
    else runTicks runDue task 0

/-- Let a worker run that has come to the front of the line. One without an interval crashes
when it first runs. -/
def runTask (runDue : Nat → Run Unit) (task : Task) : Run Unit :=
  if task.ticks.interval = .zero then setTask { task with status := .crashed }
  else runTicks runDue task task.ticks.backlog

def runAll (runDue : Nat → Run Unit) : List Nat → Run Unit
  | [] => pure ()
  | node :: rest => do
    match ← task? node with
    | some task => runTask runDue task
    | none => pure ()
    runAll runDue rest

def runLine (runDue : Nat → Run Unit) : Run Unit := do
  let nodes ← modifyGet fun s => (s.line, { s with line := [] })
  runAll runDue nodes

/-- Let the workers run until the timer of the scenario goes off, while slots of the wheel open
at most so many times. -/
def runUntilWoken (runDue : Nat → Run Unit) : Nat → Run Unit
  | 0 => pure ()
  | fuel + 1 => do
    runLine runDue
    match (← get).timers.nextOpening with
    | none => pure ()
    | some time =>
      if !(← reach (.ofMillis time)) then runUntilWoken runDue fuel

def sleep (runDue : Nat → Run Unit) (s : Span) : Run Unit := do
  if s ≠ .zero then
    let due := ((← now) + s).millisUp
    modify fun scenario => { scenario with timers := scenario.timers.set .scenario due }
    runUntilWoken runDue due

/-- Stop a worker and wait for its end, while the others in line run; `none` if none was
started. A worker that has come to its end is not waited for. One that is running looks at the
stop before anything else, but one that has not run yet and has no interval crashes even so. -/
def stop (runDue : Nat → Run Unit) (node : Nat) : Run (Option (Except WorkerError Unit)) := do
  match ← task? node with
  | none => pure none
  | some task =>
    let crashed := task.status = .crashed ∨ (task.status = .running ∧ task.ticks.interval = .zero)
    if task.status = .running then
      setTask { task with status := if crashed then .crashed else .ended }
      dismiss node
      runLine runDue
    pure (some (if crashed then .error .taskPanicked else .ok ()))

end Scenario

end Chronicle
