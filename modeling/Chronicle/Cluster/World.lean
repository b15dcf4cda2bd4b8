import Chronicle.Repository
import Chronicle.Worker

/-!
# Worlds of nodes

A world is everything that several nodes share and keep: the event log, the staging areas, the
caches, the agendas, the clocks and the supply of identifiers. A node is one instance with its
settings; its stores, resolvers, repository and worker run on a cell that holds the world.
-/

namespace Chronicle

/-- The state of a cluster of nodes. Caches, agendas and staging areas are numbered; one that
has no entry is empty. -/
structure World where
  issued : Nat
  /-- The time of the day, which stands still. -/
  wall : Moment
  /-- The time that has passed on the clock that never goes back. -/
  elapsed : Span
  log : EventLog
  caches : Std.ExtTreeMap Nat TimelineCache
  agendas : Std.ExtTreeMap Nat (Agenda StreamRef)
  areas : Std.ExtTreeMap Nat (StagingArea ConflictBatch)

/-- The identifier with a number in the supply, in the form of random ones. -/
def Uuid.numbered (n : Nat) : Uuid :=
  ⟨BitVec.ofNat 128 (0xf3a1c5d79b244e688c0e000000000000 + n)⟩

namespace World

def start (wall : Moment) : World := ⟨0, wall, .zero, .empty, ∅, ∅, ∅⟩

def issue (w : World) : Uuid × World := (.numbered w.issued, { w with issued := w.issued + 1 })

def advance (w : World) (s : Span) : World := { w with elapsed := w.elapsed + s }

def cache (w : World) (n : Nat) : TimelineCache := w.caches.getD n ∅

def agenda (w : World) (n : Nat) : Agenda StreamRef := w.agendas.getD n .empty

def area (w : World) (n : Nat) : StagingArea ConflictBatch := w.areas.getD n .empty

section Cells

variable {m : Type → Type} [Monad m] (cell : Cell m World)

def surroundings : Surroundings m where
  freshId := do
    let (id, w) := (← cell.get).issue
    cell.set w
    pure id
  now := do pure (← cell.get).wall
  elapsed := do pure (← cell.get).elapsed

def logCell : Cell m EventLog := cell.focus (·.log) fun log w => { w with log }

def cacheCell (n : Nat) : Cell m TimelineCache :=
  cell.focus (·.cache n) fun c w => { w with caches := w.caches.insert n c }

def agendaCell (n : Nat) : Cell m (Agenda StreamRef) :=
  cell.focus (·.agenda n) fun a w => { w with agendas := w.agendas.insert n a }

def areaCell (n : Nat) : Cell m (StagingArea ConflictBatch) :=
  cell.focus (·.area n) fun a w => { w with areas := w.areas.insert n a }

end Cells

end World

/-- How the requests of nodes are watched; by default they are not. -/
structure Watch (m : Type → Type) where
  events : EventStore m → EventStore m
  streams : StreamStore m → StreamStore m
  staging : Staging m ConflictBatch → Staging m ConflictBatch

namespace Watch

/-- Requests that nobody watches. -/
def nobody {m : Type → Type} : Watch m := ⟨id, id, id⟩

end Watch

/-- The surroundings of a cluster: where the world is kept, and how requests are watched. -/
structure Site (m : Type → Type) where
  world : Cell m World
  watch : Watch m
  /-- When the clocks of the staging areas were started. -/
  opened : Moment

namespace Site

variable {m : Type → Type} [Monad m]

def surroundings (s : Site m) : Surroundings m := World.surroundings s.world

def events (s : Site m) : EventStore m :=
  s.watch.events (EventLog.store (World.logCell s.world) s.surroundings)

def area (s : Site m) (n : Nat) : Staging m ConflictBatch :=
  StagingArea.staging (World.areaCell s.world n) s.surroundings s.opened

end Site

/-- One instance: its identity, its settings, and the numbers of its cache, its agenda and its
staging area. The age of staged batches and the freeze timeout may be given to the nanosecond, and
then count instead of those of the settings. -/
structure Node where
  owner : Uuid
  bucket : String
  settings : ConflictSettings
  cache : Nat
  agenda : Nat
  area : Nat
  age : Option WaitingTime := none
  timeout : Option Span := none
deriving DecidableEq

namespace Node

variable {m : Type → Type} [Monad m]

def ageThreshold (n : Node) : Span := (n.age.map Subtype.val).getD n.settings.weakAge

def freezeTimeout (n : Node) : Span := n.timeout.getD n.settings.freezeTimeout

def cached (n : Node) (s : Site m) : CachedStore m where
  events := s.events
  cache := World.cacheCell s.world n.cache
  surroundings := s.surroundings
  owner := n.owner
  freezeTimeout := n.freezeTimeout

def store (n : Node) (s : Site m) : StreamStore m := s.watch.streams (n.cached s).streams

def weak (n : Node) (s : Site m) : WeakResolver m :=
  { WeakResolver.ofSettings n.settings (n.store s) (s.watch.staging (s.area n.area))
      (World.agendaCell s.world n.agenda) s.surroundings with
    ageThreshold := n.ageThreshold }

def resolver (n : Node) (s : Site m) (strategy : ConflictStrategy) : Resolver m :=
  .ofStrategy strategy (n.weak s)

def repository (n : Node) (s : Site m) : Repository m where
  store := n.store s
  resolver := n.resolver s n.settings.strategy
  surroundings := s.surroundings
  bucket := n.bucket

def worker (n : Node) (s : Site m) : Worker m := .ofSettings n.settings (n.weak s)

end Node

end Chronicle
