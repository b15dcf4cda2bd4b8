import Chronicle.Proofs.Retelling
import Chronicle.Proofs.Serializing

/-!
# Units of work

A unit of work loads one entity through a cache of its own that is empty at first, records some
events and commits once, or it handles what is staged for one stream. Many units may be under way at
the same time on one log and one staging area. Their snapshots are faithful: each of them records
what the events up to its version lead to, so that an entity loaded from its last snapshot and the
events behind it is the one that its whole history leads to.
-/

namespace Chronicle

variable {S : Type}

/-- Who does a unit of work. -/
structure Host where
  owner : Uuid
  bucket : String
  settings : ConflictSettings
  agenda : Nat
  age : Option WaitingTime := none
  timeout : Option Span := none

def Host.node (host : Host) (cache : Nat) : Node :=
  ⟨host.owner, host.bucket, host.settings, cache, host.agenda, sharedArea, host.age, host.timeout⟩

def Host.worker (host : Host) (opened : Moment) (routes : Routes Id S) (cache : Nat) :
    Worker (StateM World) :=
  ((host.node cache).worker (World.site opened)).register routes.lift

theorem Host.runs_handle {host : Host} {opened : Moment} {routes : Routes Id S} {cache : Nat}
    {stream : StreamRef} {w w' : World} {r : Except ResolveError Resolution}
    (h : Runs ((host.worker opened routes cache).handle stream) w r w') :
    w' = w ∨ Runs (((host.node cache).weak (World.site opened)).handleStaged routes.lift stream) w
      r w' := by
  simp only [Worker.handle, worker, Worker.register, Node.worker, Worker.ofSettings,
    Routes.entity_lift, Std.ExtTreeMap.getElem?_insert, Std.ExtTreeMap.getElem?_empty] at h
  split at h
  · rename_i handler hhandler
    split at hhandler
    · cases hhandler
      exact .inr h
    · cases hhandler
  · exact .inl (runs_pure.1 h).2

/-- A world with the units of work that were begun on it. The number of a unit is also that of its
cache; a unit that is done has no entity any more. -/
structure Workplace (S : Type) where
  world : World
  units : List (Option (Host × Entity S))

/-- What can be done at a workplace. A unit that is done or was never begun does nothing. -/
inductive Job (S : Type) where
  | load (host : Host) (stream : StreamRef)
  | apply (unit : Nat) (move : Move S)
  | raise (unit : Nat) (move : Move S) (channel : String) (transient : Bool)
      (daysToLive : Option Nat)
  | commit (unit : Nat) (commitId : Uuid) (headers : Headers)
  | handle (host : Host) (stream : StreamRef)
  | advance (span : Span)
  | setWall (time : { time : Moment // time.Legible })

namespace Workplace

def start (wall : Moment) : Workplace S := ⟨.start wall, []⟩

def record (p : Workplace S) (unit : Nat) (f : Entity S → Stamp → Except RouteError (Entity S)) :
    Workplace S :=
  match p.units[unit]?.join with
  | none => p
  | some (host, e) =>
    let (stamp, world) := (World.surroundings World.cell).stamp.run p.world
    match f e stamp with
    | .ok e => { world, units := p.units.set unit (some (host, e)) }
    | .error _ => { p with world }

def step (opened : Moment) (routes : Routes Id S) (p : Workplace S) : Job S → Workplace S
  | .load host stream =>
    let store := (host.node p.units.length).store (World.site opened)
    let (found, world) := (loadEntity store routes.lift stream).run.run p.world
    { world, units := p.units ++ [found.toOption.map fun e => (host, e)] }
  | .apply unit move => p.record unit fun e stamp => e.apply stamp move
  | .raise unit move channel transient daysToLive =>
    p.record unit fun e stamp => e.raise stamp move channel transient daysToLive
  | .commit unit commitId headers =>
    match p.units[unit]?.join with
    | none => p
    | some (host, e) =>
      let repository := (host.node unit).repository (World.site opened)
      let (_, world) := (repository.commit routes.lift e commitId headers).run p.world
      { world, units := p.units.set unit none }
  | .handle host stream =>
    let (_, world) := ((host.worker opened routes p.units.length).handle stream).run p.world
    { world, units := p.units ++ [none] }
  | .advance span => { p with world := p.world.advance span }
  | .setWall time => { p with world := { p.world with wall := time } }

def run (opened : Moment) (routes : Routes Id S) (p : Workplace S) (jobs : List (Job S)) :
    Workplace S :=
  jobs.foldl (step opened routes) p

end Workplace

/-- What is applied is read back by the routes. -/
def Job.Routed (routes : Routes Id S) : Job S → Prop
  | .apply _ move => move.Routed routes
  | _ => True

namespace Workplace

variable {p : Workplace S} {opened : Moment} {routes : Routes Id S} {world : World}

private theorem mem_set_none {units : List (Option (Host × Entity S))} {unit : Nat} :
    ∀ host e, some (host, e) ∈ units.set unit none → some (host, e) ∈ units := by
  intro host e hmem
  rcases List.mem_or_eq_of_mem_set hmem with hold | hnone
  · exact hold
  · cases hnone

private theorem getElem?_of_join {units : List (Option (Host × Entity S))} {unit : Nat}
    {host : Host} {e : Entity S} (h : units[unit]?.join = some (host, e)) :
    units[unit]? = some (some (host, e)) := by
  cases hu : units[unit]? with
  | none => simp [hu] at h
  | some found => simpa [hu] using h

/-- The log tells the same twice, and so do the entities under way; caches that belong to no unit
are empty. -/
structure Tells (routes : Routes Id S) (p : Workplace S) : Prop where
  consistent : p.world.Consistent
  wall : p.world.wall.Legible
  tells : p.world.log.Tells routes
  empty : ∀ c, p.units.length ≤ c → p.world.cache c = ∅
  units : ∀ host e, some (host, e) ∈ p.units → e.timeline.Rooted p.world.log ∧
    e.Tells routes p.world.log ∧ e.timeline.pendingSnapshot = none

theorem tells_start (routes : Routes Id S) {wall : Moment} (hwall : wall.Legible) :
    (start wall).Tells routes where
  consistent := .start wall
  wall := hwall
  tells := .empty routes
  empty c _ := by simp [start, World.start, World.cache]
  units := by simp [start]

namespace Tells

theorem of_retells (h : p.Tells routes) {units : List (Option (Host × Entity S))} {c : Nat}
    (hretells : p.world.Retells routes c world) (hc : world.Consistent)
    (hgrows : ∀ key, p.world.log.events key <+: world.log.events key)
    (hcache : c < units.length) (hlength : p.units.length ≤ units.length)
    (hunits : ∀ host e, some (host, e) ∈ units → some (host, e) ∈ p.units ∨
      e.timeline.Rooted world.log ∧ e.Tells routes world.log ∧
        e.timeline.pendingSnapshot = none) :
    Tells routes ⟨world, units⟩ where
  consistent := hc
  wall := hretells.wall ▸ h.wall
  tells := hretells.tells
  empty := by
    intro d hd
    change units.length ≤ d at hd
    rw [hretells.caches d (by omega)]
    exact h.empty d (by omega)
  units := by
    intro host e hmem
    rcases hunits host e hmem with hold | hnew
    · obtain ⟨hrooted, htells, hunstaged⟩ := h.units host e hold
      have hn := h.consistent.numbered
      exact ⟨hrooted.mono hn hc.numbered hgrows, htells.mono hn (hgrows _) hrooted.based, hunstaged⟩
    · exact hnew

theorem record (h : p.Tells routes) (unit : Nat)
    {f : Entity S → Stamp → Except RouteError (Entity S)}
    (hf : ∀ e stamp e', f e stamp = .ok e' → e.timeline.Continues e'.timeline ∧
      e'.timeline.pendingSnapshot = e.timeline.pendingSnapshot ∧
        ∀ log : EventLog, e.Tells routes log → e'.Tells routes log) :
    (p.record unit f).Tells routes := by
  unfold Workplace.record
  cases hu : p.units[unit]?.join with
  | none => exact h
  | some found =>
    obtain ⟨host, e⟩ := found
    have hunit := getElem?_of_join hu
    obtain ⟨hlt, -⟩ := List.getElem?_eq_some_iff.1 hunit
    obtain ⟨stamp, world, hstamp⟩ := Runs.total (World.surroundings World.cell).stamp p.world
    obtain ⟨i, rfl⟩ := World.runs_stamp hstamp
    have hissued : p.world.Retells routes unit (p.world.logged i p.world.log) :=
      .idle h.tells (.issued _ i) rfl
    have hc := h.consistent.idle (.issued p.world i)
    have hgrows : ∀ key, p.world.log.events key <+: (p.world.logged i p.world.log).log.events key :=
      fun _ => List.prefix_refl _
    simp only [hstamp.run_eq]
    cases he : f e stamp with
    | error err =>
      exact h.of_retells hissued hc hgrows hlt (Nat.le_refl _) fun _ _ hmem => .inl hmem
    | ok e' =>
      refine h.of_retells hissued hc hgrows (by simpa using hlt) (by simp) fun host' e₁ hmem => ?_
      rcases List.mem_or_eq_of_mem_set hmem with hold | hnew
      · exact .inl hold
      · cases hnew
        obtain ⟨hcontinues, hsame, htold⟩ := hf e stamp e' he
        obtain ⟨hrooted, htells, hunstaged⟩ := h.units host e (List.mem_of_getElem? hunit)
        exact .inr ⟨hrooted.continues hcontinues, htold _ htells, hsame.trans hunstaged⟩

theorem view_fresh (h : p.Tells routes) (stream : StreamRef) :
    p.world.view p.units.length stream = p.world.log.timeline stream := by
  rw [World.view, h.empty _ (Nat.le_refl _), Std.ExtTreeMap.getElem?_empty]

theorem load (opened : Moment) (h : p.Tells routes) (hr : routes.RecordsFaithfully) (host : Host)
    (stream : StreamRef) : (p.step opened routes (.load host stream)).Tells routes := by
  obtain ⟨found, world, hl⟩ := Runs.total (loadEntity ((host.node p.units.length).store
    (World.site opened)) (routes.lift : Routes (StateM World) S) stream).run p.world
  simp only [step, hl.run_eq]
  obtain ⟨rfl, rfl⟩ := World.runs_loadEntity.1 hl
  have hviewed := World.Retells.viewed (c := p.units.length) h.tells stream
  refine h.of_retells hviewed (h.consistent.viewed ..) (fun _ => by simp) (by simp) (by simp)
    fun host' e hmem => ?_
  rcases List.mem_append.1 hmem with hold | hnew
  · exact .inl hold
  · obtain ⟨e', he', hpair⟩ := Option.map_eq_some_iff.1 (List.mem_singleton.1 hnew).symm
    cases hpair
    rw [World.loaded_lift] at he'
    -- The unit has an empty cache, so that its entity is built from the log.
    obtain ⟨hloaded, -, -⟩ := World.loaded_of_view h.tells h.consistent hr (h.view_fresh stream)
      (except_toOption_eq_some.1 he')
    have hlater := hloaded.viewed p.units.length stream
    exact .inr ⟨hlater.rooted, hlater.tells, (Timeline.dirty_eq_false.1 hlater.clean).2.2⟩

theorem commit (opened : Moment) (h : p.Tells routes) (hroutes : routes.MergesAsHandled)
    (hr : routes.RecordsFaithfully) (unit : Nat) (commitId : Uuid) (headers : Headers) :
    (p.step opened routes (.commit unit commitId headers)).Tells routes := by
  simp only [step]
  cases hu : p.units[unit]?.join with
  | none => exact h
  | some found =>
    obtain ⟨host, e⟩ := found
    have hunit := getElem?_of_join hu
    obtain ⟨hlt, -⟩ := List.getElem?_eq_some_iff.1 hunit
    obtain ⟨hrooted, htells, hunstaged⟩ := h.units host e (List.mem_of_getElem? hunit)
    obtain ⟨⟨r, e'⟩, world, hrun⟩ := Runs.total
      (((host.node unit).repository (World.site opened)).commit routes.lift e commitId headers)
      p.world
    have hcommit := World.committed_of_runs hrun
    obtain ⟨-, hpass⟩ := hcommit.passes h.consistent hrooted
    simp only [hrun.run_eq]
    have hretells :=
      hcommit.retells h.tells hroutes hr h.consistent h.wall hrooted htells hunstaged
    exact h.of_retells hretells hpass.consistent hpass.grows (by simpa [Host.node] using hlt)
      (by simp) fun host' e₁ hmem => .inl (mem_set_none host' e₁ hmem)

theorem handle (opened : Moment) (h : p.Tells routes) (hroutes : routes.MergesAsHandled)
    (hr : routes.RecordsFaithfully) (host : Host) (stream : StreamRef) :
    (p.step opened routes (.handle host stream)).Tells routes := by
  obtain ⟨r, world, hrun⟩ :=
    Runs.total ((host.worker opened routes p.units.length).handle stream) p.world
  simp only [step, hrun.run_eq]
  rcases Host.runs_handle hrun with rfl | hstaged
  · exact h.of_retells (.refl (c := p.units.length) h.tells) h.consistent
      (fun _ => List.prefix_refl _) (by simp) (by simp)
      fun host' e hmem => .inl (by simpa using hmem)
  · have hpass := World.passes_handleStaged hstaged h.consistent
    have hretells := World.retells_handleStaged hstaged h.tells hroutes hr h.consistent h.wall
      (h.view_fresh stream)
    exact h.of_retells hretells hpass.consistent hpass.grows (by simp [Host.node]) (by simp)
      fun host' e hmem => .inl (by simpa using hmem)

end Tells

/-- Whatever is done next, snapshots stay faithful. -/
theorem tells_step (opened : Moment) (h : p.Tells routes) (hroutes : routes.MergesAsHandled)
    (hr : routes.RecordsFaithfully) {job : Job S} (hjob : job.Routed routes) :
    (p.step opened routes job).Tells routes := by
  cases job with
  | load host stream => exact h.load opened hr host stream
  | apply unit move =>
    refine Tells.record h unit fun e stamp e' he =>
      ⟨.of_apply he, ?_, fun log htells => htells.apply hjob he⟩
    obtain ⟨payload, -, rfl⟩ := Entity.apply_eq_ok he
    rfl
  | raise unit move channel transient daysToLive =>
    refine Tells.record h unit fun e stamp e' he =>
      ⟨.of_raise he, ?_, fun log htells => htells.raise he⟩
    obtain ⟨payload, headers, rfl⟩ := Entity.raise_eq_ok he
    rfl
  | commit unit commitId headers => exact h.commit opened hroutes hr unit commitId headers
  | handle host stream => exact h.handle opened hroutes hr host stream
  | advance span =>
    exact ⟨h.consistent.idle ⟨rfl, rfl, rfl⟩, h.wall, h.tells, h.empty, h.units⟩
  | setWall time =>
    exact ⟨h.consistent.idle ⟨rfl, rfl, rfl⟩, time.2, h.tells, h.empty, h.units⟩

theorem tells_run (opened : Moment) (h : p.Tells routes) (hroutes : routes.MergesAsHandled)
    (hr : routes.RecordsFaithfully) {jobs : List (Job S)}
    (hjobs : ∀ job ∈ jobs, job.Routed routes) : (p.run opened routes jobs).Tells routes := by
  induction jobs generalizing p with
  | nil => exact h
  | cons job rest ih =>
    have hfirst := tells_step opened h hroutes hr (hjobs job (List.mem_cons_self ..))
    exact ih hfirst fun other hother => hjobs other (List.mem_cons_of_mem _ hother)

/-- Durable snapshots are faithful: each of them records what the events of its stream up to its
version lead to, and an entity that is loaded without a cache has the state that the whole history
of its stream leads to. -/
theorem faithful_snapshots (opened : Moment) {wall : Moment} (hwall : wall.Legible)
    (hroutes : routes.MergesAsHandled) (hr : routes.RecordsFaithfully) {jobs : List (Job S)}
    (hjobs : ∀ job ∈ jobs, job.Routed routes) (stream : StreamRef) :
    let w := ((start wall).run opened routes jobs).world
    (∀ record ∈ w.log.events (stream.key .snapshot), ∃ s : Snapshot, record.payload = s.toJson ∧
      0 ≤ s.version ∧ s.version ≤ w.log.version (stream.key .domain) ∧
      ∃ state, routes.encodeSnapshot state = .ok (some s.memento) ∧
        routes.Hydrates routes.initial (w.log.upTo (stream.key .domain) s.version) state) ∧
    (w.log.version (stream.key .domain) ≤ 0x7fffffffffffffff →
      ∀ n : Node, w.cache n.cache = ∅ → ∃ e w', Runs (loadEntity (n.store (World.site opened))
        (routes.lift : Routes (StateM World) S) stream).run w (.ok e) w' ∧
          e.version = w.log.version (stream.key .domain) ∧
          routes.Hydrates routes.initial (w.log.events (stream.key .domain)) e.state) := by
  intro w
  have hend := tells_run opened (tells_start routes hwall) hroutes hr hjobs
  constructor
  · intro record hrecord
    obtain ⟨s, hpay, hs⟩ := hend.tells.snapshots stream record hrecord
    exact ⟨s, hpay, hs.floor, hs.reached, hs.recorded⟩
  · intro hv n hempty
    obtain ⟨t, ht⟩ := EventLog.timeline_of_legible hend.tells.recorded hv
    obtain ⟨e, he, hstate⟩ := hend.tells.exists_loaded hend.consistent.numbered hr ht
    obtain ⟨-, hversion, -⟩ :=
      EventLog.timeline_spec hend.consistent.numbered hend.consistent.recorded ht
    have hview : w.view n.cache stream = .ok t := by
      rw [World.view, hempty, Std.ExtTreeMap.getElem?_empty]
      exact ht
    refine ⟨e, w.viewed n.cache stream, World.runs_loadEntity.2 ⟨?_, rfl⟩, ?_, hstate⟩
    · rw [World.loaded_lift, World.loaded, hview]
      simp only [he, Except.mapError]
    · rw [Entity.version, Entity.timeline_ofTimeline he]
      exact hversion

theorem mergesAsHandled_tillRoutes : Cluster.tillRoutes.MergesAsHandled := by
  have hhandled : Routes.MergesAsHandled
      ((Routes.new "sum" 0).handle World.addend fun n (s : Int) => s + n) :=
    Routes.mergesAsHandled_of_empty rfl
  exact hhandled.conflict Std.ExtTreeMap.getElem?_insert_self Cluster.mergeAddend_spec

theorem recordsFaithfully_tillRoutes : Cluster.tillRoutes.RecordsFaithfully := by
  rintro snapshots ⟨⟩ s memento ⟨⟩
  rfl

def cashier : Host :=
  ⟨.numbered 0, "default", { ConflictSettings.standard with strategy := .resolveStrongly }, 0, none,
    none⟩

def twoAndThree : List (Job Int) :=
  [.load cashier Cluster.sumStream, .load cashier Cluster.sumStream,
    .apply 0 (World.addend.move 2 fun n s => s + n),
    .apply 1 (World.addend.move 3 fun n s => s + n),
    .commit 0 (.numbered 100) ∅, .commit 1 (.numbered 101) ∅]

/-- Both leave a snapshot, and what is loaded then is a sum of five. -/
theorem faithful_twoAndThree :
    let w := ((start .epoch).run .epoch Cluster.tillRoutes twoAndThree).world
    (w.log.events (Cluster.sumStream.key .snapshot)).length = 2 ∧ ∃ e w',
      Runs (loadEntity ((cashier.node 2).store (World.site .epoch))
        (Cluster.tillRoutes.lift : Routes (StateM World) Int) Cluster.sumStream).run w (.ok e) w' ∧
      e.version = 1 ∧ e.state = 5 := by
  have hmove : ∀ n, (World.addend.move n fun n s => s + n).Routed Cluster.tillRoutes := fun n =>
    Routes.routed_handle (Routes.new "sum" 0) World.addend _ n (by rintro payload ⟨⟩; rfl)
  have hrouted : ∀ job ∈ twoAndThree, job.Routed Cluster.tillRoutes := by
    simp only [twoAndThree, List.forall_mem_cons]
    exact ⟨trivial, trivial, hmove 2, hmove 3, trivial, trivial, by simp⟩
  obtain ⟨p, hp⟩ : ∃ p, p = (start .epoch).run .epoch Cluster.tillRoutes twoAndThree := ⟨_, rfl⟩
  have hfacts : (p.world.log.events (Cluster.sumStream.key .snapshot)).length = 2 ∧
      p.world.log.version (Cluster.sumStream.key .domain) = 1 ∧ p.units.length = 2 ∧
      (Cluster.tillRoutes.hydrate 0
        (p.world.log.events (Cluster.sumStream.key .domain))).2 = 5 := by
    rw [hp]
    decide +kernel
  rw [hp] at hfacts
  obtain ⟨hrecords, hversion, hunits, hsum⟩ := hfacts
  have hwall : Moment.epoch.Legible := by decide
  have htells := tells_run .epoch (tells_start Cluster.tillRoutes hwall) mergesAsHandled_tillRoutes
    recordsFaithfully_tillRoutes hrouted
  obtain ⟨-, hload⟩ := faithful_snapshots .epoch hwall mergesAsHandled_tillRoutes
    recordsFaithfully_tillRoutes hrouted Cluster.sumStream
  obtain ⟨e, w', hrun, he, hstate⟩ := hload (by rw [hversion]; decide) (cashier.node 2)
    (htells.empty 2 (Nat.le_of_eq hunits))
  exact ⟨hrecords, e, w', hrun, he.trans hversion, hstate.state_eq.symm.trans hsum⟩

end Workplace

end Chronicle
