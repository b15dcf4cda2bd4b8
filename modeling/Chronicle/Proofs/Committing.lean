import Chronicle.Cluster.World
import Chronicle.Proofs.Storing

/-!
# How a commit ends

A commit has nothing to store, cannot record the state, writes, is refused by a freeze, or meets
a version conflict and leaves the rest to the resolver. `Committed` has one case for each, so
that what is true of every commit is proved case by case.
-/

namespace Chronicle

variable {S : Type}

namespace Entity

theorem timeline_ofTimeline {m : Type → Type} {routes : Routes m S} {t : Timeline} {e : Entity S}
    (h : ofTimeline routes t = .ok e) : e.timeline = t := by
  unfold ofTimeline at h
  cases hs : startState routes t with
  | error err => simp [hs, bind, Except.bind] at h
  | ok first =>
    simp only [hs, bind, Except.bind] at h
    split at h
    · cases h
      rfl
    · cases h

theorem apply_eq_ok {e e' : Entity S} {stamp : Stamp} {move : Move S}
    (h : e.apply stamp move = .ok e') : ∃ payload, move.payload = .ok payload ∧
      e' = { e with
        timeline := e.timeline.add stamp move.kind payload ∅
        state := move.apply e.state } := by
  obtain ⟨payload, hp, he⟩ := except_map_eq_ok.1 h
  exact ⟨payload, except_mapError_eq_ok.1 hp, he⟩

theorem raise_eq_ok {e e' : Entity S} {stamp : Stamp} {move : Move S} {channel : String}
    {transient : Bool} {daysToLive : Option Nat}
    (h : e.raise stamp move channel transient daysToLive = .ok e') : ∃ payload headers,
      e' = { e with timeline := e.timeline.addOob stamp move.kind payload channel headers } := by
  obtain ⟨payload, -, he⟩ := except_map_eq_ok.1 h
  exact ⟨payload, _, he⟩

/-- The entity with the snapshot that its policy asks for. -/
def staged {m : Type → Type} (e : Entity S) (routes : Routes m S) (time : Moment) :
    Except RouteError (Entity S) :=
  if e.shouldTakeSnapshot routes then e.takeSnapshot routes time else .ok e

theorem exists_staged {m : Type → Type} {routes : Routes m S}
    (h : ∀ snapshots ∈ routes.snapshots, ∀ s, ∃ memento, snapshots.encode s = .ok memento)
    (e : Entity S) (time : Moment) : ∃ e', e.staged routes time = .ok e' := by
  unfold staged
  by_cases hdue : e.shouldTakeSnapshot routes = true
  · cases hs : routes.snapshots with
    | none => simp [shouldTakeSnapshot, Routes.policy?, hs] at hdue
    | some snapshots =>
      obtain ⟨memento, hm⟩ := h snapshots hs e.state
      simp [hdue, takeSnapshot, Routes.encodeSnapshot, hs, hm, Except.map]
  · simp [hdue]

theorem staged_eq_ok {m : Type → Type} {e e' : Entity S} {routes : Routes m S} {time : Moment}
    (h : e.staged routes time = .ok e') :
    (e.shouldTakeSnapshot routes = false ∧ e' = e) ∨
      (e.shouldTakeSnapshot routes = true ∧ ∃ snapshots memento,
        routes.snapshots = some snapshots ∧ snapshots.encode e.state = .ok memento ∧
          e' = { e with timeline := e.timeline.addSnapshot time memento }) := by
  unfold staged at h
  split at h
  · rename_i hdue
    refine .inr ⟨hdue, ?_⟩
    cases hs : routes.snapshots with
    | none => simp [shouldTakeSnapshot, Routes.policy?, hs] at hdue
    | some snapshots =>
      cases hm : snapshots.encode e.state with
      | error reason => simp [takeSnapshot, Routes.encodeSnapshot, hs, hm, Except.map] at h
      | ok memento =>
        simp only [takeSnapshot, Routes.encodeSnapshot, hs, hm, Except.map, Except.ok.injEq] at h
        exact ⟨snapshots, memento, rfl, hm, h.symm⟩
  · rename_i hdue
    cases h
    exact .inl ⟨by simpa using hdue, rfl⟩

end Entity

namespace World

variable {n : Node} {opened : Moment} {w w' : World}

/-- The entity that a node with a cache loads for a stream. -/
def loaded {m : Type → Type} (w : World) (cache : Nat) (routes : Routes m S)
    (stream : StreamRef) : Except LoadError (Entity S) :=
  match w.view cache stream with
  | .ok t => (Entity.ofTimeline routes t).mapError .route
  | .error err => .error (.store err)

theorem view_of_loaded {m : Type → Type} {routes : Routes m S} {c : Nat} {stream : StreamRef}
    {e : Entity S} (h : w.loaded c routes stream = .ok e) : w.view c stream = .ok e.timeline := by
  unfold World.loaded at h
  cases hv : w.view c stream with
  | error err => simp [hv] at h
  | ok t =>
    simp only [hv] at h
    rw [Entity.timeline_ofTimeline (except_mapError_eq_ok.1 h)]

theorem runs_loadEntity {routes : Routes (StateM World) S} {stream : StreamRef}
    {r : Except LoadError (Entity S)} :
    Runs (loadEntity (n.store (site opened)) routes stream).run w r w' ↔
      r = w.loaded n.cache routes stream ∧ w' = w.viewed n.cache stream := by
  simp only [loadEntity, ExceptT.run_mk, runs_bind, runs_fetch, and_assoc, exists_and_left,
    exists_eq_left, loaded]
  cases w.view n.cache stream <;> simp

theorem runs_stageSnapshot {routes : Routes (StateM World) S} {e : Entity S}
    {r : Except RouteError (Entity S)} :
    Runs ((n.repository (site opened)).stageSnapshot routes e) w r w' ↔
      r = e.staged routes w.wall ∧ w' = w := by
  unfold Repository.stageSnapshot Entity.staged
  split
  · have hs : (n.repository (site opened)).surroundings = surroundings cell := rfl
    rw [hs, runs_bind_pure]
    simp [and_comm]
  · simp

/-- A conflict is resolved on the entity that the node loads, which replaces the one at hand if
that succeeds. -/
theorem runs_resolveConflict {routes : Routes (StateM World) S} {e e' : Entity S}
    {commitId : Uuid} {headers : Headers} {r : Except CommitError CommitOutcome}
    (h : Runs ((n.repository (site opened)).resolveConflict routes e commitId headers) w
      (r, e') w') :
    (∃ err, w.loaded n.cache routes e.timeline.stream = .error err ∧
      r = .error (.ofLoad err) ∧ e' = e ∧ w' = w.viewed n.cache e.timeline.stream) ∨
    ∃ fresh result d, w.loaded n.cache routes e.timeline.stream = .ok fresh ∧
      Resolves ((n.resolver (site opened) n.settings.strategy).resolve routes e.timeline.batch
        commitId headers) fresh (w.viewed n.cache e.timeline.stream) result d w' ∧
      ((∃ resolution, result = .ok resolution ∧ r = .ok (.resolved resolution) ∧ e' = d) ∨
        ∃ err, result = .error err ∧ r = .error (.resolve err) ∧ e' = e) := by
  unfold Repository.resolveConflict at h
  rw [runs_bind] at h
  obtain ⟨found, w₁, hl, h⟩ := h
  obtain ⟨hfound, rfl⟩ := runs_loadEntity.1 hl
  rw [← hfound]
  cases found with
  | error err =>
    obtain ⟨hr, rfl⟩ := runs_pure.1 h
    cases hr
    exact .inl ⟨err, rfl, rfl, rfl, rfl⟩
  | ok fresh =>
    simp only [runs_bind] at h
    obtain ⟨⟨result, d⟩, w₂, hres, h⟩ := h
    refine .inr ⟨fresh, result, d, rfl, ?_⟩
    cases result with
    | error err =>
      obtain ⟨hr, rfl⟩ := runs_pure.1 h
      cases hr
      exact ⟨hres, .inr ⟨err, rfl, rfl, rfl⟩⟩
    | ok resolution =>
      obtain ⟨hr, rfl⟩ := runs_pure.1 h
      cases hr
      exact ⟨hres, .inl ⟨resolution, rfl, rfl, rfl⟩⟩

/-- How a commit of an entity ends. -/
inductive Committed (n : Node) (opened : Moment) (routes : Routes (StateM World) S)
    (e : Entity S) (commitId : Uuid) (headers : Headers) (w : World) :
    Except CommitError CommitOutcome × Entity S → World → Prop where
  | clean (hdirty : e.timeline.dirty = false) :
      Committed n opened routes e commitId headers w (.ok .clean, e) w
  | unrecorded {err : RouteError} (hdirty : e.timeline.dirty = true)
      (hstaged : e.staged routes w.wall = .error err) :
      Committed n opened routes e commitId headers w (.error (.route err), e) w
  | written {e' : Entity S} {v : Int} {w' : World} (hdirty : e.timeline.dirty = true)
      (hstaged : e.staged routes w.wall = .ok e') (hwrote : Wrote n w e'.timeline (.ok v) w') :
      Committed n opened routes e commitId headers w (.ok (.written v), e'.settle) w'
  | held {e' : Entity S} {owner : Uuid} (hdirty : e.timeline.dirty = true)
      (hstaged : e.staged routes w.wall = .ok e')
      (hheld : w.holder n.owner n.freezeTimeout (e'.timeline.key .domain) = some owner) :
      Committed n opened routes e commitId headers w
        (.error (.store (.frozen (e'.timeline.key .domain) owner)), e') w
  /-- The stream has moved on: the cached timeline is dropped and the resolver is asked. -/
  | conflict {e' : Entity S} {r : Except CommitError CommitOutcome × Entity S} {w' : World}
      (hdirty : e.timeline.dirty = true) (hstaged : e.staged routes w.wall = .ok e')
      (hpending : e'.timeline.pending ≠ [])
      (hversion : w.log.version (e'.timeline.key .domain) ≠ e'.timeline.version)
      (hresolve : Runs ((n.repository (site opened)).resolveConflict routes e' commitId headers)
        (w.forget n.cache (e'.timeline.key .domain)) r w') :
      Committed n opened routes e commitId headers w r w'

/-- What is pending is written, with the snapshot that is due, and the answer of the store decides
how the commit goes on. -/
theorem runs_commit {routes : Routes (StateM World) S} {e e' : Entity S} {commitId : Uuid}
    {headers : Headers} {r : Except CommitError CommitOutcome × Entity S}
    (hdirty : e.timeline.dirty = true) (hstaged : e.staged routes w.wall = .ok e')
    (h : Runs ((n.repository (site opened)).commit routes e commitId headers) w r w') :
    ∃ result w₁, Runs ((n.store (site opened)).write commitId e'.timeline headers) w result w₁ ∧
      Runs (match result with
        | .ok version => pure (.ok (.written version), e'.settle)
        | .error (.version _) =>
          (n.repository (site opened)).resolveConflict routes e' commitId headers
        | .error err => pure (.error (.store err), e')) w₁ r w' := by
  unfold Repository.commit at h
  simp only [hdirty, Bool.not_true, Bool.false_eq_true, if_false, runs_bind, runs_stageSnapshot,
    and_assoc, exists_and_left, exists_eq_left, hstaged] at h
  exact h

theorem committed_of_runs {routes : Routes (StateM World) S} {e : Entity S} {commitId : Uuid}
    {headers : Headers} {r : Except CommitError CommitOutcome × Entity S}
    (h : Runs ((n.repository (site opened)).commit routes e commitId headers) w r w') :
    Committed n opened routes e commitId headers w r w' := by
  by_cases hd : e.timeline.dirty
  · cases hs : e.staged routes w.wall with
    | error err =>
      simp only [Repository.commit, hd, Bool.not_true, Bool.false_eq_true, if_false, runs_bind,
        runs_stageSnapshot, and_assoc, exists_and_left, exists_eq_left, hs, runs_pure] at h
      obtain ⟨rfl, rfl⟩ := h
      exact .unrecorded hd hs
    | ok e' =>
      obtain ⟨result, w₁, hw, h⟩ := runs_commit hd hs h
      have hwrote := wrote_of_runs hw
      cases hwrote with
      | held hheld =>
        obtain ⟨rfl, rfl⟩ := runs_pure.1 h
        exact .held hd hs hheld
      | conflict hpending hversion => exact .conflict hd hs hpending hversion h
      | stored hversion hstored =>
        obtain ⟨rfl, rfl⟩ := runs_pure.1 h
        exact .written hd hs (.stored hversion hstored)
  · simp only [Repository.commit, hd, Bool.not_false, if_true, runs_pure] at h
    obtain ⟨rfl, rfl⟩ := h
    exact .clean (by simpa using hd)

theorem Committed.of_written {routes : Routes (StateM World) S} {e e' : Entity S}
    {commitId : Uuid} {headers : Headers} {v : Int}
    (h : Committed n opened routes e commitId headers w (.ok (.written v), e') w') :
    ∃ e₁, e.staged routes w.wall = .ok e₁ ∧ Wrote n w e₁.timeline (.ok v) w' ∧ e' = e₁.settle := by
  cases h with
  | written hdirty hstaged hwrote => exact ⟨_, hstaged, hwrote, rfl⟩
  | conflict hdirty hstaged hpending hversion hresolve =>
    rcases runs_resolveConflict hresolve with ⟨_, -, hr, -⟩ | ⟨_, _, _, -, -, hend⟩
    · cases hr
    · rcases hend with ⟨_, -, hr, -⟩ | ⟨_, -, hr, -⟩ <;> cases hr

end World

end Chronicle
