import Chronicle.Proofs.Exclusion
import Chronicle.Proofs.Histories

/-!
# What a version conflict leaves behind

A version conflict takes the timeline of the stream out of the cache of the instance that met it. If
the next thing that the instance does with the stream is a fetch, it reads the log, whatever the
others and the instance itself have done elsewhere. A commit that meets a conflict fetches at once,
and the resolver is handed an entity as the log holds it.
-/

namespace Chronicle

variable {S : Type}

/-- The access asks the instance with a cache for something about a key. -/
def Access.Asks (cache : Nat) (key : String) : Access → Prop
  | fetch k stream => k.cache = cache ∧ stream.key .domain = key
  | write k _ t _ | append k _ t _ => k.cache = cache ∧ t.key .domain = key
  | verify k t | freeze k t | unfreeze k t => k.cache = cache ∧ t.key .domain = key
  | setWall _ => False

namespace World

variable {opened : Moment} {k : Instance} {w w' : World} {cache : Nat} {key : String}
  {access : Access} {accesses : List Access}

theorem cached_viewed (h : ¬ (k.cache = cache ∧ stream.key .domain = key)) :
    ((w.viewed k.cache stream).cache cache)[key]? = (w.cache cache)[key]? := by
  unfold viewed
  split
  · rw [getElem?_cache_remember, if_neg fun h' => h ⟨h'.1.symm, h'.2.symm⟩]
  · rfl

theorem cached_serve (h : ¬ access.Asks cache key) :
    ((w.serve opened access).cache cache)[key]? = (w.cache cache)[key]? := by
  generalize hw : w.serve opened access = w'
  have hserved : w.Served access w' := hw ▸ served_serve opened w access
  cases hserved with
  | same | claimed | released | set => rfl
  | viewed => exact cached_viewed h
  | conflicted | refused | outdated =>
    rw [getElem?_cache_forget, if_neg fun h' => h ⟨h'.1.symm, h'.2.symm⟩]
  | written =>
    rw [getElem?_cache_remember, if_neg fun h' => h ⟨h'.1.symm, h'.2.symm⟩]
    rfl
  | appended =>
    rw [getElem?_cache_forget, if_neg fun h' => h ⟨h'.1.symm, h'.2.symm⟩]
    rfl

theorem cached_serveAll (h : ∀ access ∈ accesses, ¬ access.Asks cache key) :
    ((w.serveAll opened accesses).cache cache)[key]? = (w.cache cache)[key]? := by
  induction accesses generalizing w with
  | nil => rfl
  | cons access rest ih =>
    obtain ⟨hfirst, hrest⟩ := List.forall_mem_cons.1 h
    exact (ih hrest).trans (cached_serve hfirst)

/-- A version conflict takes the timeline out of the cache. -/
theorem uncached_of_conflict {t : Timeline} {commitId : Uuid} {headers : Headers}
    {conflict : VersionConflict}
    (h : Runs ((k.store opened).write commitId t headers) w (.error (.version conflict)) w' ∨
      Runs ((k.store opened).verify t) w (.error (.version conflict)) w') :
    (w'.cache k.cache)[t.key .domain]? = none := by
  suffices hforget : w' = w.forget k.cache (t.key .domain) by
    rw [hforget, getElem?_cache_forget, if_pos ⟨rfl, rfl⟩]
  rcases h with h | h
  · rcases Instance.runs_writeTimeline h with ⟨_, -, hr, -⟩ | ⟨-, -, -, hw⟩ | ⟨-, hr, -⟩
    · cases hr
    · exact hw
    · cases hr
  · obtain ⟨hr, hw⟩ := Instance.runs_verifyTimeline.1 h
    by_cases hv : w.log.version (t.key .domain) = t.version
    · simp [EventLog.verify, hv] at hr
    · rwa [if_neg hv] at hw

theorem view_of_uncached (h : (w.cache cache)[stream.key .domain]? = none) :
    w.view cache stream = w.log.timeline stream := by
  rw [view, h]

end World

/-- The timeline is a clean copy of its stream as the log holds it: nothing is to be stored, its
version is that of the stream, and its settled events are all those after the last snapshot. -/
structure Timeline.Current (t : Timeline) (log : EventLog) : Prop where
  pending : t.pending = []
  pendingOobs : t.pendingOobs = []
  pendingSnapshot : t.pendingSnapshot = none
  version : t.version = log.version (t.key .domain)
  nextVersion : t.nextVersion = t.version
  snapshot : log.lastSnapshot t.stream = .ok t.snapshot
  settled : t.settled = (log.events (t.key .domain)).filter fun event =>
    t.snapshot.all fun s => s.version < event.version

theorem EventLog.current_of_timeline {log : EventLog} {p : Snapshot → Prop} {t : Timeline}
    (hn : log.Numbered) (hr : log.Recorded p) (h : log.timeline stream = .ok t) :
    t.stream = stream ∧ t.Current log := by
  have hversion := (timeline_spec hn hr h).2.1
  obtain ⟨snapshot, hs, rfl⟩ := except_map_eq_ok.1 h
  refine ⟨rfl, rfl, rfl, rfl, hversion, rfl, hs, List.filter_congr fun event he => ?_⟩
  cases snapshot with
  | none =>
    have hfirst := ((hn _).mem_bounds he).1
    simpa [Timeline.ofHistory] using hfirst
  | some s => exact decide_eq_decide.2 Int.add_one_le_iff

def Repository.withResolver {m : Type → Type} (r : Repository m) (resolver : Resolver m) :
    Repository m :=
  { r with resolver }

namespace World

variable {opened : Moment} {k : Instance} {n : Node} {w w' w₁ : World}

/-- A commit ends in the same way whatever the resolver, or it hands the resolver an entity as the
log holds it, with the batch that met the newer history, and ends as the resolver does. -/
inductive Hands (n : Node) (opened : Moment) (routes : Routes (StateM World) S) (e : Entity S)
    (commitId : Uuid) (headers : Headers) (w : World) : Prop where
  | spared {r : Except CommitError CommitOutcome × Entity S} {w' : World}
      (hcommit : ∀ resolver : Resolver (StateM World),
        Runs (((n.repository (site opened)).withResolver resolver).commit routes e commitId headers)
          w r w')
  | handed {kept fresh : Entity S} {w₁ : World} (hkept : e.staged routes w.wall = .ok kept)
      (hstream : fresh.timeline.stream = e.timeline.stream)
      (hcurrent : fresh.timeline.Current w₁.log)
      (hcommit : ∀ (resolver : Resolver (StateM World)) (result : Except ResolveError Resolution)
        (d : Entity S) (w' : World),
        Resolves (resolver.resolve routes e.timeline.batch commitId headers) fresh w₁ result d w' →
          Runs (((n.repository (site opened)).withResolver resolver).commit routes e commitId
            headers) w (match result with
              | .ok resolution => (.ok (.resolved resolution), d)
              | .error err => (.error (.resolve err), kept)) w')

theorem runs_stageSnapshot_withResolver {routes : Routes (StateM World) S} {e : Entity S}
    {r : Except RouteError (Entity S)} (resolver : Resolver (StateM World)) :
    Runs (((n.repository (site opened)).withResolver resolver).stageSnapshot routes e) w r w' ↔
      r = e.staged routes w.wall ∧ w' = w :=
  runs_stageSnapshot (n := n)

theorem runs_commit_withResolver {routes : Routes (StateM World) S} {e kept : Entity S}
    {commitId : Uuid} {headers : Headers} {result : Except StoreError Int}
    {r : Except CommitError CommitOutcome × Entity S} (hdirty : e.timeline.dirty = true)
    (hkept : e.staged routes w.wall = .ok kept)
    (hwrite : Runs ((n.store (site opened)).write commitId kept.timeline headers) w result w₁)
    (resolver : Resolver (StateM World))
    (h : Runs (match result with
      | .ok version => pure (.ok (.written version), kept.settle)
      | .error (.version _) => ((n.repository (site opened)).withResolver resolver).resolveConflict
          routes kept commitId headers
      | .error err => pure (.error (.store err), kept)) w₁ r w') :
    Runs (((n.repository (site opened)).withResolver resolver).commit routes e commitId headers)
      w r w' := by
  unfold Repository.commit
  simp only [hdirty, Bool.not_true, Bool.false_eq_true, if_false, runs_bind,
    runs_stageSnapshot_withResolver, and_assoc, exists_and_left, exists_eq_left, hkept]
  exact ⟨result, w₁, hwrite, h⟩

/-- The entity that is loaded from a log without a cached copy is as the log holds it. -/
theorem Consistent.current_of_loaded (hc : w.Consistent) {routes : Routes (StateM World) S}
    {stream : StreamRef} {cache : Nat} {fresh : Entity S}
    (h : (w.forget cache (stream.key .domain)).loaded cache routes stream = .ok fresh) :
    fresh.timeline.stream = stream ∧ fresh.timeline.Current w.log := by
  have htimeline := view_of_loaded h
  rw [view_forget] at htimeline
  exact EventLog.current_of_timeline hc.numbered hc.recorded htimeline

/-- A commit hands its resolver an entity as the log holds it, or does not ask it at all. -/
theorem Consistent.hands (hc : w.Consistent) (n : Node) (opened : Moment)
    (routes : Routes (StateM World) S) (e : Entity S) (commitId : Uuid) (headers : Headers) :
    w.Hands n opened routes e commitId headers := by
  by_cases hdirty : e.timeline.dirty = true
  swap
  · have hclean (resolver : Resolver (StateM World)) :
        Runs (((n.repository (site opened)).withResolver resolver).commit routes e commitId headers)
          w (.ok .clean, e) w := by
      simp [Repository.commit, hdirty]
    exact .spared hclean
  cases hkept : e.staged routes w.wall with
  | error err =>
    have hrejected (resolver : Resolver (StateM World)) :
        Runs (((n.repository (site opened)).withResolver resolver).commit routes e commitId headers)
          w (.error (.route err), e) w := by
      simp [Repository.commit, hdirty, runs_bind, runs_stageSnapshot_withResolver, hkept]
    exact .spared hrejected
  | ok kept =>
    obtain ⟨hcontinues, hbatch⟩ := continues_staged hkept
    obtain ⟨result, w₁, hwrite⟩ :=
      Runs.total ((n.store (site opened)).write commitId kept.timeline headers) w
    cases wrote_of_runs hwrite with
    | held hheld =>
      exact .spared fun resolver =>
        runs_commit_withResolver hdirty hkept hwrite resolver (runs_pure.2 ⟨rfl, rfl⟩)
    | stored hversion hstored =>
      exact .spared fun resolver =>
        runs_commit_withResolver hdirty hkept hwrite resolver (runs_pure.2 ⟨rfl, rfl⟩)
    | conflict hpending hversion =>
      -- The load does not depend on the resolver, so it is run before there is one.
      obtain ⟨found, w₂, hload⟩ := Runs.total
        (loadEntity (n.store (site opened)) routes kept.timeline.stream).run
        (w.forget n.cache (kept.timeline.key .domain))
      obtain ⟨hfound, hviewed⟩ := runs_loadEntity.1 hload
      cases found with
      | error err =>
        exact .spared fun resolver =>
          runs_commit_withResolver hdirty hkept hwrite resolver
            (runs_bind.2 ⟨_, w₂, hload, runs_pure.2 ⟨rfl, rfl⟩⟩)
      | ok fresh =>
        obtain ⟨hstream, hcurrent⟩ := hc.current_of_loaded hfound.symm
        have hlog : w₂.log = w.log := by rw [hviewed, log_viewed, log_forget]
        refine .handed hkept (hstream.trans hcontinues.stream) (hlog ▸ hcurrent)
          fun resolver result d w' hresolve =>
            runs_commit_withResolver hdirty hkept hwrite resolver ?_
        refine runs_bind.2 ⟨_, w₂, hload, runs_bind.2 ⟨(result, d), w', ?_, ?_⟩⟩
        · rw [hbatch]
          exact hresolve
        · cases result with
          | ok resolution => exact runs_pure.2 ⟨rfl, rfl⟩
          | error err => exact runs_pure.2 ⟨rfl, rfl⟩

/-- After a version conflict the next fetch of the stream reads the log, like a fetch of an instance
that has cached nothing. -/
theorem runs_fetch_of_conflict {other : Instance} {t : Timeline} {stream : StreamRef}
    {commitId : Uuid} {headers : Headers} {conflict : VersionConflict} {accesses : List Access}
    (h : Runs ((k.store opened).write commitId t headers) w (.error (.version conflict)) w₁ ∨
      Runs ((k.store opened).verify t) w (.error (.version conflict)) w₁)
    (hleft : ∀ access ∈ accesses, ¬ access.Asks k.cache (t.key .domain))
    (hkey : stream.key .domain = t.key .domain)
    (hempty : (w₁.serveAll opened accesses).cache other.cache = ∅) :
    ∃ r w₂ w₃, Runs ((k.store opened).fetch stream) (w₁.serveAll opened accesses) r w₂ ∧
      Runs ((other.store opened).fetch stream) (w₁.serveAll opened accesses) r w₃ := by
  have huncached : ((w₁.serveAll opened accesses).cache k.cache)[stream.key .domain]? = none := by
    rw [hkey, cached_serveAll hleft, uncached_of_conflict h]
  have hother : ((w₁.serveAll opened accesses).cache other.cache)[stream.key .domain]? = none := by
    rw [hempty, Std.ExtTreeMap.getElem?_empty]
  exact ⟨_, _, _, Instance.runs_fetch.2 ⟨(view_of_uncached huncached).symm, rfl⟩,
    Instance.runs_fetch.2 ⟨(view_of_uncached hother).symm, rfl⟩⟩

end World

namespace Cluster

variable {C : Catalog}

/-- Whatever was done in a cluster, a commit hands its resolver an entity as the log holds it or
does not ask it. In any world, after a version conflict the next fetch of the stream answers like
that of an instance that has cached nothing. -/
theorem hands_current (opened wall : Moment) (operations : List (Operation C)) :
    (∀ (p : Participant C) (kind : C.Kind) (e : Entity (C.State kind)) (commitId : Uuid)
      (headers : Headers), ((start wall).run opened operations : Cluster C).world.Hands p.node
        opened (C.routes kind).lift e commitId headers) ∧
    ∀ (k other : Instance) (t : Timeline) (stream : StreamRef) (commitId : Uuid) (headers : Headers)
      (conflict : VersionConflict) (w w₁ : World) (accesses : List Access),
      Runs ((k.store opened).write commitId t headers) w (.error (.version conflict)) w₁ ∨
        Runs ((k.store opened).verify t) w (.error (.version conflict)) w₁ →
      (∀ access ∈ accesses, ¬ access.Asks k.cache (t.key .domain)) →
      stream.key .domain = t.key .domain →
      (w₁.serveAll opened accesses).cache other.cache = ∅ →
      ∃ r w₂ w₃, Runs ((k.store opened).fetch stream) (w₁.serveAll opened accesses) r w₂ ∧
        Runs ((other.store opened).fetch stream) (w₁.serveAll opened accesses) r w₃ := by
  constructor
  · intro p kind e commitId headers
    obtain ⟨rs, hleads⟩ := leads_run opened (steady_start (C := C) wall) operations
    exact hleads.steady.consistent.hands ..
  · intro k other t stream commitId headers conflict w w₁ accesses h hleft hkey hempty
    exact World.runs_fetch_of_conflict h hleft hkey hempty

def newcomer : Instance := ⟨.numbered 2, .ofSeconds 30, 2⟩

def otherStep : List Access := [.append World.holding (.numbered 102) World.disputed ∅]

/-- A tally with a step that knows nothing of what is stored is left to the resolver, so that the
commit ends in different ways. When the check of its version has failed and another step has been
stored, the instance is given what a newcomer is given. -/
theorem hands_current_disputed :
    let w := ((start .epoch).run .epoch (lateSteps.take 4) : Cluster tallies).world
    let k := (teller 1).node.asInstance
    let routes : Routes (StateM World) Samples.Tally := (tallies.routes ()).lift
    let e : Entity Samples.Tally := ⟨⟨[], []⟩, World.disputed, 0⟩
    let commit := fun resolver =>
      ((((teller 1).node.repository (World.site .epoch)).withResolver resolver).commit routes e
        (.numbered 101) ∅).run w
    w.Hands (teller 1).node .epoch routes e (.numbered 101) ∅ ∧
      (commit .throwing).1.1 ≠ (commit .discarding).1.1 ∧
      ∃ conflict w₁, Runs ((k.store .epoch).verify e.timeline) w (.error (.version conflict)) w₁ ∧
        ∃ r w₂ w₃, Runs ((k.store .epoch).fetch tallyStream) (w₁.serveAll .epoch otherStep) r w₂ ∧
          Runs ((newcomer.store .epoch).fetch tallyStream) (w₁.serveAll .epoch otherStep) r w₃ := by
  intro w k routes e commit
  obtain ⟨hhands, hfetch⟩ := hands_current (C := tallies) .epoch .epoch (lateSteps.take 4)
  obtain ⟨r, w₁, hverify⟩ := Runs.total ((k.store .epoch).verify e.timeline) w
  have hrun : (commit .throwing).1.1 ≠ (commit .discarding).1.1 ∧
      let verified := ((k.store .epoch).verify e.timeline).run w
      verified.1 = .error (.version ⟨e.timeline.key .domain, -1, 0⟩) ∧
        (verified.2.serveAll .epoch otherStep).cache newcomer.cache = ∅ := by
    decide +kernel
  obtain ⟨hdiffer, hrun⟩ := hrun
  rw [hverify.run_eq] at hrun
  obtain ⟨rfl, hempty⟩ := hrun
  have hleft : ∀ access ∈ otherStep, ¬ access.Asks k.cache (e.timeline.key .domain) := by
    intro access hmem
    rw [List.mem_singleton.1 hmem]
    exact fun h => absurd h.1 (by decide)
  exact ⟨hhands (teller 1) () e (.numbered 101) ∅, hdiffer, _, w₁, hverify,
    hfetch k newcomer e.timeline tallyStream (.numbered 101) ∅ _ w w₁ otherStep (.inr hverify) hleft
      rfl hempty⟩

end Cluster

end Chronicle
