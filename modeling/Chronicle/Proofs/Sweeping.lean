import Chronicle.Proofs.Restating
import Chronicle.Proofs.Waking

/-!
# A pass over staged batches

When a worker handles a stream that is due, the node loads the stream, pulls what is staged for it
from the front of its group and merges that, without another batch. If nobody holds the stream and
what is loaded is up to date, the pass ends in one of two ways: what was pulled is merged, and the
stream is put on the agenda again if anything is left, or it cannot be merged and is given back.
-/

namespace Chronicle

variable {S : Type}

namespace WeakResolver

variable {σ : Type} {r : WeakResolver (StateM σ)} {routes : Routes Id S} {commitId : Uuid}
  {headers : Headers} {e d : Entity S} {w w' : σ}

/-- How staged batches are merged without another one, so many having been staged. -/
inductive Passed (r : WeakResolver (StateM σ)) (routes : Routes Id S) (commitId : Uuid)
    (headers : Headers) (waiting : Nat) (pulled : List (Staged ConflictBatch)) (key : String)
    (e : Entity S) (w : σ) : Except ResolveError Resolution → Entity S → σ → Prop where
  | empty (hevents : stagedEvents pulled = []) :
      Passed r routes commitId headers waiting pulled key e w (.ok .discarded) e w
  /-- The batches are merged, and the stream is put on the agenda if others are waiting. -/
  | merged {resolution : Resolution} {d : Entity S} {w₁ w' : σ}
      (hmerge : Resolves (settleBatch r.store r.surroundings routes.lift (stagedEvents pulled)
        commitId headers .resolveWeakly r.freezeThreshold) e w (.ok resolution) d w₁)
      (hrest : waiting ≤ pulled.length ∧ w' = w₁ ∨
        pulled.length < waiting ∧ Runs (r.schedule d.timeline.stream .zero) w₁ () w') :
      Passed r routes commitId headers waiting pulled key e w (.ok resolution) d w'
  | returned {err : ResolveError} {d : Entity S} {w₁ w₂ w' : σ}
      (hmerge : Resolves (settleBatch r.store r.surroundings routes.lift (stagedEvents pulled)
        commitId headers .resolveWeakly r.freezeThreshold) e w (.error err) d w₁)
      (hrequeue : Runs (r.staging.requeue weakChannel key pulled) w₁ (.ok ()) w₂)
      (hschedule : Runs (r.schedule d.timeline.stream r.ageThreshold) w₂ () w') :
      Passed r routes commitId headers waiting pulled key e w (.error err) d w'

theorem passed_of_resolveStaged {result : Except ResolveError Resolution}
    (hgranting : r.staging.Granting)
    (h : Resolves (r.resolveStaged routes.lift [] commitId headers) e w result d w') :
    ∃ waiting pulled w₁ w₂,
      Runs (r.staging.size weakChannel (e.timeline.key .domain)) w (.ok waiting) w₁ ∧
      Runs (r.staging.pull weakChannel (e.timeline.key .domain) r.pullMax) w₁ (.ok pulled) w₂ ∧
      r.Passed routes commitId headers waiting pulled (e.timeline.key .domain) e w₂ result d
        w' := by
  unfold resolveStaged at h
  rw [resolves_entity_bind, resolves_staging_bind (hgranting.size _ _ _)] at h
  obtain ⟨waiting, w₁, hsize, h₁⟩ := h
  rw [resolves_staging_bind (hgranting.pull _ _ _ _)] at h₁
  obtain ⟨pulled, w₂, hpull, h₂⟩ := h₁
  refine ⟨waiting, pulled, w₁, w₂, hsize, hpull, ?_⟩
  simp only [List.append_nil, List.isEmpty_nil, Bool.not_true, Bool.and_false, Bool.false_and,
    Bool.false_eq_true, if_false] at h₂
  by_cases hempty : (stagedEvents pulled).isEmpty = true
  · rw [if_pos hempty] at h₂
    obtain ⟨rfl, rfl, rfl⟩ := resolves_pure.1 h₂
    exact .empty (List.isEmpty_iff.1 hempty)
  · rw [if_neg hempty, resolves_outcome_bind] at h₂
    obtain ⟨ended, d₁, w₃, hmerge, h₃⟩ := h₂
    cases ended with
    | ok resolution =>
      rw [pure_bind] at h₃
      obtain ⟨rfl, rfl, hrest⟩ := resolves_settled h₃
      exact .merged hmerge hrest
    | error err =>
      dsimp only at h₃
      rw [pure_bind] at h₃
      obtain ⟨rfl, rfl, hback⟩ := resolves_unsettled hgranting h₃
      rcases hback with ⟨rfl, -⟩ | ⟨-, w₄, hrequeue, hschedule⟩
      · simp [stagedEvents] at hempty
      · exact .returned hmerge hrequeue hschedule

end WeakResolver

namespace World

/-- What a node is given for a stream: a timeline at the version of the stream, with nothing
pending. -/
structure UpToDate (w : World) (cache : Nat) (stream : StreamRef) (t : Timeline) : Prop where
  view : w.view cache stream = .ok t
  ref : t.stream = stream
  sound : t.Sound
  clean : t.dirty = false
  version : t.version = w.log.version (stream.key .domain)

variable {n : Node} {opened : Moment} {routes : Routes Id S} {stream : StreamRef}
  {events : List Event} {e d : Entity S} {t : Timeline} {w w' : World}
  {r : Except ResolveError Resolution}

/-- What is loaded from the log is up to date, and so is a cached timeline that is at the version of
the stream. -/
theorem Consistent.upToDate (hc : w.Consistent) {c : Nat}
    (hcached : ∀ t, (w.cache c)[stream.key .domain]? = some t →
      t.stream = stream ∧ t.version = w.log.version (stream.key .domain))
    (hv : w.view c stream = .ok t) : w.UpToDate c stream t := by
  obtain ⟨-, hrooted, hclean⟩ := hc.view hv
  obtain ⟨hstream, hversion⟩ :
      t.stream = stream ∧ t.version = w.log.version (stream.key .domain) := by
    unfold World.view at hv
    cases hcache : (w.cache c)[stream.key .domain]? with
    | some t' =>
      simp only [hcache, Except.ok.injEq] at hv
      exact hv ▸ hcached t' hcache
    | none =>
      simp only [hcache] at hv
      obtain ⟨hstream, hversion, -⟩ := EventLog.timeline_spec hc.numbered hc.recorded hv
      exact ⟨hstream, hversion⟩
  exact ⟨hv, hstream, hrooted.sound, hclean, hversion⟩

namespace UpToDate

theorem key_eq (h : w.UpToDate n.cache stream t) (lane : Lane) : t.key lane = stream.key lane := by
  rw [Timeline.key, h.ref]

theorem idle (h : w.UpToDate n.cache stream t) (hi : w.Idle w') : w'.UpToDate n.cache stream t where
  view := (hi.view n.cache stream).trans h.view
  ref := h.ref
  sound := h.sound
  clean := h.clean
  version := by
    rw [EventLog.version_congr (EventLog.events_congr hi.streams _)]
    exact h.version

theorem viewed (h : w.UpToDate n.cache stream t) :
    (w.viewed n.cache stream).UpToDate n.cache stream t where
  view := (view_viewed ..).trans h.view
  ref := h.ref
  sound := h.sound
  clean := h.clean
  version := by
    rw [log_viewed]
    exact h.version

end UpToDate

/-- The batches that a node pulls from a group. -/
def pulledBy (n : Node) (q : List (Staged ConflictBatch)) : List (Staged ConflictBatch) :=
  q.take (n.settings.weakPullMax.getD q.length)

/-- The batches that a node leaves in a group. -/
def leftBy (n : Node) (q : List (Staged ConflictBatch)) : List (Staged ConflictBatch) :=
  q.drop (n.settings.weakPullMax.getD q.length)

theorem pulledBy_append_leftBy (n : Node) (q : List (Staged ConflictBatch)) :
    pulledBy n q ++ leftBy n q = q := List.take_append_drop ..

theorem leftBy_eq_nil_iff (n : Node) (q : List (Staged ConflictBatch)) :
    leftBy n q = [] ↔ ¬ (pulledBy n q).length < q.length := by
  rw [leftBy, List.drop_eq_nil_iff, pulledBy, List.length_take]
  omega

theorem runs_pullMax {key : String} {result : Except String (List (Staged ConflictBatch))} :
    Runs ((n.weak (site opened)).staging.pull weakChannel key n.settings.weakPullMax) w result w' ↔
      result = .ok (pulledBy n (w.queue n.area key)) ∧
        w' = w.restaged n.area key (leftBy n (w.queue n.area key)) := by
  change Runs ((StagingArea.staging (areaCell cell n.area) (surroundings cell) opened).pull
    weakChannel key n.settings.weakPullMax) w result w' ↔ _
  simp only [StagingArea.staging, runs_bind, runs_area_get, runs_area_set, runs_pure, and_assoc,
    exists_and_left, exists_eq_left]
  have hpull : (w.area n.area).pull ⟨weakChannel, key⟩ n.settings.weakPullMax =
      (pulledBy n (w.queue n.area key),
        (w.area n.area).setGroup ⟨weakChannel, key⟩ (leftBy n (w.queue n.area key))) := by
    cases hmax : n.settings.weakPullMax with
    | none => simp [StagingArea.pull, StagingArea.pullCount, StagingArea.size, pulledBy, leftBy,
        hmax, queue]
    | some k =>
      have hdrop : ∀ q : List (Staged ConflictBatch), q.drop (min k q.length) = q.drop k :=
        fun q => List.drop_eq_drop_iff.2 (by simp)
      simp [StagingArea.pull, StagingArea.pullCount, StagingArea.size, pulledBy, leftBy, hmax,
        queue, hdrop]
  rw [hpull]
  constructor
  · rintro ⟨rfl, -, rfl⟩
    exact ⟨rfl, rfl⟩
  · rintro ⟨rfl, rfl⟩
    exact ⟨rfl, (), rfl⟩

/-- The world in which a stream was loaded and what a node pulls was taken out of its group. -/
def opening (w : World) (n : Node) (stream : StreamRef) (issued : Nat) : World :=
  ((w.viewed n.cache stream).logged issued (w.viewed n.cache stream).log).restaged n.area
    (stream.key .domain) (leftBy n (w.queue n.area (stream.key .domain)))

@[simp] theorem log_opening (w : World) (n : Node) (stream : StreamRef) (i : Nat) :
    (w.opening n stream i).log = w.log := log_viewed ..

theorem queue_opening (w : World) (n : Node) (stream : StreamRef) (i : Nat) :
    (w.opening n stream i).queue n.area (stream.key .domain) =
      leftBy n (w.queue n.area (stream.key .domain)) := queue_restaged ..

theorem simultaneous_opening (w : World) (n : Node) (stream : StreamRef) (i : Nat) :
    w.Simultaneous (w.opening n stream i) :=
  (Simultaneous.viewed w n.cache stream).trans ⟨rfl, rfl, rfl⟩

theorem UpToDate.opening (h : w.UpToDate n.cache stream t) (i : Nat) :
    (w.opening n stream i).UpToDate n.cache stream t := by
  obtain ⟨hview, href, hsound, hclean, hversion⟩ := h.viewed
  exact ⟨hview, href, hsound, hclean, hversion⟩

/-- How a pass over the staged batches of a stream ends, if nobody holds the stream and what is
loaded is up to date. -/
inductive Swept (n : Node) (routes : Routes Id S) (stream : StreamRef) (e : Entity S) (w : World) :
    Except ResolveError Resolution → World → Prop where
  /-- What was pulled is merged, and the stream is due again if anything is left. -/
  | merged {resolution : Resolution} {d : Entity S} {w₁ w' : World} {i : Nat}
      (henacted : Enacted n routes ConflictStrategy.resolveWeakly.name
        (stagedEvents (pulledBy n (w.queue n.area (stream.key .domain)))) e (w.opening n stream i)
        (.ok resolution) d w₁)
      (hfree : ∀ key, w₁.log.freeze? key = w.log.freeze? key) (htime : w.Simultaneous w₁)
      (hrest : w' = if leftBy n (w.queue n.area (stream.key .domain)) = [] then w₁
        else w₁.scheduled n.agenda stream .zero) :
      Swept n routes stream e w (.ok resolution) w'
  | returned {err : ResolveError} {d : Entity S} {w₁ : World} {i : Nat}
      (henacted : Enacted n routes ConflictStrategy.resolveWeakly.name
        (stagedEvents (pulledBy n (w.queue n.area (stream.key .domain)))) e (w.opening n stream i)
        (.error err) d w₁)
      (hfree : ∀ key, w₁.log.freeze? key = w.log.freeze? key) (htime : w.Simultaneous w₁) :
      Swept n routes stream e w (.error err)
        ((w₁.restaged n.area (stream.key .domain) (w.queue n.area (stream.key .domain))).scheduled
          n.agenda stream n.ageThreshold)

theorem swept_of_handleStaged (hfree : w.log.freeze? (stream.key .domain) = none)
    (hcurrent : w.UpToDate n.cache stream e.timeline)
    (he : Entity.ofTimeline routes e.timeline = .ok e)
    (hevents : stagedEvents (pulledBy n (w.queue n.area (stream.key .domain))) ≠ [])
    (h : Runs ((n.weak (site opened)).handleStaged routes.lift stream) w r w') :
    Swept n routes stream e w r w' := by
  have hload : w.loaded n.cache routes stream = .ok e := by
    simp only [loaded, hcurrent.view, he, Except.mapError]
  rcases runs_handleStaged h with ⟨err, hfound, -⟩ | ⟨e₁, i, commitId, d, hfound, hresolve⟩
  · cases hload.symm.trans hfound
  · cases hload.symm.trans hfound
    obtain ⟨waiting, pulled, w₁, w₂, hsize, hpull, hpassed⟩ :=
      WeakResolver.passed_of_resolveStaged (granting_weak n opened) hresolve
    have hkey : e.timeline.key .domain = stream.key .domain := hcurrent.key_eq .domain
    have hqueue : ((w.viewed n.cache stream).logged i (w.viewed n.cache stream).log).queue n.area
        (stream.key .domain) = w.queue n.area (stream.key .domain) :=
      queue_eq_of_areas (areas_viewed ..) ..
    obtain ⟨hwaiting, rfl⟩ := runs_size.1 hsize
    obtain ⟨hpulled, rfl⟩ := runs_pullMax.1 hpull
    rw [hkey, hqueue, Except.ok.injEq] at hwaiting hpulled
    subst hwaiting hpulled
    -- The merge begins in the world in which the pulled batches are out of their group.
    have hopening : ((w.viewed n.cache stream).logged i (w.viewed n.cache stream).log).restaged
        n.area (e.timeline.key .domain) (leftBy n (((w.viewed n.cache stream).logged i
          (w.viewed n.cache stream).log).queue n.area (e.timeline.key .domain))) =
        w.opening n stream i := by
      rw [hkey, hqueue]
      rfl
    rw [hopening, hkey] at hpassed
    have hat := hcurrent.opening i
    have hversion : (w.opening n stream i).log.version (e.timeline.key .domain) =
        e.timeline.version := by
      rw [hkey]
      exact hat.version.symm
    have hfree' : (w.opening n stream i).log.freeze? (e.timeline.key .domain) = none := by
      rw [hkey, log_opening]
      exact hfree
    cases hpassed with
    | empty hnone => exact absurd hnone hevents
    | merged hmerge hrest =>
      obtain ⟨henacted, hsame⟩ := enacted_of_settleBatch hfree' hversion hcurrent.sound hmerge
      have href : d.timeline.stream = stream :=
        (merged_of_settleBatch hmerge).stream_eq.trans hcurrent.ref
      have htime := simultaneous_of_settleBatch hmerge
      refine .merged henacted (fun key => (hsame key).trans (by rw [log_opening]))
        ((simultaneous_opening ..).trans htime) ?_
      rcases hrest with ⟨hall, rfl⟩ | ⟨hmore, hschedule⟩
      · rw [if_pos ((leftBy_eq_nil_iff ..).2 (Nat.not_lt.2 hall))]
      · rw [if_neg fun hnil => (leftBy_eq_nil_iff ..).1 hnil hmore, ← href]
        exact runs_schedule hschedule
    | returned hmerge hrequeue hschedule =>
      obtain ⟨henacted, hsame⟩ := enacted_of_settleBatch hfree' hversion hcurrent.sound hmerge
      have href : d.timeline.stream = stream :=
        (merged_of_settleBatch hmerge).stream_eq.trans hcurrent.ref
      have htime := simultaneous_of_settleBatch hmerge
      have hleft := queue_eq_of_areas (merged_of_settleBatch hmerge).areas n.area
        (stream.key .domain)
      obtain ⟨-, rfl⟩ := runs_requeue.1 hrequeue
      rw [hleft, queue_opening, pulledBy_append_leftBy, href] at hschedule
      obtain rfl := runs_schedule hschedule
      exact .returned henacted (fun key => (hsame key).trans (by rw [log_opening]))
        ((simultaneous_opening ..).trans htime)

end World

end Chronicle
