import Chronicle.Proofs.Requeueing
import Chronicle.Proofs.Sweeping

/-!
# A current batch that is rejected

A merge of staged batches together with a current one may fail for good, and the current one may be
to blame. The call fails then, whatever comes of the staged batches: they are merged without the
current one, into what the node loads once more, or they are given back. Either way nothing of the
current batch is stored.
-/

namespace Chronicle

variable {S : Type}

namespace WeakResolver

variable {σ : Type} {r : WeakResolver (StateM σ)} {routes : Routes Id S} {current : List Event}
  {commitId : Uuid} {headers : Headers} {e e' d fresh : Entity S} {w w' w₁ w₂ w₃ w₄ : σ}
  {pulled : List (Staged ConflictBatch)} {waiting : Nat} {key : String} {err : ResolveError}

/-- How pulled batches are merged without the current one, into an entity that was loaded for it,
and what is left to do after that. -/
inductive Retried (r : WeakResolver (StateM σ)) (routes : Routes Id S) (waiting : Nat)
    (pulled : List (Staged ConflictBatch)) (key : String) (stream : StreamRef) (fresh : Entity S)
    (w : σ) : σ → Prop where
  /-- The batches are merged, and the stream is put on the agenda if others are waiting. -/
  | merged {id : Uuid} {resolution : Resolution} {d : Entity S} {w₁ w₂ w' : σ}
      (hid : Runs r.surroundings.freshId w id w₁)
      (hmerge : Resolves (settleBatch r.store r.surroundings routes.lift (stagedEvents pulled) id ∅
        .resolveWeakly r.freezeThreshold) fresh w₁ (.ok resolution) d w₂)
      (hrest : waiting ≤ pulled.length ∧ w' = w₂ ∨
        pulled.length < waiting ∧ Runs (r.schedule d.timeline.stream .zero) w₂ () w') :
      Retried r routes waiting pulled key stream fresh w w'
  | returned {id : Uuid} {err : ResolveError} {d : Entity S} {w₁ w₂ w₃ w' : σ}
      (hid : Runs r.surroundings.freshId w id w₁)
      (hmerge : Resolves (settleBatch r.store r.surroundings routes.lift (stagedEvents pulled) id ∅
        .resolveWeakly r.freezeThreshold) fresh w₁ (.error err) d w₂)
      (hrequeue : Runs (r.staging.requeue weakChannel key pulled) w₂ (.ok ()) w₃)
      (hschedule : Runs (r.schedule stream r.ageThreshold) w₃ () w') :
      Retried r routes waiting pulled key stream fresh w w'

/-- Pulled batches are merged without the current one, if the stream can be loaded. -/
theorem resolves_mergeStagedAlone_of_loaded {result : Except ResolveError Bool}
    (hload : Runs (loadEntity r.store routes.lift d.timeline.stream).run w (.ok fresh) w₁)
    (h : Resolves (r.mergeStagedAlone routes.lift pulled) d w result e' w') :
    ∃ id w₂ alone m, Runs r.surroundings.freshId w₁ id w₂ ∧
      Resolves (settleBatch r.store r.surroundings routes.lift (stagedEvents pulled) id ∅
        .resolveWeakly r.freezeThreshold) fresh w₂ alone m w' ∧
      ((∃ resolution, alone = .ok resolution ∧ result = .ok true ∧ e' = m) ∨
        ∃ err, alone = .error err ∧ result = .ok false ∧ e' = d) := by
  unfold mergeStagedAlone at h
  rw [resolves_entity_bind, resolves_ask_bind] at h
  obtain ⟨found, _, hfound, h⟩ := h
  obtain ⟨rfl, rfl⟩ := hload.unique hfound
  simp only [resolves_ask_bind] at h
  obtain ⟨id, w₂, hid, ⟨alone, m⟩, w₃, hmerge, h⟩ := h
  cases alone with
  | ok resolution =>
    simp only [resolves_setEntity_bind, resolves_pure] at h
    obtain ⟨rfl, rfl, rfl⟩ := h
    exact ⟨id, w₂, _, _, hid, hmerge, .inl ⟨resolution, rfl, rfl, rfl⟩⟩
  | error err =>
    obtain ⟨rfl, rfl, rfl⟩ := resolves_pure.1 h
    exact ⟨id, w₂, _, m, hid, hmerge, .inr ⟨err, rfl, rfl, rfl⟩⟩

/-- If the merge together with a current batch fails for good, that failure is the result, and the
pulled batches are merged without the current one. -/
theorem retried_of_resolveStaged {result : Except ResolveError Resolution}
    (hgranting : r.staging.Granting) (hpulled : pulled ≠ []) (hcurrent : current ≠ [])
    (hsize : Runs (r.staging.size weakChannel (e.timeline.key .domain)) w (.ok waiting) w₁)
    (hpull : Runs (r.staging.pull weakChannel (e.timeline.key .domain) r.pullMax) w₁
      (.ok pulled) w₂)
    (hmerge : Resolves (settleBatch r.store r.surroundings routes.lift
      (stagedEvents pulled ++ current) commitId headers .resolveWeakly r.freezeThreshold) e w₂
      (.error err) d w₃)
    (hfinal : err.isTransient = false)
    (hload : Runs (loadEntity r.store routes.lift d.timeline.stream).run w₃ (.ok fresh) w₄)
    (h : Resolves (r.resolveStaged routes.lift current commitId headers) e w result e' w') :
    result = .error err ∧
      r.Retried routes waiting pulled (e.timeline.key .domain) d.timeline.stream fresh w₄ w' := by
  unfold resolveStaged at h
  rw [resolves_entity_bind, resolves_staging_bind (hgranting.size _ _ _)] at h
  obtain ⟨_, _, hsize', h₁⟩ := h
  obtain ⟨hwaiting, rfl⟩ := hsize.unique hsize'
  cases hwaiting
  rw [resolves_staging_bind (hgranting.pull _ _ _ _)] at h₁
  obtain ⟨_, _, hpull', h₂⟩ := h₁
  obtain ⟨hsame, rfl⟩ := hpull.unique hpull'
  cases hsame
  have hevents : ¬ (stagedEvents pulled ++ current).isEmpty = true := by simp [hcurrent]
  have halone : (!err.isTransient && !current.isEmpty && !pulled.isEmpty) = true := by
    simp [hfinal, hcurrent, hpulled]
  dsimp only at h₂
  rw [if_neg hevents, resolves_outcome_bind] at h₂
  obtain ⟨_, _, _, hmerge', h₃⟩ := h₂
  obtain ⟨hended, rfl⟩ := Runs.unique hmerge hmerge'
  cases hended
  dsimp only at h₃
  rw [if_pos halone, resolves_bind] at h₃
  rcases h₃ with ⟨failure, hagain, -⟩ | ⟨settled, d₁, w₅, hagain, h₄⟩
  · obtain ⟨_, _, _, _, -, -, ⟨_, -, hr, -⟩ | ⟨_, -, hr, -⟩⟩ :=
      resolves_mergeStagedAlone_of_loaded hload hagain <;> cases hr
  · obtain ⟨id, w₆, alone, m, hid, hsettle, ⟨resolution, rfl, hr, rfl⟩ | ⟨failure, rfl, hr, rfl⟩⟩ :=
      resolves_mergeStagedAlone_of_loaded hload hagain
    · cases hr
      obtain ⟨rfl, rfl, hrest⟩ := resolves_settled h₄
      exact ⟨rfl, .merged hid hsettle hrest⟩
    · cases hr
      obtain ⟨rfl, rfl, ⟨hnil, -⟩ | ⟨-, w₇, hrequeue, hschedule⟩⟩ :=
        resolves_unsettled hgranting h₄
      · exact absurd hnil hpulled
      · exact ⟨rfl, .returned hid hsettle hrequeue hschedule⟩

end WeakResolver

namespace World

variable {n : Node} {opened : Moment} {routes : Routes Id S} {current : List Event}
  {commitId : Uuid} {headers : Headers} {e d : Entity S} {err : ResolveError} {w w' w₁ : World}

/-- A world in which what a node pulls for an entity's stream is out of its group, and which is `w`
otherwise: the same is stored, nobody holds a stream, no time has passed, and the node loads the
entity once more. Other identifiers may have been handed out, and metadata been written anew. -/
structure Afresh (n : Node) (routes : Routes Id S) (e : Entity S) (w w₁ : World) : Prop where
  loaded : w₁.loaded n.cache routes e.timeline.stream = .ok e
  streams : w₁.log.streams = w.log.streams
  unfrozen : w₁.Unfrozen
  queue : w₁.queue n.area (e.timeline.key .domain) =
    leftBy n (w.queue n.area (e.timeline.key .domain))
  time : w.Simultaneous w₁

/-- What becomes of the staged batches when the merge together with a current one has failed for
good. -/
inductive Spared (n : Node) (opened : Moment) (routes : Routes Id S) (e : Entity S) (w : World) :
    World → Prop where
  /-- Those that were pulled are merged alone, which stores their events and nothing else. They are
  gone from the group, and the stream is due if others are left. -/
  | merged {id : Uuid} {resolution : Resolution} {d : Entity S} {w₁ w₂ w' : World}
      (hafresh : Afresh n routes e w w₁)
      (hmerge : Resolves (settleBatch (n.store (site opened)) (surroundings cell) routes.lift
        (stagedEvents (pulledBy n (w.queue n.area (e.timeline.key .domain)))) id ∅ .resolveWeakly
        n.settings.freezeThreshold) e w₁ (.ok resolution) d w₂)
      (hstreams : w'.log.streams = w₂.log.streams)
      (hbooked : e.Booked routes
        (stagedEvents (pulledBy n (w.queue n.area (e.timeline.key .domain))))
        (w.shelf n.area).stored (w'.shelf n.area).stored)
      (hqueue : w'.queue n.area (e.timeline.key .domain) =
        leftBy n (w.queue n.area (e.timeline.key .domain)))
      (hdue : leftBy n (w.queue n.area (e.timeline.key .domain)) ≠ [] →
        ∃ due ≤ w.elapsed, (w'.agenda n.agenda).dueTime e.timeline.stream = some due) :
      Spared n opened routes e w w'
  /-- Those that were pulled cannot be merged alone. The group and the log are as before, and the
  stream is due once the batches have waited. -/
  | returned {id : Uuid} {err : ResolveError} {d : Entity S} {w₁ w₂ w' : World}
      (hafresh : Afresh n routes e w w₁)
      (hmerge : Resolves (settleBatch (n.store (site opened)) (surroundings cell) routes.lift
        (stagedEvents (pulledBy n (w.queue n.area (e.timeline.key .domain)))) id ∅ .resolveWeakly
        n.settings.freezeThreshold) e w₁ (.error err) d w₂)
      (hstreams : w'.log.streams = w.log.streams)
      (hqueue : w'.queue n.area (e.timeline.key .domain) = w.queue n.area (e.timeline.key .domain))
      (hdue : ∃ due ≤ w.elapsed + n.ageThreshold,
        (w'.agenda n.agenda).dueTime e.timeline.stream = some due) :
      Spared n opened routes e w w'

theorem pulledBy_ne_nil {q : List (Staged ConflictBatch)} (hmax : n.settings.weakPullMax ≠ some 0)
    (hq : q ≠ []) : pulledBy n q ≠ [] := by
  rw [pulledBy, Ne, List.take_eq_nil_iff]
  rintro (hzero | hnil)
  · cases hm : n.settings.weakPullMax with
    | none =>
      rw [hm, Option.getD_none] at hzero
      exact hq (List.eq_nil_of_length_eq_zero hzero)
    | some k =>
      rw [hm, Option.getD_some] at hzero
      exact hmax (hm.trans (congrArg some hzero))
  · exact hq hnil

theorem Merged.streams_of_error {drawn : Moment → Prop} {events : List Event}
    (h : Merged n drawn routes events e w (.error err) d w') : w'.log.streams = w.log.streams := by
  cases h with
  | failed _ hidle => exact hidle.streams
  | outdated _ _ hidle => exact hidle.streams

/-- What is put on an agenda is due after the delay, or earlier. -/
theorem exists_due_scheduled (h : w'.elapsed = w.elapsed) (a : Nat) (stream : StreamRef)
    (delay : Span) : ∃ due ≤ w.elapsed + delay,
      ((w'.scheduled a stream delay).agenda a).dueTime stream = some due := by
  rw [agenda_scheduled, if_pos rfl, h]
  exact Agenda.exists_dueTime_schedule_self ..

/-- After a merge that has failed for good the node loads the same entity once more. -/
theorem afresh_of_rejected {events : List Event} (hfree : w.Unfrozen)
    (hfresh : w.loaded n.cache routes e.timeline.stream = .ok e)
    (hmerge : Resolves (settleBatch (n.store (site opened)) (surroundings cell) routes.lift events
      commitId headers .resolveWeakly n.settings.freezeThreshold) e
      (w.restaged n.area (e.timeline.key .domain)
        (leftBy n (w.queue n.area (e.timeline.key .domain)))) (.error err) d w₁)
    (hfinal : err.isTransient = false) :
    w₁.loaded n.cache routes e.timeline.stream = .ok e ∧ ∀ i, Afresh n routes e w
      ((w₁.viewed n.cache e.timeline.stream).logged i
        (w₁.viewed n.cache e.timeline.stream).log) := by
  have hidle := (merged_of_settleBatch hmerge).idle_of_error hfinal
  have hview : w₁.view n.cache e.timeline.stream = w.view n.cache e.timeline.stream :=
    hidle.view ..
  have hloaded : w₁.loaded n.cache routes e.timeline.stream = .ok e := by
    simp only [World.loaded, hview]
    exact hfresh
  refine ⟨hloaded, fun i => ⟨?_, ?_, ?_, ?_, ?_⟩⟩
  · have hagain := view_viewed w₁ n.cache e.timeline.stream
    simp only [World.loaded] at hloaded ⊢
    rwa [← hagain] at hloaded
  · rw [log_logged, log_viewed]
    exact hidle.streams
  · have hunfrozen := (settleBatch_of_unfrozen (w := w.restaged ..) hfree hmerge).1
    exact hunfrozen.congr (by rw [log_logged, log_viewed])
  · exact (queue_eq_of_areas ((areas_viewed ..).trans hidle.areas) ..).trans (queue_restaged ..)
  · have htime := (simultaneous_of_settleBatch hmerge).trans (.viewed w₁ n.cache e.timeline.stream)
    exact ⟨htime.wall, htime.elapsed, htime.agendas⟩

theorem Idle.orderly {area : Nat} (h : w.Idle w') (horderly : (w.shelf area).orderly) :
    (w'.shelf area).orderly :=
  fun c key t ht => horderly c key t (by rwa [h.cache] at ht)

namespace Afresh

variable {events : List Event}

theorem frame (hafresh : Afresh n routes e w w₁) {r : Except ResolveError Resolution}
    (hmerge : Resolves (settleBatch (n.store (site opened)) (surroundings cell) routes.lift events
      commitId headers .resolveWeakly n.settings.freezeThreshold) e w₁ r d w') :
    w'.elapsed = w.elapsed ∧ w'.queue n.area (e.timeline.key .domain) =
      leftBy n (w.queue n.area (e.timeline.key .domain)) :=
  ⟨(hafresh.time.trans (simultaneous_of_settleBatch hmerge)).elapsed,
    (queue_eq_of_areas (merged_of_settleBatch hmerge).areas ..).trans hafresh.queue⟩

theorem booked (hafresh : Afresh n routes e w w₁) {resolution : Resolution}
    (hsound : e.timeline.Sound) (horderly : (w₁.shelf n.area).orderly)
    (hmerge : Resolves (settleBatch (n.store (site opened)) (surroundings cell) routes.lift events
      commitId headers .resolveWeakly n.settings.freezeThreshold) e w₁ (.ok resolution) d w') :
    e.Booked routes events (w.shelf n.area).stored (w'.shelf n.area).stored := by
  rw [← stored_congr hafresh.streams]
  cases settlement_of_settleBatch (fallible_store n opened n.area) (fallible_weak n opened).supply
    horderly hsound hmerge with
  | booked _ _ hbooked => exact hbooked

end Afresh

/-- A current batch that is rejected does no harm to the staged ones: the call fails as the merge of
all of them did, and those that were pulled are merged alone or given back. -/
theorem spared_of_rejected (horderly : (w.shelf n.area).orderly) (hfree : w.Unfrozen)
    (hfresh : w.loaded n.cache routes e.timeline.stream = .ok e)
    (hstaged : w.queue n.area (e.timeline.key .domain) ≠ [])
    (hmax : n.settings.weakPullMax ≠ some 0) (hcurrent : current ≠ [])
    (hmerge : Resolves (settleBatch (n.store (site opened)) (surroundings cell) routes.lift
      (stagedEvents (pulledBy n (w.queue n.area (e.timeline.key .domain))) ++ current) commitId
      headers .resolveWeakly n.settings.freezeThreshold) e
      (w.restaged n.area (e.timeline.key .domain)
        (leftBy n (w.queue n.area (e.timeline.key .domain)))) (.error err) d w₁)
    (hfinal : err.isTransient = false) :
    ∃ e' w', Resolves ((n.weak (site opened)).resolveStaged routes.lift current commitId headers)
      e w (.error err) e' w' ∧ Spared n opened routes e w w' := by
  obtain ⟨⟨result, e'⟩, w', hrun⟩ := Runs.total
    (((n.weak (site opened)).resolveStaged routes.lift current commitId headers).run.run e) w
  have hstream : d.timeline.stream = e.timeline.stream := (merged_of_settleBatch hmerge).stream_eq
  obtain ⟨hloaded, hafresh⟩ := afresh_of_rejected hfree hfresh hmerge hfinal
  have hload : Runs (loadEntity (n.weak (site opened)).store routes.lift d.timeline.stream).run w₁
      (.ok e) (w₁.viewed n.cache e.timeline.stream) := by
    rw [hstream]
    exact runs_loadEntity.2 ⟨by rw [loaded_lift, hloaded], rfl⟩
  -- The rejected merge stored nothing, so the pulled batches meet the entity as it was loaded
  -- before.
  obtain ⟨rfl, hretried⟩ := WeakResolver.retried_of_resolveStaged (granting_weak n opened)
    (pulledBy_ne_nil hmax hstaged) hcurrent (runs_size.2 ⟨rfl, rfl⟩) (runs_pullMax.2 ⟨rfl, rfl⟩)
    hmerge hfinal hload hrun
  refine ⟨e', w', hrun, ?_⟩
  cases hretried with
  | merged hid hagain hrest =>
    obtain ⟨i, rfl⟩ := runs_freshId hid
    have hsound := ((fallible_store n opened n.area).fetched e.timeline.stream w e.timeline _
      horderly (runs_fetch.2 ⟨(view_of_loaded hfresh).symm, rfl⟩)).1
    have hviewed := (fallible_store n opened n.area).fetch e.timeline.stream w₁ _ _
      (runs_fetch.2 ⟨rfl, rfl⟩)
    have hidle := (merged_of_settleBatch hmerge).idle_of_error hfinal
    have hbooked := (hafresh i).booked hsound (hviewed.orderly (hidle.orderly horderly)) hagain
    obtain ⟨helapsed, hqueue⟩ := (hafresh i).frame hagain
    rcases hrest with ⟨hall, rfl⟩ | ⟨hmore, hschedule⟩
    · refine .merged (hafresh i) hagain rfl hbooked hqueue fun hleft => ?_
      exact absurd ((leftBy_eq_nil_iff ..).2 (Nat.not_lt.2 hall)) hleft
    · rw [(merged_of_settleBatch hagain).stream_eq] at hschedule
      obtain rfl := runs_schedule hschedule
      exact .merged (hafresh i) hagain rfl hbooked hqueue fun _ =>
        exists_due_scheduled helapsed n.agenda e.timeline.stream .zero
  | returned hid hagain hrequeue hschedule =>
    obtain ⟨i, rfl⟩ := runs_freshId hid
    obtain ⟨helapsed, hqueue⟩ := (hafresh i).frame hagain
    have hstreams := (merged_of_settleBatch hagain).streams_of_error.trans (hafresh i).streams
    obtain ⟨-, rfl⟩ := runs_requeue.1 hrequeue
    rw [hstream, hqueue, pulledBy_append_leftBy] at hschedule
    obtain rfl := runs_schedule hschedule
    exact .returned (hafresh i) hagain hstreams (queue_restaged ..)
      (exists_due_scheduled helapsed n.agenda e.timeline.stream n.ageThreshold)

end World

namespace Cluster

def poisonStep : List Event :=
  ((Timeline.empty tallyStream).add ⟨.numbered 200, .epoch⟩ Samples.Step.type.kind
    (.ofFields [("n", .int 4294967295)]) ∅).pending

/-- The late steps are staged when a step is rejected. They are merged without it. -/
theorem spared_lateSteps :
    let w := ((start .epoch).run .epoch (lateSteps.take 7) : Cluster tallies).world
    let key := tallyStream.key .domain
    ∃ e e' w', w.loaded 1 tallyRoutes tallyStream = .ok e ∧
      Resolves (((teller 1).node.weak (World.site .epoch)).resolveStaged tallyRoutes.lift poisonStep
        (.numbered 102) ∅) e w (.error (.abandoned "poison step")) e' w' ∧
      World.Spared (teller 1).node .epoch tallyRoutes e w w' ∧
      (w.queue sharedArea key).length = 1 ∧ w'.queue sharedArea key = [] ∧
      (w.log.events key).length = 1 ∧ (w'.log.events key).length = 2 := by
  intro w key
  obtain ⟨rs, hleads⟩ := leads_run .epoch (steady_start (C := tallies) .epoch) (lateSteps.take 7)
  have hconsistent : w.Consistent := hleads.steady.consistent
  have hfree : w.Unfrozen := by
    have hmetadata : w.log.metadata = ∅ := by decide +kernel
    intro other
    rw [EventLog.freeze?, EventLog.metadataOf, hmetadata]
    simp [StreamMetadata.empty]
  have hbefore : (w.queue sharedArea key).length = 1 ∧ (w.log.events key).length = 1 := by
    decide +kernel
  let node := (teller 1).node
  have hfacts : (w.loaded 1 tallyRoutes tallyStream).toOption.map (fun e =>
      let events := stagedEvents (World.pulledBy node (w.queue sharedArea key)) ++ poisonStep
      let merge := settleBatch (node.store (World.site .epoch)) (World.surroundings World.cell)
        tallyRoutes.lift events (.numbered 102) ∅ .resolveWeakly 50
      let after := ((node.weak (World.site .epoch)).resolveStaged tallyRoutes.lift poisonStep
        (.numbered 102) ∅).run.run e |>.run w
      (e.timeline.stream, (merge.run.run e |>.run (w.restaged sharedArea key
          (World.leftBy node (w.queue sharedArea key)))).1.1,
        after.2.queue sharedArea key, (after.2.log.events key).length)) =
      some (tallyStream, .error (.abandoned "poison step"), [], 2) := by
    decide +kernel
  obtain ⟨e, hfound, hfacts⟩ := Option.map_eq_some_iff.1 hfacts
  have he := except_toOption_eq_some.1 hfound
  simp only [Prod.mk.injEq] at hfacts
  obtain ⟨hstream, hmerge, hqueue, hlog⟩ := hfacts
  have hkey : e.timeline.key .domain = key := by rw [Timeline.key, hstream]
  have hstaged : w.queue sharedArea key ≠ [] := fun hnil => by simp [hnil] at hbefore
  obtain ⟨⟨_, d⟩, w₁, hmerged⟩ := Runs.total (StateT.run (ExceptT.run (settleBatch
    (node.store (World.site .epoch)) (World.surroundings World.cell) tallyRoutes.lift
    (stagedEvents (World.pulledBy node (w.queue sharedArea key)) ++ poisonStep) (.numbered 102) ∅
    .resolveWeakly 50)) e)
    (w.restaged sharedArea key (World.leftBy node (w.queue sharedArea key)))
  rw [hmerged.run_eq] at hmerge
  obtain rfl := hmerge
  have hspares : ∃ e' w', Resolves ((node.weak (World.site .epoch)).resolveStaged tallyRoutes.lift
      poisonStep (.numbered 102) ∅) e w (.error (.abandoned "poison step")) e' w' ∧
      World.Spared node .epoch tallyRoutes e w w' :=
    World.spared_of_rejected (hconsistent.orderly sharedArea) hfree (by rw [hstream]; exact he)
      (by rw [hkey]; exact hstaged) (by decide) (by decide) (by rw [hkey]; exact hmerged) rfl
  obtain ⟨e', w', hresolve, hspared⟩ := hspares
  rw [hresolve.run_eq] at hqueue hlog
  exact ⟨e, e', w', he, hresolve, hspared, hbefore.1, hqueue, hbefore.2, hlog⟩

end Cluster

end Chronicle
