import Chronicle.Proofs.Draining

/-!
# Merging later instead of at once

A batch that meets a newer history is merged at once by one strategy, and staged by another until
a worker merges it. If nothing is staged for the stream and nobody holds it, both merge the same
batch into the same entity, so that they store the same, but for the name of the strategy, or both
fail. A stream that cannot be loaded makes a difference: then both commits fail, and the batch is
not staged.
-/

namespace Chronicle

variable {S : Type}

/-- Headers without the name of a strategy that merged the event. -/
def Headers.unnamed (h : Headers) : Headers := h.modify Headers.conflictResolution fun _ => ""

theorem Entity.unnamed_mergedHeaders (event : Event) (strategy strategy' : String) :
    (mergedHeaders event strategy).unnamed = (mergedHeaders event strategy').unnamed := by
  refine Std.ExtTreeMap.ext_getElem? fun k => ?_
  simp only [Headers.unnamed, mergedHeaders, Std.ExtTreeMap.getElem?_modify,
    Std.ExtTreeMap.getElem?_insert_self, Option.map_some]
  split
  · rfl
  · rename_i hk
    rw [Std.ExtTreeMap.getElem?_insert, if_neg hk, Std.ExtTreeMap.getElem?_insert, if_neg hk]

namespace Event

/-- The kind, the payload and the headers of an event without the name of a strategy. -/
def unnamed (e : Event) : String × Json × Headers := (e.kind, e.payload, e.headers.unnamed)

def recorded (e : Event) : Option Json × Option Json :=
  (e.payload.get? "version", e.payload.get? "memento")

/-- What was recorded again behind the same events differs in the name of the strategy only. -/
theorem map_unnamed_of_restated {strategy strategy' : String} {xs ys stored kept : List Event}
    (hx : xs.map body = stored.map body ++ kept.map (restated strategy))
    (hy : ys.map body = stored.map body ++ kept.map (restated strategy')) :
    xs.map unnamed = ys.map unnamed := by
  have hunname : ∀ events : List Event, events.map unnamed =
      (events.map body).map fun b => (b.1, b.2.1, b.2.2.unnamed) := by
    intro events
    rw [List.map_map]
    rfl
  rw [hunname, hunname, hx, hy, List.map_append, List.map_append]
  simp only [List.map_map, List.append_cancel_left_eq]
  refine List.map_congr_left fun event _ => ?_
  simp only [Function.comp_apply, restated, Entity.unnamed_mergedHeaders event strategy strategy']

theorem map_recorded_of_record {xs ys stored : List Event} {taken taken' : Option Snapshot}
    (hx : xs.map body = stored.map body ++ taken.toList.map Snapshot.record)
    (hy : ys.map body = stored.map body ++ taken'.toList.map Snapshot.record)
    (h : taken.map Snapshot.content = taken'.map Snapshot.content) :
    xs.map recorded = ys.map recorded := by
  have hrecorded : ∀ events : List Event, events.map recorded =
      (events.map body).map fun b => (b.2.1.get? "version", b.2.1.get? "memento") := by
    intro events
    rw [List.map_map]
    rfl
  have hrecord : ∀ s : Snapshot, (s.toJson.get? "version", s.toJson.get? "memento") =
      (some (Json.int s.version), some s.memento) := by
    intro s
    rw [Snapshot.toJson_eq]
    rfl
  rw [hrecorded, hrecorded, hx, hy, List.map_append, List.map_append]
  congr 1
  cases taken with
  | none =>
    rw [Option.map_none, eq_comm, Option.map_eq_none_iff] at h
    rw [h]
  | some s =>
    obtain ⟨s', rfl, hcontent⟩ := Option.map_eq_some_iff.1 h.symm
    obtain ⟨hversion, hmemento⟩ := Prod.mk.inj hcontent
    simp [Snapshot.record, hrecord, hversion, hmemento]

end Event

/-- Where events of consecutive versions agree in something, they agree in their versions, too. -/
theorem Numbered.map_version {α : Type} {f : Event → α} {start : Int} {xs ys : List Event}
    (hx : Numbered start xs) (hy : Numbered start ys) (h : xs.map f = ys.map f) :
    xs.map (fun e => (e.version, f e)) = ys.map fun e => (e.version, f e) := by
  induction xs generalizing start ys with
  | nil =>
    rw [List.map_nil, eq_comm, List.map_eq_nil_iff] at h
    rw [h]
  | cons x xs ih =>
    cases ys with
    | nil => simp at h
    | cons y ys =>
      simp only [List.map_cons, List.cons.injEq] at h ⊢
      exact ⟨Prod.ext (hx.1.trans hy.1.symm) h.1, ih hx.2 hy.2 h.2⟩

namespace World

/-- Two worlds in which the same is stored for a stream, but for identifiers, times, the headers of
commits and the names of strategies. -/
structure Alike (stream : StreamRef) (w w' : World) : Prop where
  domain : (w'.log.events (stream.key .domain)).map (fun e => (e.version, e.unnamed)) =
    (w.log.events (stream.key .domain)).map fun e => (e.version, e.unnamed)
  channels : ∀ channel,
    (w'.log.events (stream.channelKey channel)).map (fun e => (e.version, e.body)) =
      (w.log.events (stream.channelKey channel)).map fun e => (e.version, e.body)
  snapshots : (w'.log.events (stream.key .snapshot)).map Event.recorded =
    (w.log.events (stream.key .snapshot)).map Event.recorded

/-- What is stored and what is staged for a stream is the same. -/
structure Retains (stream : StreamRef) (w w' : World) : Prop where
  events : ∀ key, stream.Owns key → w'.log.events key = w.log.events key
  queue : ∀ a, w'.queue a (stream.key .domain) = w.queue a (stream.key .domain)

variable {n n' : Node} {opened : Moment} {stream : StreamRef} {routes : Routes Id S}
  {strategy strategy' : String} {events : List Event} {e d d' : Entity S}
  {w w' w'' w₁ w₂ : World} {r r' : Except ResolveError Resolution}

namespace Retains

theorem trans (h : w.Retains stream w') (h' : w'.Retains stream w'') : w.Retains stream w'' where
  events key howns := (h'.events key howns).trans (h.events key howns)
  queue a := (h'.queue a).trans (h.queue a)

theorem of_spares (h : w.Spares stream w') : w.Retains stream w' := ⟨h.events, h.queue⟩

end Retains

theorem Alike.of_events
    (h : ∀ key, stream.Owns key → w'.log.events key = w.log.events key) : Alike stream w w' where
  domain := by rw [h _ (.inl rfl)]
  channels channel := by rw [h _ (.inr (.inr ⟨channel, rfl⟩))]
  snapshots := by rw [h _ (.inr (.inl rfl))]

theorem Alike.trans (h : Alike stream w w') (h' : Alike stream w' w'') : Alike stream w w'' where
  domain := h'.domain.trans h.domain
  channels channel := (h'.channels channel).trans (h.channels channel)
  snapshots := h'.snapshots.trans h.snapshots

/-- A merge fails for its batch and stores nothing, or stores what it leaves pending. -/
theorem Enacted.failed_or_extended (h : Enacted n routes strategy events e w r d w') :
    ((∃ err, r = .error err) ∧ w.Idle w' ∧
        ∀ drawn m kept dropped, ¬ e.Merges routes drawn events m kept dropped) ∨
      (∃ resolution, r = .ok resolution) ∧ ∃ drawn m kept dropped,
        e.Merges routes drawn events m kept dropped ∧ e.Restates strategy m events kept ∧
          w.log.Extended w'.log m.timeline := by
  cases h with
  | failed hnever hidle => exact .inl ⟨⟨_, rfl⟩, hidle, hnever⟩
  | discarded hmerges hrestates hclean hidle =>
    exact .inr ⟨⟨_, rfl⟩, _, _, _, _, hmerges, hrestates,
      .of_clean hclean (EventLog.events_congr hidle.streams)⟩
  | committed hmerges hrestates hextended =>
    exact .inr ⟨⟨_, rfl⟩, _, _, _, _, hmerges, hrestates, hextended⟩

private theorem alike_of_extended {drawn drawn' : Moment → Prop} {m m' : Entity S}
    {kept kept' dropped dropped' : List Event} (hcurrent : w.UpToDate n.cache stream e.timeline)
    (hsame : ∀ key, stream.Owns key → w'.log.events key = w.log.events key)
    (hn : w₁.log.Numbered) (hn' : w₂.log.Numbered)
    (hmerges : e.Merges routes drawn events m kept dropped)
    (hmerges' : e.Merges routes drawn' events m' kept' dropped')
    (hrestates : e.Restates strategy m events kept)
    (hrestates' : e.Restates strategy' m' events kept')
    (hextended : w.log.Extended w₁.log m.timeline)
    (hextended' : w'.log.Extended w₂.log m'.timeline) : Alike stream w₁ w₂ := by
  obtain ⟨rfl, -, hsnapshot⟩ := hmerges.agree hcurrent.sound hmerges'
  have hstream : m.timeline.stream = stream := hmerges.continues.stream.trans hcurrent.ref
  have hstream' : m'.timeline.stream = stream := hmerges'.continues.stream.trans hcurrent.ref
  have hkey : ∀ lane, m.timeline.key lane = stream.key lane := fun lane => hstream ▸ rfl
  have hkey' : ∀ lane, m'.timeline.key lane = stream.key lane := fun lane => hstream' ▸ rfl
  obtain ⟨hpending, hoobs, -⟩ := Timeline.dirty_eq_false.1 hcurrent.clean
  constructor
  · have hstored := hextended.map_body_domain
    have hstored' := hextended'.map_body_domain
    rw [hkey, hrestates.pending, hpending, List.map_nil, List.nil_append] at hstored
    rw [hkey', hrestates'.pending, hpending, List.map_nil, List.nil_append,
      hsame _ (.inl rfl)] at hstored'
    exact (hn' _).map_version (hn _) (Event.map_unnamed_of_restated hstored' hstored)
  · intro channel
    have hraised := map_body_onChannel channel hrestates.oobs
    have hraised' := map_body_onChannel channel hrestates'.oobs
    have hstored := hextended.channels channel
    have hstored' := hextended'.channels channel
    rw [hstream, hraised] at hstored
    rw [hstream', hraised', hsame _ (.inr (.inr ⟨channel, rfl⟩))] at hstored'
    exact (hn' _).map_version (hn _) (hstored'.trans hstored.symm)
  · have hstored := hextended.snapshots
    have hstored' := hextended'.snapshots
    rw [hkey] at hstored
    rw [hkey', hsame _ (.inr (.inl rfl))] at hstored'
    exact Event.map_recorded_of_record hstored' hstored hsnapshot.symm

/-- Two strategies that merge one batch into one entity, from worlds in which the same is stored for
its stream, both fail or store the same. -/
theorem Enacted.alike (hcurrent : w.UpToDate n.cache stream e.timeline)
    (hsame : ∀ key, stream.Owns key → w'.log.events key = w.log.events key)
    (hn : w₁.log.Numbered) (hn' : w₂.log.Numbered)
    (h : Enacted n routes strategy events e w r d w₁)
    (h' : Enacted n' routes strategy' events e w' r' d' w₂) :
    ((∃ err, r = .error err) ↔ ∃ err, r' = .error err) ∧ Alike stream w₁ w₂ := by
  rcases h.failed_or_extended with ⟨herror, hidle, hnever⟩ |
      ⟨⟨resolution, rfl⟩, drawn, m, kept, dropped, hmerges, hrestates, hextended⟩ <;>
    rcases h'.failed_or_extended with ⟨herror', hidle', hnever'⟩ |
      ⟨⟨resolution', rfl⟩, drawn', m', kept', dropped', hmerges', hrestates', hextended'⟩
  · have hevents : ∀ key, stream.Owns key → w₂.log.events key = w₁.log.events key := by
      intro key howns
      rw [EventLog.events_congr hidle'.streams, hsame key howns,
        EventLog.events_congr hidle.streams]
    exact ⟨iff_of_true herror herror', .of_events hevents⟩
  · exact absurd hmerges' (hnever _ _ _ _)
  · exact absurd hmerges (hnever' _ _ _ _)
  · exact ⟨iff_of_false (by simp) (by simp), alike_of_extended hcurrent hsame hn hn' hmerges
      hmerges' hrestates hrestates' hextended hextended'⟩

variable {commitId : Uuid} {headers : Headers} {batch : List Event} {key : String}

/-- A commit that meets a newer history of a stream that nobody holds is left to the resolver. -/
theorem conflict_of_commit {e₁ d : Entity S} {r : Except CommitError CommitOutcome}
    (hstaged : e.staged routes w.wall = .ok e₁) (hpending : e.timeline.pending ≠ [])
    (hversion : w.log.version (e.timeline.key .domain) ≠ e.timeline.version)
    (hfree : w.log.freeze? (e.timeline.key .domain) = none)
    (h : Runs ((n.repository (site opened)).commit routes.lift e commitId headers) w (r, d) w') :
    Runs ((n.repository (site opened)).resolveConflict routes.lift e₁ commitId headers)
      (w.forget n.cache (e.timeline.key .domain)) (r, d) w' := by
  have hcontinues := (continues_staged hstaged).1
  have hkey : e₁.timeline.key .domain = e.timeline.key .domain := by
    rw [Timeline.key, Timeline.key, hcontinues.stream]
  have hpending₁ : e₁.timeline.pending ≠ [] := by
    rcases Entity.staged_eq_ok hstaged with ⟨-, rfl⟩ | ⟨-, _, _, -, -, rfl⟩ <;> exact hpending
  have hsame : ∀ {e' : Entity S},
      e.staged (routes.lift : Routes (StateM World) S) w.wall = .ok e' → e' = e₁ := by
    intro e' he'
    rw [Entity.staged_lift, hstaged] at he'
    exact (Except.ok.inj he').symm
  cases committed_of_runs h with
  | clean hdirty => exact absurd (Timeline.dirty_eq_false.1 hdirty).1 hpending
  | unrecorded hdirty hrefused =>
    rw [Entity.staged_lift, hstaged] at hrefused
    cases hrefused
  | written hdirty he' hwrote =>
    obtain rfl := hsame he'
    cases hwrote with
    | stored hmatches =>
      rw [hkey, hcontinues.version] at hmatches
      exact absurd (hmatches hpending₁) hversion
  | held hdirty he' hheld =>
    obtain rfl := hsame he'
    rw [hkey, holder_eq_none (by simp [hfree])] at hheld
    cases hheld
  | conflict hdirty he' _ _ hresolve =>
    obtain rfl := hsame he'
    rwa [hkey] at hresolve

theorem upToDate_of_forgotten (hc : w.Consistent)
    (hload : (w.forget n.cache (stream.key .domain)).loaded n.cache routes stream = .ok e) :
    ((w.forget n.cache (stream.key .domain)).viewed n.cache stream).UpToDate n.cache stream
      e.timeline ∧ Entity.ofTimeline routes e.timeline = .ok e := by
  have hc' := hc.forget n.cache (stream.key .domain)
  obtain ⟨hview, -⟩ := hc'.loaded hload
  have hcurrent := hc'.upToDate (fun t ht => by
    rw [getElem?_cache_forget, if_pos ⟨rfl, rfl⟩] at ht
    cases ht) hview
  refine ⟨hcurrent.viewed, ?_⟩
  simpa only [loaded, hview, except_mapError_eq_ok] using hload

/-- A conflict in a stream that cannot be loaded is not resolved. -/
theorem unresolved_of_resolveConflict {e₁ d : Entity S} {err : LoadError}
    {r : Except CommitError CommitOutcome} (hstream : e₁.timeline.stream = stream)
    (hload : (w.forget n.cache (stream.key .domain)).loaded n.cache routes stream = .error err)
    (h : Runs ((n.repository (site opened)).resolveConflict routes.lift e₁ commitId headers)
      (w.forget n.cache (stream.key .domain)) (r, d) w') :
    r = .error (.ofLoad err) ∧
      w' = (w.forget n.cache (stream.key .domain)).viewed n.cache stream := by
  subst hstream
  rcases runs_resolveConflict h with ⟨err', hfailed, rfl, -, rfl⟩ | ⟨found, _, _, hfound, -⟩
  · rw [loaded_lift, hload, Except.error.injEq] at hfailed
    rw [hfailed]
    exact ⟨rfl, rfl⟩
  · rw [loaded_lift, hload] at hfound
    cases hfound

/-- A conflict that is resolved at once is resolved by a merge into what the node loads. -/
theorem enacted_of_resolveConflict {e₁ d₁ : Entity S} {r : Except CommitError CommitOutcome}
    (hstrategy : n.settings.strategy = .resolveStrongly) (hc : w.Consistent)
    (hstream : e₁.timeline.stream = stream) (hfree : w.log.freeze? (stream.key .domain) = none)
    (hload : (w.forget n.cache (stream.key .domain)).loaded n.cache routes stream = .ok e)
    (h : Runs ((n.repository (site opened)).resolveConflict routes.lift e₁ commitId headers)
      (w.forget n.cache (stream.key .domain)) (r, d₁) w') :
    ∃ r' d, Enacted n routes ConflictStrategy.resolveStrongly.name e₁.timeline.batch e
        ((w.forget n.cache (stream.key .domain)).viewed n.cache stream) r' d w' ∧
      ((∃ err, r = .error err) ↔ ∃ err, r' = .error err) := by
  obtain ⟨hcurrent, -⟩ := upToDate_of_forgotten hc hload
  have hkey : e.timeline.key .domain = stream.key .domain := hcurrent.key_eq .domain
  subst hstream
  rcases runs_resolveConflict h with ⟨err, hfailed, -⟩ | ⟨found, result, d, hfound, hresolve, hend⟩
  · rw [loaded_lift, hload] at hfailed
    cases hfailed
  rw [loaded_lift, hload, Except.ok.injEq] at hfound
  subst hfound
  rw [hstrategy] at hresolve
  obtain ⟨henacted, -⟩ := enacted_of_settleBatch (n := n) (by rw [hkey, log_viewed]; exact hfree)
    (by rw [hkey]; exact hcurrent.version.symm) hcurrent.sound hresolve
  refine ⟨result, d, henacted, ?_⟩
  rcases hend with ⟨resolution, rfl, rfl, -⟩ | ⟨err, rfl, rfl, -⟩
  · exact iff_of_false (by simp) (by simp)
  · exact iff_of_true ⟨_, rfl⟩ ⟨_, rfl⟩

/-- A batch is staged if nothing is staged for its stream. -/
theorem deferred_of_resolve (hqueue : w.queue n.area (e.timeline.key .domain) = [])
    (h : Resolves ((n.weak (site opened)).resolve routes.lift batch commitId headers) e w r d w') :
    r = .ok .deferred ∧ ∃ i staged delay, staged.message.events = batch ∧
      delay ≤ n.ageThreshold ∧
      w' = ((w.logged i w.log).restaged n.area (e.timeline.key .domain) [staged]).scheduled
        n.agenda e.timeline.stream delay := by
  obtain ⟨age, w₁, hage, hcourse⟩ := WeakResolver.course_of_resolve (granting_weak n opened) h
  obtain ⟨⟨_, hwaited, hnone⟩, rfl⟩ := runs_age hage
  cases hwaited
  rcases hcourse with ⟨hsome, -⟩ | ⟨delay, w₂, hadd, hschedule, hdelay, hr, -⟩
  · obtain ⟨waited, hwaited, -⟩ := hsome
    rw [hnone hqueue] at hwaited
    cases hwaited
  · obtain ⟨-, i, id, received, rfl⟩ := runs_add hadd
    rw [hqueue, List.nil_append] at hschedule
    exact ⟨hr, i, _, delay, rfl, hdelay, runs_schedule hschedule⟩

theorem retains_of_unloaded {err : LoadError} (hload : w.loaded n.cache routes stream = .error err)
    (h : Runs ((n.weak (site opened)).handleStaged routes.lift stream) w r w') :
    w.Retains stream w' := by
  have hviewed : w.Retains stream (w.viewed n.cache stream) :=
    ⟨fun key _ => by rw [log_viewed], fun a => queue_eq_of_areas (areas_viewed ..) a _⟩
  rcases runs_handleStaged h with ⟨err', -, -, hend⟩ | ⟨e, i, commitId, d, hfound, -⟩
  · rcases hend with ⟨-, rfl⟩ | hschedule
    · exact hviewed
    · obtain rfl := runs_schedule hschedule
      exact hviewed.trans ⟨fun _ _ => rfl, fun _ => rfl⟩
  · cases hload.symm.trans hfound

end World

namespace Participant

variable {C : Catalog} {p : Participant C} {opened : Moment} {kind : C.Kind} {stream : StreamRef}
  {others : String → Prop} {w w' : World} {e : Entity (C.State kind)} {b : Staged ConflictBatch}

def resolving (p : Participant C) (strategy : ConflictStrategy) : Participant C :=
  { p with settings := p.settings.withStrategy strategy }

theorem pulledBy_singleton (hmax : p.settings.weakPullMax ≠ some 0) :
    World.pulledBy p.node [b] = [b] ∧ World.leftBy p.node [b] = [] := by
  have hsome : 1 ≤ p.settings.weakPullMax.getD 1 := by
    cases hm : p.settings.weakPullMax with
    | none => exact Nat.le_refl 1
    | some k => exact Nat.one_le_iff_ne_zero.2 fun hk => hmax (hm.trans (congrArg some hk))
  exact ⟨List.take_of_length_le hsome, List.drop_of_length_le hsome⟩

/-- A batch that was staged is a backlog of its stream, which is due after the delay. -/
theorem backlog_of_staged {v : World} {i : Nat} {delay span : Span}
    (hc : (((v.logged i v.log).restaged sharedArea (stream.key .domain) [b]).scheduled p.agenda
      stream delay).Consistent)
    (hcurrent : v.UpToDate p.cache stream e.timeline)
    (hloads : Entity.ofTimeline (C.routes kind) e.timeline = .ok e)
    (htidy : (v.agenda p.agenda).Tidy stream others)
    (hfree : v.log.freeze? (stream.key .domain) = none) (hspan : delay ≤ span) (time : Moment) :
    let staged := ((v.logged i v.log).restaged sharedArea (stream.key .domain) [b]).scheduled
      p.agenda stream delay
    let waited := { staged.advance span with wall := time }
    p.Backlog kind stream others waited e [b] ∧ stream ∈ waited.due p.agenda := by
  intro staged waited
  obtain ⟨due, hdue, htime⟩ :=
    (v.agenda p.agenda).exists_dueTime_schedule_self stream (v.elapsed + delay)
  have hagenda : waited.agenda p.agenda =
      (v.agenda p.agenda).schedule stream (v.elapsed + delay) := by
    refine (World.agenda_scheduled ..).trans (if_pos rfl)
  have htidy' : (waited.agenda p.agenda).Tidy stream others :=
    hagenda ▸ htidy.schedule (absurd rfl) _
  refine ⟨⟨hc.idle ⟨rfl, rfl, rfl⟩, htidy', hfree, ?_, hloads, World.queue_restaged ..⟩, ?_⟩
  · exact ⟨hcurrent.view, hcurrent.ref, hcurrent.sound, hcurrent.clean, hcurrent.version⟩
  · rw [← hagenda] at htime
    exact (Agenda.mem_takeDue_iff htidy'.nodup).2
      ⟨due, Nat.le_trans hdue (Nat.add_le_add_left hspan v.elapsed.nanos), htime⟩

/-- A conflict that is resolved later leaves its batch to the worker, for which the stream is due
once the batch has waited long enough. -/
theorem backlog_of_resolveConflict {fresh e₁ d : Entity (C.State kind)} {commitId : Uuid}
    {headers : Headers} {r : Except CommitError CommitOutcome}
    (hstrategy : p.settings.strategy = .resolveWeakly) (hc : w.Consistent) (hc' : w'.Consistent)
    (htidy : (w.agenda p.agenda).Tidy stream others) (hstream : e₁.timeline.stream = stream)
    (hqueue : w.queue sharedArea (stream.key .domain) = [])
    (hfree : w.log.freeze? (stream.key .domain) = none)
    (hload : (w.forget p.cache (stream.key .domain)).loaded p.cache (C.routes kind) stream =
      .ok fresh)
    (h : Runs ((p.repository opened).resolveConflict (C.routes kind).lift e₁ commitId headers)
      (w.forget p.cache (stream.key .domain)) (r, d) w') :
    r = .ok (.resolved .deferred) ∧ ∃ b, b.message.events = e₁.timeline.batch ∧
      w'.queue sharedArea (stream.key .domain) = [b] ∧
      (∀ key, w'.log.events key = w.log.events key) ∧
      ∀ span time, p.node.ageThreshold ≤ span →
        p.Backlog kind stream others { w'.advance span with wall := time } fresh [b] ∧
          stream ∈ World.due { w'.advance span with wall := time } p.agenda := by
  obtain ⟨hcurrent, hloads⟩ := World.upToDate_of_forgotten (n := p.node) hc hload
  have hkey : fresh.timeline.key .domain = stream.key .domain := hcurrent.key_eq .domain
  subst hstream
  rcases World.runs_resolveConflict h with
    ⟨err, hfailed, -⟩ | ⟨found, result, d', hfound, hresolve, hend⟩
  · rw [World.loaded_lift] at hfailed
    cases hfailed.symm.trans hload
  rw [World.loaded_lift] at hfound
  cases hfound.symm.trans hload
  have hnothing : ((w.forget p.cache (e₁.timeline.stream.key .domain)).viewed p.cache
      e₁.timeline.stream).queue sharedArea (fresh.timeline.key .domain) = [] := by
    rw [hkey, World.queue_eq_of_areas (World.areas_viewed ..)]
    exact hqueue
  change Resolves ((p.node.resolver _ p.settings.strategy).resolve _ _ _ _) _ _ _ _ _ at hresolve
  rw [hstrategy] at hresolve
  obtain ⟨rfl, i, b, delay, hbatch, hdelay, rfl⟩ :=
    World.deferred_of_resolve (n := p.node) hnothing hresolve
  rcases hend with ⟨resolution, hok, rfl, -⟩ | ⟨err, herror, -⟩
  swap
  · cases herror
  cases hok
  rw [hkey, hcurrent.ref] at hc' ⊢
  refine ⟨rfl, b, hbatch, World.queue_restaged .., fun key => ?_, fun span time hspan => ?_⟩
  · exact congrArg (fun log : EventLog => log.events key) (World.log_viewed ..)
  · refine backlog_of_staged hc' hcurrent hloads ?_ ?_ (Nat.le_trans hdelay hspan) time
    · rw [World.agenda, (World.Simultaneous.viewed ..).agendas]
      exact htidy
    · rw [World.log_viewed]
      exact hfree

/-- A worker merges the batch that is staged for a stream that is due into what the node loads, or
the batch stays staged. -/
theorem Backlog.enacted (h : p.Backlog kind stream others w e [b])
    (hknown : p.kind? stream.entity = some kind)
    (hapart : ∀ other, others (StreamRef.key other .domain) → other.Apart stream)
    (hmax : p.settings.weakPullMax ≠ some 0) (hb : b.message.events ≠ [])
    (hdue : stream ∈ w.due p.agenda) {count : Nat}
    (hrun : Runs (p.worker opened).runDue w count w') :
    ∃ r d w₁ w₂, (∀ key, stream.Owns key → w₁.log.events key = w.log.events key) ∧
      World.Enacted p.node (C.routes kind) ConflictStrategy.resolveWeakly.name b.message.events e
        w₁ r d w₂ ∧
      w₂.log.Numbered ∧ (∀ key, stream.Owns key → w'.log.events key = w₂.log.events key) ∧
      ((∃ err, r = .error err) ↔ w'.queue sharedArea (stream.key .domain) = [b]) := by
  obtain ⟨r, w₁, w₂, hbefore, hc₁, hhandle, hafter⟩ :=
    handled_of_runDue hapart h.tidy hdue h.consistent hrun
  have hc₂ := (books_handle hc₁ hhandle).consistent
  have hbacklog := h.cleared.bypassed hbefore hc₁
  have hqueue : w₁.queue p.node.area (stream.key .domain) = [b] := hbacklog.queue
  obtain ⟨hpulled, hleft⟩ := pulledBy_singleton (b := b) hmax
  have hevents : stagedEvents (World.pulledBy p.node [b]) = b.message.events := by
    rw [hpulled, stagedEvents, List.flatMap_singleton]
  have hopened : ∀ i key, stream.Owns key →
      (w₁.opening p.node stream i).log.events key = w.log.events key := by
    intro i key howns
    rw [World.log_opening, hbefore.events key howns]
    rfl
  cases hbacklog.handled hknown (hevents ▸ hb) hhandle with
  | @merged resolution d w₃ _ i henacted _ _ hrest =>
    rw [hqueue, hleft, if_pos rfl] at hrest
    subst hrest
    have hnone : w'.queue sharedArea (stream.key .domain) = [] := by
      rw [hafter.queue, World.queue_eq_of_areas henacted.areas]
      exact (World.queue_opening ..).trans (hqueue ▸ hleft)
    rw [hqueue, hevents] at henacted
    refine ⟨_, d, _, w₂, hopened i, henacted, hc₂.numbered, hafter.events, ?_⟩
    rw [hnone]
    exact iff_of_false (by simp) (by simp)
  | @returned err d w₃ i henacted =>
    rw [hqueue, hevents] at henacted
    refine ⟨_, d, _, w₃, hopened i, henacted, hc₂.numbered, hafter.events,
      iff_of_true ⟨err, rfl⟩ ?_⟩
    rw [hafter.queue, ← hqueue]
    exact World.queue_restaged ..

/-- A worker leaves a stream as it is that the node cannot load. -/
theorem retains_runDue {err : LoadError} (hc : w.Consistent)
    (htidy : (w.agenda p.agenda).Tidy stream others)
    (hapart : ∀ other, others (StreamRef.key other .domain) → other.Apart stream)
    (hknown : p.kind? stream.entity = some kind)
    (hload : w.loaded p.cache (C.routes kind) stream = .error err) {count : Nat}
    (hrun : Runs (p.worker opened).runDue w count w') : w.Retains stream w' := by
  have hcleared := World.Retains.of_spares (.cleared stream w p.agenda)
  by_cases hdue : stream ∈ w.due p.agenda
  · obtain ⟨r, w₁, w₂, hbefore, -, hhandle, hafter⟩ :=
      handled_of_runDue hapart htidy hdue hc hrun
    rcases runs_handle hhandle with ⟨hunknown, -⟩ | ⟨kind', hknown', hhandled⟩
    · cases hknown.symm.trans hunknown
    cases hknown.symm.trans hknown'
    have hload₁ : w₁.loaded p.node.cache (C.routes kind) stream = .error err := by
      rw [World.loaded, hbefore.view]
      exact hload
    exact ((hcleared.trans (.of_spares hbefore.toSpares)).trans
      (World.retains_of_unloaded hload₁ hhandled)).trans (.of_spares hafter.toSpares)
  · obtain ⟨hbypasses, -⟩ := bypasses_runDue hapart htidy hdue hc hrun
    exact hcleared.trans (.of_spares hbypasses.toSpares)

/-- A stream that could not be loaded for a commit cannot be loaded later, either. -/
theorem retains_of_unloaded {err : LoadError} {span : Span} {time : Moment} (hc : w.Consistent)
    (htidy : (w.agenda p.agenda).Tidy stream others)
    (hapart : ∀ other, others (StreamRef.key other .domain) → other.Apart stream)
    (hknown : p.kind? stream.entity = some kind)
    (hload : (w.forget p.cache (stream.key .domain)).loaded p.cache (C.routes kind) stream =
      .error err) {count : Nat}
    (hrun : Runs (p.worker opened).runDue
      { ((w.forget p.cache (stream.key .domain)).viewed p.cache stream).advance span with
        wall := time } count w') : w.Retains stream w' := by
  obtain ⟨v, hv⟩ : ∃ v, v = (w.forget p.cache (stream.key .domain)).viewed p.cache stream :=
    ⟨_, rfl⟩
  rw [← hv] at hrun
  have hretains : w.Retains stream v := by
    rw [hv]
    exact ⟨fun _ _ => by rw [World.log_viewed]; rfl,
      fun _ => World.queue_eq_of_areas (World.areas_viewed ..) ..⟩
  have hagenda : v.agenda p.agenda = w.agenda p.agenda := by
    rw [World.agenda, hv, (World.Simultaneous.viewed ..).agendas]
    rfl
  have hunloaded : v.loaded p.cache (C.routes kind) stream = .error err := by
    rw [hv, World.loaded, World.view_viewed]
    exact hload
  have hcv : v.Consistent := hv ▸ (hc.forget ..).viewed ..
  have htidyv : (v.agenda p.agenda).Tidy stream others := hagenda ▸ htidy
  let waited : World := { v.advance span with wall := time }
  have hwaited : v.Retains stream waited := ⟨fun _ _ => rfl, fun _ => rfl⟩
  exact (hretains.trans hwaited).trans
    (retains_runDue (w := waited) (hcv.idle ⟨rfl, rfl, rfl⟩) htidyv hapart hknown hunloaded hrun)

/-- A commit that meets a newer history leaves the same behind in its stream, whether its batch is
merged at once or staged and merged by a worker later, if nothing was staged for the stream and
nobody held it. Of a stream that can be loaded, the batch stays staged exactly if the commit fails
that merges it at once; of another one both commits fail, and nothing is staged. -/
theorem postponed (p : Participant C) (opened time : Moment) (kind : C.Kind)
    (e : Entity (C.State kind)) (commitId : Uuid) (headers : Headers) (span : Span) (w : World)
    (hc : w.Consistent) (he : e.timeline.Rooted w.log)
    (hknown : p.kind? e.timeline.stream.entity = some kind)
    (hmax : p.settings.weakPullMax ≠ some 0) (hpending : e.timeline.pending ≠ [])
    (hrecords : ∃ e₁, e.staged (C.routes kind) w.wall = .ok e₁)
    (hconflict : w.log.version (e.timeline.key .domain) ≠ e.timeline.version)
    (hqueue : w.queue sharedArea (e.timeline.key .domain) = [])
    (hfree : w.log.freeze? (e.timeline.key .domain) = none) (hspan : p.node.ageThreshold ≤ span)
    (hnodup : ((w.agenda p.agenda).entries.map Prod.fst).Nodup)
    (hothers : ∀ other ∈ (w.agenda p.agenda).entries.map Prod.fst, other ≠ e.timeline.stream →
      other.Apart e.timeline.stream) :
    let stream := e.timeline.stream
    let key := stream.key .domain
    let found := (w.forget p.cache key).loaded p.cache (C.routes kind) stream
    let strong := (((p.resolving .resolveStrongly).repository opened).commit (C.routes kind).lift e
      commitId headers).run w
    let weak := (((p.resolving .resolveWeakly).repository opened).commit (C.routes kind).lift e
      commitId headers).run w
    let later := (((p.resolving .resolveWeakly).worker opened).runDue.run
      { weak.2.advance span with wall := time }).2
    World.Alike stream strong.2 later ∧
      (∀ fresh, found = .ok fresh → weak.1.1 = .ok (.resolved .deferred) ∧
        ∃ b, b.message.events = e.timeline.batch ∧ weak.2.queue sharedArea key = [b] ∧
          ((∃ err, strong.1.1 = .error err) ↔ later.queue sharedArea key = [b])) ∧
      ∀ err, found = .error err → strong.1.1 = .error (.ofLoad err) ∧
        weak.1.1 = .error (.ofLoad err) ∧ later.queue sharedArea key = [] ∧
        ∀ key, stream.Owns key → later.log.events key = w.log.events key := by
  intro stream key found strong weak later
  obtain ⟨e₁, he₁⟩ := hrecords
  obtain ⟨hcontinues, hbatch⟩ := World.continues_staged he₁
  have htidy : (w.agenda p.agenda).Tidy stream _ := Agenda.tidy_beside hnodup stream
  have hapart : ∀ item, (w.agenda p.agenda).Beside stream (StreamRef.key item .domain) →
      item.Apart stream := fun _ => Agenda.apart_of_beside hothers
  have hstrong : Runs (((p.resolving .resolveStrongly).repository opened).commit
      (C.routes kind).lift e commitId headers) w (strong.1.1, strong.1.2) strong.2 := rfl
  have hweak : Runs (((p.resolving .resolveWeakly).repository opened).commit
      (C.routes kind).lift e commitId headers) w (weak.1.1, weak.1.2) weak.2 := rfl
  obtain ⟨count, hlater⟩ : ∃ count, Runs ((p.resolving .resolveWeakly).worker opened).runDue
      { weak.2.advance span with wall := time } count later := ⟨_, rfl⟩
  have hcs : strong.2.Consistent := ((World.committed_of_runs hstrong).passes hc he).2.consistent
  have hcw : weak.2.Consistent := ((World.committed_of_runs hweak).passes hc he).2.consistent
  -- Both commits meet the newer history, and differ only in how it is resolved.
  have hatonce := World.conflict_of_commit he₁ hpending hconflict hfree hstrong
  have hdeferred := World.conflict_of_commit he₁ hpending hconflict hfree hweak
  cases hfound : found with
  | ok fresh =>
    obtain ⟨r, d, henacted, hfails⟩ := World.enacted_of_resolveConflict
      (n := (p.resolving .resolveStrongly).node) rfl hc hcontinues.stream hfree hfound hatonce
    obtain ⟨hresult, b, hb, hstaged, hevents, hbacklog⟩ := backlog_of_resolveConflict
      (p := p.resolving .resolveWeakly) rfl hc hcw htidy hcontinues.stream hqueue hfree hfound
      hdeferred
    rw [hbatch] at hb henacted
    obtain ⟨hwaiting, hdue⟩ := hbacklog span time hspan
    have hne : b.message.events ≠ [] := by
      rw [hb, Timeline.batch]
      simp [hpending]
    obtain ⟨r', d', w₁, w₂, hbefore, henacted', hn, hafter, hleft⟩ :=
      hwaiting.enacted (p := p.resolving .resolveWeakly) hknown hapart hmax hne hdue hlater
    -- The worker merges the batch into the entity that the strong commit merged it into.
    obtain ⟨hcurrent, -⟩ := World.upToDate_of_forgotten
      (n := (p.resolving .resolveStrongly).node) hc hfound
    rw [hb] at henacted'
    have hsame : ∀ key, stream.Owns key → w₁.log.events key =
        ((w.forget p.cache (stream.key .domain)).viewed p.cache stream).log.events key := by
      intro key howns
      rw [hbefore key howns, World.log_viewed]
      exact hevents key
    obtain ⟨hboth, halike⟩ := henacted.alike hcurrent hsame hcs.numbered hn henacted'
    refine ⟨halike.trans (.of_events hafter), fun _ _ => ⟨hresult, b, hb, hstaged, ?_⟩, by simp⟩
    exact (hfails.trans hboth).trans hleft
  | error err =>
    obtain ⟨hresult, hs⟩ := World.unresolved_of_resolveConflict
      (n := (p.resolving .resolveStrongly).node) hcontinues.stream hfound hatonce
    obtain ⟨hresult', (hw : weak.2 = (w.forget p.cache key).viewed p.cache stream)⟩ :=
      World.unresolved_of_resolveConflict
      (n := (p.resolving .resolveWeakly).node) hcontinues.stream hfound hdeferred
    rw [hw] at hlater
    have hretains := retains_of_unloaded (p := p.resolving .resolveWeakly) hc htidy hapart hknown
      hfound hlater
    refine ⟨.of_events fun k howns => ?_, by simp, ?_⟩
    · rw [hretains.events k howns, hs, World.log_viewed]
      rfl
    · rintro _ ⟨⟩
      exact ⟨hresult, hresult', (hretains.queue _).trans hqueue, hretains.events⟩

end Participant

namespace Cluster

/-- A two is stored, of which the numbers that are entered after that know nothing. -/
def overlappingEntries : List (Operation sums) :=
  [.newEntity (till 0) () "s-1", .newEntity (till 1) () "s-1", enter 0 2,
    .commit (till 0) 0 (.numbered 100) ∅, enter 1 3, enter 1 0, enter 1 4,
    .raise 1 (fun _ => World.addend.move 7 fun _ (s : Int) => s) "audit" false none]

/-- The zero is declined and the other numbers are stored with a snapshot, at once or a minute
later. -/
theorem postponed_overlappingEntries :
    let c := (start .epoch).run .epoch overlappingEntries
    ∃ s, c.slots[1]? = some s ∧
      let strong := ((((till 1).resolving .resolveStrongly).repository .epoch).commit
        (sums.routes s.kind).lift s.entity (.numbered 101) ∅).run c.world
      let weak := ((((till 1).resolving .resolveWeakly).repository .epoch).commit
        (sums.routes s.kind).lift s.entity (.numbered 101) ∅).run c.world
      let later := ((((till 1).resolving .resolveWeakly).worker .epoch).runDue.run
        { weak.2.advance (.ofSeconds 60) with wall := .epoch }).2
      World.Alike sumStream strong.2 later ∧
        (strong.2.log.events (sumStream.key .domain)).map Event.content =
          [("sum.added", .int 2), ("sum.added", .int 3), ("sum.added", .int 4)] ∧
        ∃ b, weak.2.queue sharedArea (sumStream.key .domain) = [b] ∧
          later.queue sharedArea (sumStream.key .domain) ≠ [b] := by
  obtain ⟨c, hc⟩ : ∃ c, c = (start .epoch).run .epoch overlappingEntries := ⟨_, rfl⟩
  have hsteady : c.Steady := by
    obtain ⟨rs, hleads⟩ := leads_run .epoch (steady_start .epoch) overlappingEntries
    rw [hc]
    exact hleads.steady
  have hslot : c.slots[1]?.isSome = true := by
    rw [hc]
    decide +kernel
  have hentity : ∀ s ∈ c.slots[1]?, s.entity.timeline.stream = sumStream ∧
      s.entity.timeline.pending ≠ [] ∧ s.entity.timeline.version = -1 := by
    rw [hc]
    decide +kernel
  have hworld : c.world.log.version (sumStream.key .domain) = 0 ∧
      c.world.queue sharedArea (sumStream.key .domain) = [] ∧
      (c.world.log.freeze? (sumStream.key .domain)).isNone = true ∧
      (c.world.agenda 1).entries.map Prod.fst = [] := by
    rw [hc]
    decide +kernel
  have hloads : ((c.world.forget 1 (sumStream.key .domain)).loaded 1 tillRoutes
      sumStream).toOption.isSome = true := by
    rw [hc]
    decide +kernel
  have hstored : ∀ s ∈ c.slots[1]?,
      let strong := ((((till 1).resolving .resolveStrongly).repository .epoch).commit
        (sums.routes s.kind).lift s.entity (.numbered 101) ∅).run c.world
      strong.1.1.toOption.isSome = true ∧
        (strong.2.log.events (sumStream.key .domain)).map Event.content =
          [("sum.added", .int 2), ("sum.added", .int 3), ("sum.added", .int 4)] := by
    rw [hc]
    decide +kernel
  have hrecords : ∀ snapshots ∈ tillRoutes.snapshots, ∀ n, ∃ memento,
      snapshots.encode n = .ok memento := by
    rintro snapshots ⟨⟩ n
    exact ⟨.int n, rfl⟩
  rw [← hc]
  obtain ⟨s, hs⟩ := Option.isSome_iff_exists.1 hslot
  obtain ⟨hstream, hpending, hversion⟩ := hentity s hs
  obtain ⟨hversion', hqueue, hfree, hagenda⟩ := hworld
  obtain ⟨hcommitted, hcontents⟩ := hstored s hs
  have hkey : s.entity.timeline.key .domain = sumStream.key .domain := by
    rw [Timeline.key, hstream]
  obtain ⟨halike, hfound, -⟩ := Participant.postponed (till 1) .epoch .epoch s.kind s.entity
    (.numbered 101) ∅ (.ofSeconds 60) c.world hsteady.consistent
    (hsteady.rooted s (List.mem_of_getElem? hs)) (by rw [hstream]; rfl) (by decide) hpending
    (Entity.exists_staged hrecords s.entity _)
    (by rw [hkey, hversion', hversion]; decide) (hkey ▸ hqueue)
    (hkey ▸ Option.isNone_iff_eq_none.1 hfree) (by decide)
    (by change ((c.world.agenda 1).entries.map Prod.fst).Nodup; rw [hagenda]; exact List.nodup_nil)
    (by change ∀ other ∈ (c.world.agenda 1).entries.map Prod.fst, _; simp [hagenda])
  rw [hstream] at halike hfound
  cases hload : (c.world.forget 1 (sumStream.key .domain)).loaded 1 tillRoutes sumStream with
  | error err => simp [hload, Except.toOption] at hloads
  | ok fresh =>
    obtain ⟨-, b, -, hstaged, hfails⟩ := hfound fresh hload
    refine ⟨s, hs, halike, hcontents, b, hstaged, fun hleft => ?_⟩
    obtain ⟨err, hfailed⟩ := hfails.2 hleft
    simp [hfailed, Except.toOption] at hcommitted

def illegibleEntries : List (Operation ledgers) :=
  [.newEntity (bookkeeper 0) () "s-1", .newEntity (bookkeeper 1) () "s-1",
    .apply 0 fun _ => ⟨World.addend.kind, .ok .null, id⟩,
    .commit (bookkeeper 0) 0 (.numbered 100) ∅, post 1 3]

/-- A commit that cannot load the stream fails, and its batch is not staged. -/
theorem unstaged_illegibleEntries :
    let c := (start .epoch).run .epoch illegibleEntries
    let key := sumStream.key .domain
    ∃ s, c.slots[1]? = some s ∧ s.entity.timeline.stream = sumStream ∧
      s.entity.timeline.pending ≠ [] ∧ c.world.log.version key ≠ s.entity.timeline.version ∧
      c.world.queue sharedArea key = [] ∧ c.world.log.freeze? key = none ∧
      (bookkeeper 1).node.ageThreshold ≤ .ofSeconds 60 ∧
      (bookkeeper 1).kind? sumStream.entity = some s.kind ∧
      let strong := ((((bookkeeper 1).resolving .resolveStrongly).repository .epoch).commit
        (ledgers.routes s.kind).lift s.entity (.numbered 101) ∅).run c.world
      let weak := ((((bookkeeper 1).resolving .resolveWeakly).repository .epoch).commit
        (ledgers.routes s.kind).lift s.entity (.numbered 101) ∅).run c.world
      let later := ((((bookkeeper 1).resolving .resolveWeakly).worker .epoch).runDue.run
        { weak.2.advance (.ofSeconds 60) with wall := .epoch }).2
      ¬ ((∃ err, strong.1.1 = .error err) ↔
        ∃ b ∈ later.queue sharedArea key, b.message.events = s.entity.timeline.batch) := by
  obtain ⟨c, hc⟩ : ∃ c, c = (start .epoch).run .epoch illegibleEntries := ⟨_, rfl⟩
  have hslot : c.slots[1]?.isSome = true := by
    rw [hc]
    decide +kernel
  have hentity : ∀ s ∈ c.slots[1]?, s.entity.timeline.stream = sumStream ∧
      s.entity.timeline.pending ≠ [] ∧
      c.world.log.version (sumStream.key .domain) ≠ s.entity.timeline.version := by
    rw [hc]
    decide +kernel
  have hworld : c.world.queue sharedArea (sumStream.key .domain) = [] ∧
      (c.world.log.freeze? (sumStream.key .domain)).isNone = true := by
    rw [hc]
    decide +kernel
  have hends : ∀ s ∈ c.slots[1]?,
      let strong := ((((bookkeeper 1).resolving .resolveStrongly).repository .epoch).commit
        (ledgers.routes s.kind).lift s.entity (.numbered 101) ∅).run c.world
      let weak := ((((bookkeeper 1).resolving .resolveWeakly).repository .epoch).commit
        (ledgers.routes s.kind).lift s.entity (.numbered 101) ∅).run c.world
      let later := ((((bookkeeper 1).resolving .resolveWeakly).worker .epoch).runDue.run
        { weak.2.advance (.ofSeconds 60) with wall := .epoch }).2
      strong.1.1.toOption = none ∧ later.queue sharedArea (sumStream.key .domain) = [] := by
    rw [hc]
    decide +kernel
  rw [← hc]
  obtain ⟨s, hs⟩ := Option.isSome_iff_exists.1 hslot
  obtain ⟨hstream, hpending, hversion⟩ := hentity s hs
  obtain ⟨hfailed, hleft⟩ := hends s hs
  refine ⟨s, hs, hstream, hpending, hversion, hworld.1, Option.isNone_iff_eq_none.1 hworld.2,
    by decide, rfl, fun hiff => ?_⟩
  have herror : ∀ r : Except CommitError CommitOutcome, r.toOption = none →
      ∃ err, r = .error err := by
    rintro (err | outcome) hnone
    · exact ⟨err, rfl⟩
    · cases hnone
  obtain ⟨b, hb, -⟩ := hiff.1 (herror _ hfailed)
  rw [hleft] at hb
  cases hb

end Cluster

end Chronicle
