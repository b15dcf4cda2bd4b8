import Chronicle.Proofs.Twins

/-!
# Handling a stream twice

A worker that handles a stream asks its node for nothing but what belongs to the stream. So it is
its own twin: in two worlds that hold the same for the stream it answers the same and leaves the
same, but for the names of events and commits. The twins follow the programs, from the requests to a
store over the merge of what is staged to the whole of the handling.
-/

namespace Chronicle

variable {S : Type}

namespace World

variable {r : StreamRef}

theorem twin_freshId :
    Twin r (fun _ _ => True) (surroundings cell).freshId (surroundings cell).freshId := by
  intro w w' id id' u u' hnear hx hy
  obtain ⟨i, rfl⟩ := runs_freshId hx
  obtain ⟨j, rfl⟩ := runs_freshId hy
  exact ⟨trivial, hnear.issued .., .issued ..⟩

theorem twin_now : Twin r Eq (surroundings cell).now (surroundings cell).now := by
  intro w w' time time' u u' hnear hx hy
  obtain ⟨rfl, rfl⟩ := runs_now.1 hx
  obtain ⟨rfl, rfl⟩ := runs_now.1 hy
  exact ⟨hnear.wall, hnear, .refl ..⟩

theorem twin_stamp :
    Twin r (fun a b => a.time = b.time) (surroundings cell).stamp (surroundings cell).stamp := by
  refine .bind twin_freshId fun id id' _ => ?_
  refine .bind (p := Eq) twin_now ?_
  rintro time _ rfl
  exact .pure rfl

end World

namespace Instance

variable {k : Instance} {opened : Moment} {r : StreamRef} {t t' : Timeline}

private theorem holder_congr {w w' : World} (h : w.Near r w') :
    w.holder k.owner k.freezeTimeout (r.key .domain) =
      w'.holder k.owner k.freezeTimeout (r.key .domain) := by
  simp only [World.holder, h.metadata, h.wall]

theorem twin_ensureWritable :
    Twin r (Agree Eq) ((k.cached opened).ensureWritable (r.key .domain)).run
      ((k.cached opened).ensureWritable (r.key .domain)).run := by
  intro w w' a b u u' hnear hx hy
  obtain ⟨rfl, rfl⟩ := runs_ensureWritable.1 hx
  obtain ⟨rfl, rfl⟩ := runs_ensureWritable.1 hy
  rw [holder_congr hnear]
  exact ⟨agree_eq.2 rfl, hnear, .refl ..⟩

theorem twin_writeEvents {key : String} (howns : r.Owns key) {events events' : NonEmptyList Event}
    (hevents : events.1.map Event.nameless = events'.1.map Event.nameless)
    {headers headers' : Headers}
    (hheaders : headers.erase Headers.commitId = headers'.erase Headers.commitId)
    (expected : Option Int) :
    Twin r (Agree Eq)
      (ExceptT.run ((k.cached opened).events.write key events headers expected))
      (ExceptT.run ((k.cached opened).events.write key events' headers' expected)) := by
  intro w w' a b u u' hnear hx hy
  have hversion := hnear.version howns
  have hcheck : w.log.check key expected = w'.log.check key expected := by
    cases expected with
    | none => rfl
    | some version => simp only [EventLog.check, EventLog.verify, hversion]
  have hlength : events.1.length = events'.1.length := by
    simpa using congrArg List.length hevents
  rcases World.runs_write hx with ⟨err, hc, rfl, rfl⟩ | ⟨hc, i, ids, rfl, rfl⟩ <;>
    rcases World.runs_write hy with ⟨err', hc', rfl, rfl⟩ | ⟨hc', j, ids', rfl, rfl⟩ <;>
    rw [hcheck, hc'] at hc <;> cases hc
  · exact ⟨rfl, hnear, .refl ..⟩
  · refine ⟨?_, hnear.appended howns hevents hheaders .., .appended r howns ..⟩
    simp only [agree_eq, EventLog.append, hversion, hlength]

theorem twin_writeOobs {batches batches' : List (String × List Event)}
    (h : (batches.map fun b => (b.1, b.2.map Event.nameless)) =
      batches'.map fun b => (b.1, b.2.map Event.nameless))
    (howns : ∀ b ∈ batches, r.Owns b.1) {headers headers' : Headers}
    (hheaders : headers.erase Headers.commitId = headers'.erase Headers.commitId) :
    Twin r (Agree Eq) ((k.cached opened).writeOobs headers batches).run
      ((k.cached opened).writeOobs headers' batches').run := by
  induction batches generalizing batches' with
  | nil =>
    rw [List.map_nil, eq_comm, List.map_eq_nil_iff] at h
    rw [h]
    exact .except_pure rfl
  | cons batch rest ih =>
    cases batches' with
    | nil => simp at h
    | cons batch' rest' =>
      obtain ⟨key, events⟩ := batch
      obtain ⟨key', events'⟩ := batch'
      simp only [List.map_cons, List.cons.injEq, Prod.mk.injEq] at h
      obtain ⟨⟨rfl, hevents⟩, hrest⟩ := h
      have hothers := ih hrest fun b hb => howns b (List.mem_cons_of_mem _ hb)
      simp only [CachedStore.writeOobs]
      cases events with
      | nil =>
        rw [List.map_nil, eq_comm, List.map_eq_nil_iff] at hevents
        simp only [hevents, NonEmptyList.ofList?]
        exact hothers
      | cons e es =>
        cases events' with
        | nil => simp at hevents
        | cons e' es' =>
          simp only [NonEmptyList.ofList?]
          refine .except_bind (p := Eq) (.except_discard (p := Eq) ?_) fun _ _ _ => hothers
          exact twin_writeEvents (howns _ (List.mem_cons_self ..)) hevents hheaders none

theorem twin_evict :
    Twin r (fun _ _ => True) ((k.cached opened).evict (r.key .domain))
      ((k.cached opened).evict (r.key .domain)) := by
  intro w w' _ _ u u' hnear hx hy
  obtain rfl := World.runs_cache_modify.1 hx
  obtain rfl := World.runs_cache_modify.1 hy
  exact ⟨trivial, hnear.forget k.cache, .forget ..⟩

section Storing

variable (h : t.Akin r t')
include h

private theorem twin_storeRest {headers headers' : Headers}
    (hheaders : headers.erase Headers.commitId = headers'.erase Headers.commitId) (v : Int) :
    Twin r (Agree Eq)
      ((k.cached opened).storeRest t headers v).run
      ((k.cached opened).storeRest t' headers' v).run := by
  have howns : ∀ b ∈ t.oobBatches, r.Owns b.1 := by
    intro b hb
    obtain ⟨-, channel, hchannel⟩ := Timeline.mem_oobBatches hb
    exact h.owns (.inr (.inr ⟨channel, hchannel⟩))
  unfold CachedStore.storeRest
  refine .except_bind (p := Eq) (twin_writeOobs h.oobBatches howns hheaders) fun _ _ _ => ?_
  rw [← h.pendingSnapshot]
  cases t.pendingSnapshot with
  | none => exact .except_pure rfl
  | some s =>
    refine .lift_bind World.twin_freshId fun id id' _ => ?_
    refine .except_bind (p := Eq) (.except_discard (p := Eq) ?_) fun _ _ _ => .except_pure rfl
    rw [Timeline.key, Timeline.key, ← h.stream]
    refine twin_writeEvents (h.owns (.inr (.inl rfl))) ?_ hheaders none
    simp only [CachedStore.snapshotRecord, h.stream]
    rfl

theorem twin_store (commitId commitId' : Uuid) (headers : Headers) (expected : Option Int) :
    Twin r (Agree Eq) ((k.cached opened).store commitId t headers expected).run
      ((k.cached opened).store commitId' t' headers expected).run := by
  have hheaders := Headers.erase_insert headers Headers.commitId commitId.text commitId'.text
  have hpending := h.pending
  simp only [CachedStore.store_eq, h.key, h.key']
  refine .except_bind (p := Eq) twin_ensureWritable fun _ _ _ => ?_
  cases hp : t.pending with
  | nil =>
    rw [hp, List.map_nil, eq_comm, List.map_eq_nil_iff] at hpending
    simp only [hpending, NonEmptyList.ofList?, pure_bind, h.version]
    exact twin_storeRest h hheaders _
  | cons e es =>
    cases hp' : t'.pending with
    | nil => simp [hp, hp'] at hpending
    | cons e' es' =>
      simp only [NonEmptyList.ofList?]
      rw [hp, hp'] at hpending
      refine .except_bind (p := Eq) (twin_writeEvents (.inl rfl) hpending hheaders expected) ?_
      rintro version _ rfl
      exact twin_storeRest h hheaders version

theorem twin_remember :
    Twin r (fun _ _ => True) ((k.cached opened).remember (r.key .domain) t)
      ((k.cached opened).remember (r.key .domain) t') := by
  intro w w' _ _ u u' hnear hx hy
  obtain rfl := World.runs_cache_modify.1 hx
  obtain rfl := World.runs_cache_modify.1 hy
  exact ⟨trivial, hnear.remember k.cache h, .remember ..⟩

/-- What is pending is stored with a check of the version, and what is settled is cached. -/
theorem twin_write (commitId commitId' : Uuid) (headers : Headers) :
    Twin r (Agree Eq) ((k.store opened).write commitId t headers)
      ((k.store opened).write commitId' t' headers) := by
  change Twin r (Agree Eq) ((k.cached opened).write commitId t headers).run
    ((k.cached opened).write commitId' t' headers).run
  simp only [CachedStore.write, h.version, h.key, h.key']
  refine .lift_bind (twin_store h ..) fun result result' hsame => ?_
  rw [agree_eq] at hsame
  subst hsame
  cases result with
  | ok version =>
    exact .lift_bind (twin_remember h.settle) fun _ _ _ => .except_pure rfl
  | error err =>
    by_cases hconflict : err.versionConflict?.isSome
    · simp only [if_pos hconflict]
      exact .lift_bind twin_evict fun _ _ _ => .except_throw err
    · simp only [if_neg hconflict]
      exact .except_throw err

end Storing

end Instance

namespace World

variable {n : Node} {opened : Moment} {r : StreamRef} {t t' : Timeline}

theorem twin_write (h : t.Akin r t') (commitId commitId' : Uuid) (headers : Headers) :
    Twin r (Agree Eq) ((n.store (site opened)).write commitId t headers)
      ((n.store (site opened)).write commitId' t' headers) := by
  change Twin r (Agree Eq) ((n.asInstance.store opened).write commitId t headers)
    ((n.asInstance.store opened).write commitId' t' headers)
  exact Instance.twin_write h commitId commitId' headers

theorem twin_freeze (h : t.Akin r t') :
    Twin r (Agree Eq) ((n.store (site opened)).freeze t) ((n.store (site opened)).freeze t') := by
  intro w w' a b u u' hnear hx hy
  rw [runs_freeze_iff, h.key] at hx
  rw [runs_freeze_iff, h.key', ← hnear.metadata, ← hnear.wall] at hy
  split at hx <;> rename_i hf
  · rw [hf] at hy
    dsimp only at hy
    split at hx <;> rename_i hstale
    · rw [if_pos hstale] at hy
      obtain ⟨⟨rfl, rfl⟩, rfl, rfl⟩ := And.intro hx hy
      exact ⟨rfl, hnear.claimed _, .claimed ..⟩
    · rw [if_neg hstale] at hy
      obtain ⟨⟨rfl, rfl⟩, rfl, rfl⟩ := And.intro hx hy
      exact ⟨rfl, hnear, .refl ..⟩
  · rw [hf] at hy
    obtain ⟨⟨rfl, rfl⟩, rfl, rfl⟩ := And.intro hx hy
    exact ⟨rfl, hnear.claimed _, .claimed ..⟩

theorem twin_unfreeze (h : t.Akin r t') :
    Twin r (Agree Eq) ((n.store (site opened)).unfreeze t)
      ((n.store (site opened)).unfreeze t') := by
  intro w w' a b u u' hnear hx hy
  rw [runs_unfreeze_iff, h.key] at hx
  rw [runs_unfreeze_iff, h.key', ← hnear.metadata] at hy
  obtain ⟨⟨rfl, rfl⟩, rfl, rfl⟩ := And.intro hx hy
  refine ⟨rfl, ?_⟩
  split
  · split
    · exact ⟨hnear.claimed none, .claimed ..⟩
    · exact ⟨hnear, .refl ..⟩
  · exact ⟨hnear, .refl ..⟩

theorem twin_size :
    Twin r (Agree Eq) ((n.weak (site opened)).staging.size weakChannel (r.key .domain))
      ((n.weak (site opened)).staging.size weakChannel (r.key .domain)) := by
  intro w w' a b u u' hnear hx hy
  obtain ⟨rfl, rfl⟩ := runs_size.1 hx
  obtain ⟨rfl, rfl⟩ := runs_size.1 hy
  rw [hnear.queue]
  exact ⟨rfl, hnear, .refl ..⟩

theorem twin_pull :
    Twin r (Agree Eq)
      ((n.weak (site opened)).staging.pull weakChannel (r.key .domain) n.settings.weakPullMax)
      ((n.weak (site opened)).staging.pull weakChannel (r.key .domain)
        n.settings.weakPullMax) := by
  intro w w' a b u u' hnear hx hy
  obtain ⟨rfl, rfl⟩ := runs_pullMax.1 hx
  obtain ⟨rfl, rfl⟩ := runs_pullMax.1 hy
  rw [← hnear.queue]
  exact ⟨rfl, hnear.restaged .., .restaged ..⟩

theorem twin_requeue (messages : List (Staged ConflictBatch)) :
    Twin r (Agree Eq) ((n.weak (site opened)).staging.requeue weakChannel (r.key .domain) messages)
      ((n.weak (site opened)).staging.requeue weakChannel (r.key .domain) messages) := by
  intro w w' a b u u' hnear hx hy
  obtain ⟨rfl, rfl⟩ := runs_requeue.1 hx
  obtain ⟨rfl, rfl⟩ := runs_requeue.1 hy
  rw [← hnear.queue]
  exact ⟨rfl, hnear.restaged .., .restaged ..⟩

theorem twin_schedule {stream : StreamRef} (hkey : stream.key .domain = r.key .domain)
    (delay : Span) :
    Twin r Eq ((n.weak (site opened)).schedule stream delay)
      ((n.weak (site opened)).schedule stream delay) := by
  intro w w' a b u u' hnear hx hy
  obtain rfl := runs_schedule hx
  obtain rfl := runs_schedule hy
  exact ⟨rfl, hnear.scheduled _ hkey delay, .scheduled r hkey ..⟩

theorem Near.view {w w' : World} (h : w.Near r w') (c : Nat) :
    Agree (Timeline.Akin r) (w.view c r) (w'.view c r) := by
  have hcached := h.cached c
  unfold World.view
  cases hx : (w.cache c)[r.key .domain]? <;> cases hy : (w'.cache c)[r.key .domain]? <;>
    simp only [hx, hy, Option.map_some, Option.map_none, reduceCtorEq, Option.some.injEq]
      at hcached ⊢
  · exact EventLog.akin_timeline h.events
  · exact ⟨hcached, h.filed c _ hx⟩

theorem Near.viewed {w w' : World} (h : w.Near r w') (c : Nat) :
    (w.viewed c r).Near r (w'.viewed c r) ∧ w.Confined [r] (w.viewed c r) := by
  have hview := h.view c
  have hcached := h.cached c
  unfold World.view at hview
  unfold World.viewed
  cases hx : (w.cache c)[r.key .domain]? <;> cases hy : (w'.cache c)[r.key .domain]? <;>
    simp only [hx, hy, Option.map_some, Option.map_none, reduceCtorEq] at hcached hview ⊢
  · cases hx : w.log.timeline r <;> cases hy : w'.log.timeline r <;> rw [hx, hy] at hview
    · exact ⟨h, .refl ..⟩
    · cases hview
    · cases hview
    · exact ⟨h.remember c hview, .remember ..⟩
  · exact ⟨h, .refl ..⟩

theorem twin_loadEntity (routes : Routes Id S) :
    Twin r (Agree (Entity.Akin r)) (loadEntity (n.store (site opened)) routes.lift r).run
      (loadEntity (n.store (site opened)) routes.lift r).run := by
  intro w w' a b u u' hnear hx hy
  obtain ⟨rfl, rfl⟩ := runs_loadEntity.1 hx
  obtain ⟨rfl, rfl⟩ := runs_loadEntity.1 hy
  refine ⟨?_, hnear.viewed _⟩
  have hview := hnear.view n.cache
  rw [loaded_lift, loaded_lift]
  unfold loaded
  cases hx : w.view n.cache r <;> cases hy : w'.view n.cache r <;> rw [hx, hy] at hview
  · exact congrArg LoadError.store hview
  · cases hview
  · cases hview
  · exact (Entity.Akin.ofTimeline hview).mapError LoadError.route

section Merging

variable {routes : Routes Id S} {e e' : Entity S}

theorem twin_conflict (h : e.Akin r e') (event : Event) (strategy : String) :
    Twin r (fun a b => a.1 = b.1 ∧ a.2.Akin r b.2)
      (e.conflict routes.lift (surroundings cell).stamp event strategy)
      (e'.conflict routes.lift (surroundings cell).stamp event strategy) := by
  have hroute : Twin r Eq ((routes.lift : Routes (StateM World) S).conflictEvent e.state event)
      ((routes.lift : Routes (StateM World) S).conflictEvent e'.state event) := by
    intro w w' a b u u' hnear hx hy
    obtain ⟨rfl, rfl⟩ := Routes.runs_conflictEvent.1 hx
    obtain ⟨rfl, rfl⟩ := Routes.runs_conflictEvent.1 hy
    exact ⟨by rw [h.state], hnear, .refl ..⟩
  unfold Entity.conflict
  by_cases hknown : (routes.lift : Routes (StateM World) S).hasConflict event.kind
  · simp only [if_pos hknown]
    refine .bind hroute ?_
    rintro ⟨outcome, state⟩ _ rfl
    have hmerged : Entity.Akin r { e with state, conflicts := e.conflicts + 1 }
        { e' with state, conflicts := e'.conflicts + 1 } :=
      ⟨rfl, h.timeline, by rw [h.conflicts]⟩
    cases outcome with
    | error err => exact .pure ⟨rfl, hmerged⟩
    | ok =>
      exact .bind twin_stamp fun stamp stamp' htime =>
        .pure ⟨rfl, hmerged.record htime event strategy⟩
  · simp only [if_neg hknown]
    exact .pure ⟨rfl, h⟩

theorem twin_replayEvent (strategy : ConflictStrategy) (event : Event) :
    TwinStep S r Eq (replayEvent routes.lift (surroundings cell).stamp strategy event)
      (replayEvent routes.lift (surroundings cell).stamp strategy event) := by
  unfold replayEvent
  split
  · refine .bind .entity fun e e' hakin => ?_
    refine .bind (.ask (twin_conflict hakin event strategy.name)) ?_
    rintro ⟨outcome, e⟩ ⟨_, e'⟩ ⟨rfl, hakin⟩
    refine .bind (.setEntity hakin) fun _ _ _ => ?_
    split
    · exact .pure rfl
    · exact .pure rfl
    · exact .throw _
  · refine .bind (.ask twin_stamp) fun stamp stamp' htime => ?_
    refine .bind .entity fun e e' hakin => ?_
    exact .bind (.setEntity (hakin.reraise htime event)) fun _ _ _ => .pure rfl
  · exact .pure rfl

theorem twin_replay (strategy : ConflictStrategy) (events : List Event) :
    TwinStep S r Eq (replay routes.lift (surroundings cell).stamp strategy events)
      (replay routes.lift (surroundings cell).stamp strategy events) := by
  induction events with
  | nil => exact .pure rfl
  | cons event rest ih =>
    refine .bind (twin_replayEvent strategy event) ?_
    rintro merged _ rfl
    refine .bind ih ?_
    rintro others _ rfl
    exact .pure rfl

private theorem twin_writeEntity (commitId commitId' : Uuid) (headers : Headers) :
    TwinStep S r Eq
      (do
        let e ← Resolving.entity
        if e.timeline.dirty then
          discard (Resolving.store ((n.store (site opened)).write commitId e.timeline headers))
          Resolving.setEntity e.settle
          pure Resolution.committed
        else pure Resolution.discarded)
      (do
        let e ← Resolving.entity
        if e.timeline.dirty then
          discard (Resolving.store ((n.store (site opened)).write commitId' e.timeline headers))
          Resolving.setEntity e.settle
          pure Resolution.committed
        else pure Resolution.discarded) := by
  refine .bind .entity fun e e' hakin => ?_
  rw [hakin.timeline.dirty]
  by_cases hd : e'.timeline.dirty = true
  · rw [if_pos hd, if_pos hd]
    refine .bind (TwinStep.store (twin_write hakin.timeline ..)).discard fun _ _ _ => ?_
    exact .bind (.setEntity hakin.settle) fun _ _ _ => .pure rfl
  · rw [if_neg hd, if_neg hd]
    exact .pure rfl

theorem twin_mergeAndWrite (events : List Event) (commitId commitId' : Uuid) (headers : Headers)
    (strategy : ConflictStrategy) :
    TwinStep S r Eq
      (mergeAndWrite (n.store (site opened)) (surroundings cell) routes.lift events commitId
        headers strategy)
      (mergeAndWrite (n.store (site opened)) (surroundings cell) routes.lift events commitId'
        headers strategy) := by
  unfold mergeAndWrite
  refine .bind (twin_replay strategy events).discard fun _ _ _ => ?_
  refine .bind .entity fun e e' hakin => ?_
  rw [hakin.shouldTakeSnapshot]
  by_cases hd : e'.shouldTakeSnapshot (routes.lift : Routes (StateM World) S) = true
  · simp only [if_pos hd]
    refine .bind (.ask twin_now) ?_
    rintro time _ rfl
    have htaken : Agree (Entity.Akin r)
        (e.takeSnapshot (routes.lift : Routes (StateM World) S) time)
        (e'.takeSnapshot (routes.lift : Routes (StateM World) S) time) :=
      hakin.takeSnapshot time
    cases hx : e.takeSnapshot (routes.lift : Routes (StateM World) S) time <;>
      cases hy : e'.takeSnapshot (routes.lift : Routes (StateM World) S) time <;>
      rw [hx, hy] at htaken
    · obtain rfl := htaken
      exact .throw _
    · cases htaken
    · cases htaken
    · exact .bind (.setEntity htaken) fun _ _ _ => twin_writeEntity ..
  · simp only [if_neg hd]
    exact twin_writeEntity ..

/-- A batch is merged and stored, under a claim if it is large. -/
theorem twin_settleBatch (events : List Event) (commitId commitId' : Uuid) (headers : Headers)
    (strategy : ConflictStrategy) (threshold : Nat) :
    TwinStep S r Eq
      (settleBatch (n.store (site opened)) (surroundings cell) routes.lift events commitId
        headers strategy threshold)
      (settleBatch (n.store (site opened)) (surroundings cell) routes.lift events commitId'
        headers strategy threshold) := by
  unfold settleBatch
  by_cases hlarge : threshold < domainCount events
  · simp only [if_pos hlarge]
    refine .bind .entity fun e e' hakin => ?_
    refine .bind (.store (twin_freeze hakin.timeline)) fun _ _ _ => ?_
    refine .bind (twin_mergeAndWrite ..).outcome fun result result' hresult => ?_
    refine .bind .entity fun e e' hakin => ?_
    refine .bind (TwinStep.store (twin_unfreeze hakin.timeline)).outcome
      fun released released' hreleased => ?_
    rw [agree_eq] at hresult hreleased
    subst hresult hreleased
    split
    · exact .pure rfl
    · exact .throw _
    · exact .throw _
  · simp only [if_neg hlarge]
    exact twin_mergeAndWrite ..

private theorem twin_leave (settled : Bool) (waiting : Nat) (pulled : List (Staged ConflictBatch))
    (result : Except ResolveError Resolution) :
    let rest : Resolving (StateM World) S Resolution := do
      let stream := (← Resolving.entity).timeline.stream
      if settled then
        if pulled.length < waiting then
          Resolving.ask ((n.weak (site opened)).schedule stream .zero)
      else if !pulled.isEmpty then
        Resolving.staging
          ((n.weak (site opened)).staging.requeue weakChannel (r.key .domain) pulled)
        Resolving.ask ((n.weak (site opened)).schedule stream (n.weak (site opened)).ageThreshold)
      liftM result
    TwinStep S r Eq rest rest := by
  refine .bind .entity fun e e' hakin => ?_
  rw [← hakin.timeline.stream]
  cases settled with
  | true =>
    by_cases hmore : pulled.length < waiting
    · simp only [if_true, if_pos hmore]
      exact .bind (.ask (twin_schedule hakin.timeline.key _)) fun _ _ _ => .lift result
    · simp only [if_true, if_neg hmore]
      exact .lift result
  | false =>
    simp only [Bool.false_eq_true, if_false]
    by_cases hback : (!pulled.isEmpty) = true
    · simp only [if_pos hback]
      refine .bind (.staging (twin_requeue pulled)) fun _ _ _ => ?_
      exact .bind (.ask (twin_schedule hakin.timeline.key _)) fun _ _ _ => .lift result
    · simp only [if_neg hback]
      exact .lift result

theorem twin_resolveStaged (commitId commitId' : Uuid) (headers : Headers) :
    TwinStep S r Eq ((n.weak (site opened)).resolveStaged routes.lift [] commitId headers)
      ((n.weak (site opened)).resolveStaged routes.lift [] commitId' headers) := by
  unfold WeakResolver.resolveStaged
  refine .bind .entity fun e e' hakin => ?_
  rw [hakin.timeline.key, hakin.timeline.key']
  refine .bind (.staging twin_size) ?_
  rintro waiting _ rfl
  refine .bind (.staging twin_pull) ?_
  rintro pulled _ rfl
  simp only [List.append_nil, List.isEmpty_nil, Bool.not_true, Bool.and_false, Bool.false_and,
    Bool.false_eq_true, if_false]
  by_cases hempty : (stagedEvents pulled).isEmpty = true
  · rw [if_pos hempty, if_pos hempty]
    exact .pure rfl
  · rw [if_neg hempty, if_neg hempty]
    refine .bind (twin_settleBatch ..).outcome fun result result' hresult => ?_
    rw [agree_eq] at hresult
    subst hresult
    cases result with
    | ok resolution => exact twin_leave true waiting pulled (.ok resolution)
    | error err => exact twin_leave false waiting pulled (.error err)

/-- A stream is handled, whatever the names, and whatever there is besides the stream. -/
theorem twin_handleStaged (n : Node) (opened : Moment) (routes : Routes Id S) (r : StreamRef) :
    Twin r Eq ((n.weak (site opened)).handleStaged routes.lift r)
      ((n.weak (site opened)).handleStaged routes.lift r) := by
  unfold WeakResolver.handleStaged
  refine .bind (twin_loadEntity routes) fun loaded loaded' hloaded => ?_
  cases loaded <;> cases loaded'
  · rename_i err err'
    obtain rfl : err = err' := hloaded
    by_cases hagain : err.toResolve.isTransient = true
    · simp only [if_pos hagain]
      exact .bind (twin_schedule rfl _) fun _ _ _ => .pure rfl
    · simp only [if_neg hagain]
      exact .pure rfl
  · cases hloaded
  · cases hloaded
  · rename_i e e'
    refine .bind twin_freshId fun commitId commitId' _ => ?_
    refine .bind (p := fun a b => a.1 = b.1) ?_ ?_
    · intro w w' a b u u' hnear hx hy
      obtain ⟨hresult, -, hend⟩ := twin_resolveStaged commitId commitId' ∅ hloaded hnear hx hy
      exact ⟨agree_eq.1 hresult, hend⟩
    · rintro ⟨result, e⟩ ⟨_, e'⟩ rfl
      exact .pure rfl

end Merging

end World

end Chronicle
