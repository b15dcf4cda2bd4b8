import Chronicle.Proofs.Serving

/-!
# Timelines drawn from a log

What a node caches, and what an entity in use has settled, was read from the log or written there.
As long as what is stored can be read, a timeline that was drawn from the log can therefore be made
an entity again, whoever cached it and however outdated it is.

`Works` says what loading, merging and writing have in common: every timeline is drawn from the log
still, which has only grown, no time has passed, and nothing was staged.
-/

namespace Chronicle

variable {S : Type} {log log' : EventLog}

namespace EventLog

/-- What is stored for a stream can be read: its events by their handle routes, and the states that
its snapshots record. -/
structure Decodes {m : Type → Type} (log : EventLog) (routes : Routes m S) (stream : StreamRef) :
    Prop where
  events : ∀ event ∈ log.events (stream.key .domain), routes.Reads event
  snapshots : ∀ record ∈ log.events (stream.key .snapshot),
    ∃ s, Snapshot.decode record.payload = .ok s ∧ routes.Restores s

theorem Decodes.of_grows {m : Type → Type} {routes : Routes m S} {stream : StreamRef}
    (h : log'.Decodes routes stream) (hg : ∀ key, log.events key <+: log'.events key) :
    log.Decodes routes stream where
  events event hevent := h.events event ((hg _).subset hevent)
  snapshots record hrecord := h.snapshots record ((hg _).subset hrecord)

end EventLog

/-- What is settled in the timeline is stored, and so is the snapshot that it starts from. -/
structure Timeline.Drawn (t : Timeline) (log : EventLog) : Prop where
  settled : ∀ event ∈ t.settled, ∃ d ∈ log.events (t.key .domain), d.content = event.content
  snapshot : ∀ s ∈ t.snapshot, ∃ record ∈ log.events (t.key .snapshot),
    ∀ s', Snapshot.decode record.payload = .ok s' → s'.memento = s.memento

namespace Timeline.Drawn

variable {t t' : Timeline} {stream : StreamRef}

protected theorem empty (stream : StreamRef) (log : EventLog) :
    (Timeline.empty stream).Drawn log where
  settled := by simp [Timeline.empty, ofHistory]
  snapshot := by simp [Timeline.empty, ofHistory]

theorem of_timeline (h : log.timeline stream = .ok t) : t.stream = stream ∧ t.Drawn log := by
  obtain ⟨snapshot, hs, rfl⟩ := except_map_eq_ok.1 h
  refine ⟨rfl, fun event hevent => ⟨event, List.mem_of_mem_filter hevent, rfl⟩, ?_⟩
  rintro s rfl
  obtain ⟨record, hrecord, hd⟩ := EventLog.exists_record hs
  refine ⟨record, hrecord, fun s' hs' => ?_⟩
  cases hd.symm.trans hs'
  rfl

protected theorem mono (h : t.Drawn log) (hg : ∀ key, log.events key <+: log'.events key) :
    t.Drawn log' where
  settled event hevent := by
    obtain ⟨d, hd, hcontent⟩ := h.settled event hevent
    exact ⟨d, (hg _).subset hd, hcontent⟩
  snapshot s hs := by
    obtain ⟨record, hrecord, hmemento⟩ := h.snapshot s hs
    exact ⟨record, (hg _).subset hrecord, hmemento⟩

theorem continues (h : t.Drawn log) (hc : t.Continues t') : t'.Drawn log where
  settled := by
    rw [hc.settled, key, hc.stream]
    exact h.settled
  snapshot := by
    rw [hc.snapshot, key, hc.stream]
    exact h.snapshot

protected theorem settle (h : t.Drawn log) (hs : Stored log log' t) : t.settle.Drawn log' where
  settled event hevent := by
    rcases List.mem_append.1 hevent with hold | hnew
    · exact (h.mono hs.grows).settled event hold
    · have hentry : event.entry ∈ (log'.events (t.key .domain)).map Event.entry := by
        rw [hs.map_entry_domain]
        exact List.mem_append_right _ (List.mem_map_of_mem hnew)
      obtain ⟨d, hd, he⟩ := List.mem_map.1 hentry
      exact ⟨d, hd, congrArg Prod.snd he⟩
  snapshot s hsnap := by
    change (t.pendingSnapshot <|> t.snapshot) = some s at hsnap
    have hrecord := hs.snapshot
    cases hp : t.pendingSnapshot with
    | none =>
      rw [hp] at hsnap
      exact (h.mono hs.grows).snapshot s hsnap
    | some staged =>
      rw [hp] at hsnap hrecord
      cases hsnap
      obtain ⟨record, hpay, hevents⟩ := hrecord
      refine ⟨record, ?_, fun s' hs' => ?_⟩
      · change record ∈ log'.events (t.key .snapshot)
        simp [hevents]
      · rw [hpay] at hs'
        exact (Snapshot.of_decode_toJson hs').2

/-- If what is stored can be read, a timeline that is drawn from it can be made an entity. -/
theorem exists_ofTimeline {m : Type → Type} {routes : Routes m S} (h : t.Drawn log)
    (hd : log.Decodes routes stream) (hkey : t.key .domain = stream.key .domain) :
    ∃ e, Entity.ofTimeline routes t = .ok e := by
  refine Entity.exists_ofTimeline (fun s hs => ?_) fun event hevent => ?_
  · obtain ⟨record, hrecord, hmemento⟩ := h.snapshot s hs
    rw [Timeline.key, StreamRef.key_eq_key hkey .snapshot] at hrecord
    obtain ⟨s', hs', hrestores⟩ := hd.snapshots record hrecord
    exact (Routes.restores_congr (hmemento s' hs')).1 hrestores
  · obtain ⟨d, hevents, hcontent⟩ := h.settled event hevent
    rw [hkey] at hevents
    exact (Routes.reads_congr hcontent).1 (hd.events d hevents)

end Timeline.Drawn

namespace World

variable {n : Node} {opened : Moment} {w w' w'' : World} {key : String} {t : Timeline}

/-- Every cached timeline is drawn from the log and cached under its own key, and no staged batch
is empty. -/
structure Stocked (w : World) : Prop where
  keyed : ∀ (c : Nat) (key : String) (t : Timeline), (w.cache c)[key]? = some t →
    t.key .domain = key
  drawn : ∀ (c : Nat) (key : String) (t : Timeline), (w.cache c)[key]? = some t → t.Drawn w.log
  staged : ∀ area key, ∀ s ∈ w.queue area key, s.message.events ≠ []

namespace Stocked

protected theorem start (wall : Moment) : (World.start wall).Stocked where
  keyed c key t h := by simp [World.start, cache] at h
  drawn c key t h := by simp [World.start, cache] at h
  staged area key s h := by simp [World.start, queue, World.area] at h

protected theorem mono (h : w.Stocked) (hg : ∀ key, w.log.events key <+: w'.log.events key)
    (hcaches : w'.caches = w.caches) (hareas : w'.areas = w.areas) : w'.Stocked := by
  have hcache : ∀ c, w'.cache c = w.cache c := fun c => by
    rw [cache, hcaches]
    rfl
  refine ⟨fun c => ?_, fun c k t ht => ?_, fun area k => ?_⟩
  · rw [hcache]
    exact h.keyed c
  · rw [hcache] at ht
    exact (h.drawn c k t ht).mono hg
  · rw [queue_eq_of_areas hareas]
    exact h.staged area k

protected theorem forget (h : w.Stocked) (c : Nat) (key : String) : (w.forget c key).Stocked := by
  have hold : ∀ (d : Nat) (k : String) (t : Timeline), ((w.forget c key).cache d)[k]? = some t →
      (w.cache d)[k]? = some t := by
    intro d k t ht
    rw [getElem?_cache_forget] at ht
    split at ht
    · cases ht
    · exact ht
  exact ⟨fun d k t ht => h.keyed d k t (hold d k t ht),
    fun d k t ht => h.drawn d k t (hold d k t ht), h.staged⟩

protected theorem remember (h : w.Stocked) (c : Nat) (hkey : t.key .domain = key)
    (ht : t.Drawn w.log) : (w.remember c key t).Stocked := by
  have hnew : ∀ (d : Nat) (k : String) (s : Timeline), ((w.remember c key t).cache d)[k]? = some s →
      k = key ∧ s = t ∨ (w.cache d)[k]? = some s := by
    intro d k s hs
    rw [getElem?_cache_remember] at hs
    split at hs
    · rename_i hk
      cases hs
      exact .inl ⟨hk.2, rfl⟩
    · exact .inr hs
  refine ⟨fun d k s hs => ?_, fun d k s hs => ?_, h.staged⟩
  · rcases hnew d k s hs with ⟨rfl, rfl⟩ | hold
    · exact hkey
    · exact h.keyed d k s hold
  · rcases hnew d k s hs with ⟨-, rfl⟩ | hold
    · exact ht
    · exact h.drawn d k s hold

/-- What a node is given for a stream is drawn from the log and has the key of the stream. -/
theorem view (h : w.Stocked) {c : Nat} {stream : StreamRef} (hv : w.view c stream = .ok t) :
    t.key .domain = stream.key .domain ∧ t.Drawn w.log := by
  unfold World.view at hv
  cases hc : (w.cache c)[stream.key .domain]? with
  | some s =>
    simp only [hc, Except.ok.injEq] at hv
    subst hv
    exact ⟨h.keyed c _ s hc, h.drawn c _ s hc⟩
  | none =>
    simp only [hc] at hv
    obtain ⟨rfl, hdrawn⟩ := Timeline.Drawn.of_timeline hv
    exact ⟨rfl, hdrawn⟩

protected theorem viewed (h : w.Stocked) (c : Nat) (stream : StreamRef) :
    (w.viewed c stream).Stocked := by
  unfold World.viewed
  split
  · rename_i t hc ht
    have hv : w.view c stream = .ok t := by simp [World.view, hc, ht]
    obtain ⟨hkey, hdrawn⟩ := h.view hv
    exact h.remember c hkey hdrawn
  · exact h

protected theorem restaged (h : w.Stocked) (a : Nat) (key : String)
    {messages : List (Staged ConflictBatch)} (hm : ∀ s ∈ messages, s.message.events ≠ []) :
    (w.restaged a key messages).Stocked := by
  refine ⟨h.keyed, h.drawn, fun b k s hs => ?_⟩
  by_cases hb : b = a
  · subst hb
    by_cases hk : k = key
    · rw [hk, queue_restaged] at hs
      exact hm s hs
    · rw [queue_restaged_of_ne _ _ hk] at hs
      exact h.staged b k s hs
  · rw [queue, area_restaged, if_neg hb] at hs
    exact h.staged b k s hs

/-- What a node loads is drawn from the log and has the key of the stream. -/
theorem loaded (h : w.Stocked) {m : Type → Type} {routes : Routes m S} {c : Nat}
    {stream : StreamRef} {e : Entity S} (hl : w.loaded c routes stream = .ok e) :
    e.timeline.key .domain = stream.key .domain ∧ e.timeline.Drawn w.log :=
  h.view (view_of_loaded hl)

theorem isTransient_of_loaded (h : w.Stocked) {m : Type → Type} {routes : Routes m S} {c : Nat}
    {stream : StreamRef} {err : LoadError} (hd : w.log.Decodes routes stream)
    (hl : w.loaded c routes stream = .error err) : err.toResolve.isTransient = true := by
  unfold World.loaded at hl
  cases hv : w.view c stream with
  | error cause =>
    simp only [hv, Except.error.injEq] at hl
    subst hl
    exact ResolveError.isTransient_ofStore cause
  | ok t =>
    obtain ⟨hkey, hdrawn⟩ := h.view hv
    obtain ⟨e, he⟩ := hdrawn.exists_ofTimeline hd hkey
    simp [hv, he, Except.mapError] at hl

end Stocked

namespace Simultaneous

theorem refl (w : World) : w.Simultaneous w := ⟨rfl, rfl, rfl⟩

theorem trans (h : w.Simultaneous w') (h' : w'.Simultaneous w'') : w.Simultaneous w'' where
  wall := h'.wall.trans h.wall
  elapsed := h'.elapsed.trans h.elapsed
  agendas := h'.agendas.trans h.agendas

theorem viewed (w : World) (c : Nat) (stream : StreamRef) : w.Simultaneous (w.viewed c stream) := by
  unfold World.viewed
  split <;> exact ⟨rfl, rfl, rfl⟩

end Simultaneous

/-- From one world to a later one whose timelines are drawn from its log, too: the log has only
grown, no time has passed, and nothing was staged. -/
structure Works (w w' : World) : Prop where
  stocked : w'.Stocked
  grows : ∀ key, w.log.events key <+: w'.log.events key
  areas : w'.areas = w.areas
  time : w.Simultaneous w'

namespace Works

theorem refl (h : w.Stocked) : w.Works w := ⟨h, fun _ => List.prefix_refl _, rfl, .refl w⟩

theorem trans (h : w.Works w') (h' : w'.Works w'') : w.Works w'' where
  stocked := h'.stocked
  grows key := (h.grows key).trans (h'.grows key)
  areas := h'.areas.trans h.areas
  time := h.time.trans h'.time

theorem viewed (h : w.Stocked) (c : Nat) (stream : StreamRef) : w.Works (w.viewed c stream) where
  stocked := h.viewed c stream
  grows key := by simp
  areas := areas_viewed ..
  time := .viewed ..

theorem issued (h : w.Stocked) (i : Nat) : w.Works (w.logged i w.log) :=
  ⟨⟨h.keyed, h.drawn, h.staged⟩, fun _ => List.prefix_refl _, rfl, rfl, rfl, rfl⟩

theorem annotated (h : w.Stocked) (data : Std.ExtTreeMap String (Int × StreamMetadata)) :
    w.Works (w.annotated data) :=
  ⟨h.mono (fun _ => List.prefix_refl _) rfl rfl, fun _ => List.prefix_refl _, rfl, rfl, rfl, rfl⟩

theorem forget (h : w.Stocked) (c : Nat) (key : String) : w.Works (w.forget c key) :=
  ⟨h.forget c key, fun _ => List.prefix_refl _, rfl, rfl, rfl, rfl⟩

/-- What was pending is stored, after which something else may be cached. -/
theorem stored (h : w.Stocked) (i : Nat) (hs : Stored w.log log t) : w.Works (w.logged i log) :=
  ⟨h.mono hs.grows rfl rfl, hs.grows, rfl, rfl, rfl, rfl⟩

theorem wrote {r : Except StoreError Int} (h : w.Stocked) (ht : t.Drawn w.log)
    (hw : Wrote n w t r w') : w.Works w' ∧ ∀ v, r = .ok v → t.settle.Drawn w'.log := by
  cases hw with
  | held => exact ⟨.refl h, nofun⟩
  | conflict => exact ⟨.forget h .., nofun⟩
  | @stored i log hversion hstored =>
    have hlogged := Works.stored h i hstored
    have hsettled := ht.settle hstored
    exact ⟨⟨hlogged.stocked.remember n.cache rfl hsettled, hstored.grows, rfl, rfl, rfl, rfl⟩,
      fun _ _ => hsettled⟩

theorem appended {r : Except StoreError Int} (h : w.Stocked) (ht : t.Drawn w.log)
    (ha : Appended n w t r w') : w.Works w' ∧ ∀ v, r = .ok v → t.settle.Drawn w'.log := by
  cases ha with
  | held => exact ⟨.forget h .., nofun⟩
  | @stored i log hstored =>
    have hlogged := Works.stored h i hstored
    exact ⟨hlogged.trans (.forget hlogged.stocked ..), fun _ _ => ht.settle hstored⟩

end Works

/-- The same, where the entity `d`, which is drawn from the log, too, came of the entity `e`. -/
structure Yields (w w' : World) (e d : Entity S) : Prop extends Works w w' where
  drawn : d.timeline.Drawn w'.log
  stream : d.timeline.stream = e.timeline.stream

variable {routes : Routes Id S} {events : List Event} {commitId : Uuid} {headers : Headers}
  {threshold : Nat} {e d : Entity S} {r : Except ResolveError Resolution}

theorem Yields.key_domain (h : w.Yields w' e d) :
    d.timeline.key .domain = e.timeline.key .domain := by
  rw [Timeline.key, Timeline.key, h.stream]

theorem yields_of_course (h : MergeCourse (n.store (site opened)) (surroundings cell) unnumbered
      routes events commitId headers e w r d w') (hs : w.Stocked) (he : e.timeline.Drawn w.log) :
    w.Yields w' e d := by
  cases h with
  | stopped _ hcontinues hsame =>
    rw [eq_logged_of_unnumbered hsame]
    exact ⟨.issued hs _, he.continues hcontinues, hcontinues.stream⟩
  | nothing hmerges _ hsame =>
    rw [eq_logged_of_unnumbered hsame]
    exact ⟨.issued hs _, he.continues hmerges.continues, hmerges.continues.stream⟩
  | @refused _ _ _ _ w₁ _ hmerges hsame hwrite =>
    rw [eq_logged_of_unnumbered hsame] at hwrite
    have hissued := Works.issued hs w₁.issued
    have hd := he.continues hmerges.continues
    obtain ⟨hworks, -⟩ := Works.wrote hissued.stocked hd (wrote_of_runs hwrite)
    exact ⟨hissued.trans hworks, hd.mono hworks.grows, hmerges.continues.stream⟩
  | @stored _ _ _ _ w₁ _ hmerges hsame hwrite =>
    rw [eq_logged_of_unnumbered hsame] at hwrite
    have hissued := Works.issued hs w₁.issued
    have hd := he.continues hmerges.continues
    obtain ⟨hworks, hsettled⟩ := Works.wrote hissued.stocked hd (wrote_of_runs hwrite)
    exact ⟨hissued.trans hworks, hsettled _ rfl, hmerges.continues.stream⟩

theorem yields_of_settleBatch {strategy : ConflictStrategy}
    (h : Resolves (settleBatch (n.store (site opened)) (surroundings cell) routes.lift events
      commitId headers strategy threshold) e w r d w') (hs : w.Stocked)
    (he : e.timeline.Drawn w.log) : w.Yields w' e d := by
  cases course_of_settleBatch unobserved_surroundings h with
  | light _ hmerge => exact yields_of_course hmerge hs he
  | barred hfreeze =>
    obtain ⟨data, rfl⟩ := runs_freeze hfreeze
    have hfrozen := Works.annotated hs data
    exact ⟨hfrozen, he.mono hfrozen.grows, rfl⟩
  | @released _ _ w₁ w₂ _ _ hfreeze hmerge hrelease =>
    obtain ⟨data, rfl⟩ := runs_freeze hfreeze
    obtain ⟨-, data', rfl⟩ := runs_unfreeze hrelease
    have hfrozen := Works.annotated hs data
    have hmerged := yields_of_course hmerge hfrozen.stocked (he.mono hfrozen.grows)
    have hreleased := Works.annotated hmerged.stocked data'
    exact ⟨(hfrozen.trans hmerged.toWorks).trans hreleased, hmerged.drawn.mono hreleased.grows,
      hmerged.stream⟩
  | stuck _ _ _ hrelease => cases (runs_unfreeze hrelease).1

theorem works_of_ignoring
    (h : Resolves ((Resolver.ignoring (n.store (site opened)) (surroundings cell)).resolve
      routes.lift events commitId headers) e w r d w') (hs : w.Stocked)
    (he : e.timeline.Drawn w.log) :
    w.Works w' ∧ ∀ resolution, r = .ok resolution → d.timeline.Drawn w'.log := by
  cases course_of_ignoring unobserved_surroundings h with
  | stopped hsame =>
    rw [eq_logged_of_unnumbered hsame]
    exact ⟨.issued hs _, nofun⟩
  | nothing htakes _ hsame =>
    rw [eq_logged_of_unnumbered hsame]
    exact ⟨.issued hs _, fun _ _ => he.continues htakes.continues⟩
  | @refused _ _ w₁ _ hsame happend =>
    rw [eq_logged_of_unnumbered hsame] at happend
    have hissued := Works.issued hs w₁.issued
    cases appended_of_runs happend with
    | held => exact ⟨hissued.trans (.forget hissued.stocked ..), nofun⟩
  | @stored _ _ w₁ _ htakes _ hsame happend =>
    rw [eq_logged_of_unnumbered hsame] at happend
    have hissued := Works.issued hs w₁.issued
    have hd := he.continues htakes.continues
    obtain ⟨hworks, hsettled⟩ := Works.appended hissued.stocked hd (appended_of_runs happend)
    exact ⟨hissued.trans hworks, fun _ _ => hsettled _ rfl⟩

end World

end Chronicle
