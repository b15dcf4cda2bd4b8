import Chronicle.Proofs.Histories

/-!
# Who signs what is stored

A write gives the events that it stores the headers of its commit, with the identifier of the
commit among them. A staged batch keeps neither, so what becomes of it depends on the write that
stores it: it carries the headers of another commit if it is merged along with that one's batch,
and an identifier alone if a worker merges it, or a commit that failed to merge its own batch.
-/

namespace Chronicle

variable {S : Type}

/-- The keys under which callers store events, domain or out of band. -/
def EventKey (key : String) : Prop :=
  (∃ stream : StreamRef, key = stream.key .domain) ∨
    ∃ (stream : StreamRef) (channel : String), key = stream.channelKey channel

/-- An event that carries just the headers of a commit, with the commit's identifier, and says what
one of the source says. -/
structure Event.Signed (headers : Headers) (commitId : Uuid) (source : Event → Prop)
    (event : Event) : Prop where
  commitHeaders_eq : event.commitHeaders = headers.insert Headers.commitId commitId.text
  copied : ∃ original, source original ∧ original.entry = event.entry

theorem Event.Signed.mono {headers : Headers} {commitId : Uuid} {source source' : Event → Prop}
    {event : Event} (h : event.Signed headers commitId source)
    (hs : ∀ original, source original → ∃ again, source' again ∧ again.entry = original.entry) :
    event.Signed headers commitId source' := by
  obtain ⟨hheaders, original, horiginal, hentry⟩ := h
  obtain ⟨again, hagain, hsame⟩ := hs original horiginal
  exact ⟨hheaders, again, hagain, hsame.trans hentry⟩

theorem Event.Signed.imp {headers : Headers} {commitId : Uuid} {source source' : Event → Prop}
    {event : Event} (h : event.Signed headers commitId source)
    (hs : ∀ original, source original → source' original) :
    event.Signed headers commitId source' :=
  h.mono fun original horiginal => ⟨original, hs original horiginal, rfl⟩

namespace EventLog

theorem of_mem_stamped {version : Int} {time : Moment} {headers : Headers} {ids : List Uuid}
    {events : List Event} {event : Event}
    (h : event ∈ stamped version time headers ids events) :
    event.commitHeaders = headers ∧ ∃ original ∈ events, original.entry = event.entry := by
  induction events generalizing version ids with
  | nil => cases h
  | cons first rest ih =>
    rcases List.mem_cons.1 h with rfl | h
    · exact ⟨rfl, first, List.mem_cons_self .., rfl⟩
    · obtain ⟨hheaders, original, hmem, hentry⟩ := ih h
      exact ⟨hheaders, original, List.mem_cons_of_mem _ hmem, hentry⟩

/-- `log'` is `log` with events that have a property behind those of callers. -/
def Gains (log log' : EventLog) (p : Event → Prop) : Prop :=
  ∀ key, EventKey key →
    ∃ added, log'.events key = log.events key ++ added ∧ ∀ event ∈ added, p event

namespace Gains

variable {log log' log'' : EventLog} {p q : Event → Prop}

theorem of_streams (h : log'.streams = log.streams) : log.Gains log' p := by
  intro key _
  exact ⟨[], by rw [events_congr h, List.append_nil], by simp⟩

theorem refl (log : EventLog) : log.Gains log p := of_streams rfl

theorem trans (h : log.Gains log' p) (h' : log'.Gains log'' p) : log.Gains log'' p := by
  intro key hkey
  obtain ⟨xs, hxs, hp⟩ := h key hkey
  obtain ⟨ys, hys, hp'⟩ := h' key hkey
  refine ⟨xs ++ ys, by rw [hys, hxs, List.append_assoc], fun event hevent => ?_⟩
  exact (List.mem_append.1 hevent).elim (hp event) (hp' event)

theorem mono (h : log.Gains log' p) (hpq : ∀ event, p event → q event) : log.Gains log' q := by
  intro key hkey
  obtain ⟨added, hadded, hp⟩ := h key hkey
  exact ⟨added, hadded, fun event hevent => hpq event (hp event hevent)⟩

theorem located (h : log.Gains log' p) : log.Gains log' fun event =>
    p event ∧ ∃ key, EventKey key ∧ event ∈ (log'.events key).drop (log.events key).length := by
  intro key hkey
  obtain ⟨added, hadded, hp⟩ := h key hkey
  refine ⟨added, hadded, fun event hevent => ⟨hp event hevent, key, hkey, ?_⟩⟩
  rw [hadded, List.drop_left]
  exact hevent

theorem append (log : EventLog) (key : String) (events : NonEmptyList Event) {headers : Headers}
    (ids : List Uuid) (time : Moment)
    (hp : EventKey key → ∀ event, event.commitHeaders = headers →
      (∃ original ∈ events.1, original.entry = event.entry) → p event) :
    log.Gains (log.append key events headers ids time).2 p := by
  intro other hother
  by_cases hk : other = key
  · subst hk
    refine ⟨_, events_append_self .., fun event hevent => ?_⟩
    obtain ⟨hheaders, hcopied⟩ := of_mem_stamped hevent
    exact hp hother event hheaders hcopied
  · exact ⟨[], by rw [events_append_of_ne log hk, List.append_nil], by simp⟩

end Gains

end EventLog

theorem not_eventKey_snapshot (stream : StreamRef) : ¬ EventKey (stream.key .snapshot) := by
  rintro (⟨other, h⟩ | ⟨other, channel, h⟩)
  · exact StreamRef.key_ne_key _ _ (by decide) h
  · exact StreamRef.key_ne_channelKey _ _ (by decide) _ h

theorem Timeline.mem_batch_of_oobBatches {t : Timeline} {batch : String × List Event}
    (h : batch ∈ t.oobBatches) : ∀ event ∈ batch.2, event ∈ t.batch := by
  intro event hevent
  obtain ⟨c, -, hc⟩ := List.mem_filterMap.1 h
  cases ho : t.oobsOf c.id with
  | nil => simp [ho] at hc
  | cons e es =>
    simp only [ho, Option.some.injEq] at hc
    rw [← hc, ← ho] at hevent
    exact List.mem_append_right _ (List.mem_filter.1 hevent).1

namespace Instance

open World

variable {k : Instance} {opened : Moment} {w w' : World} {headers : Headers} {p : Event → Prop}

private theorem gains_bind {α β : Type} {x : ExceptT StoreError (StateM World) α}
    {f : α → ExceptT StoreError (StateM World) β} {r : Except StoreError β}
    (h : Runs (x >>= f).run w r w')
    (hx : ∀ a w₁, Runs x.run w a w₁ → w.log.Gains w₁.log p)
    (hf : ∀ a w₁, Runs (f a).run w₁ r w' → w₁.log.Gains w'.log p) : w.log.Gains w'.log p := by
  rcases runs_except_bind.1 h with ⟨err, hfirst, -⟩ | ⟨a, w₁, hfirst, hrest⟩
  · exact hx _ _ hfirst
  · exact (hx _ _ hfirst).trans (hf a w₁ hrest)

theorem gains_write {key : String} {events : NonEmptyList Event} {expected : Option Int}
    {r : Except StoreError Int}
    (hp : EventKey key → ∀ event, event.commitHeaders = headers →
      (∃ original ∈ events.1, original.entry = event.entry) → p event)
    (h : Runs (ExceptT.run ((site opened).events.write key events headers expected)) w r w') :
    w.log.Gains w'.log p := by
  rcases runs_write h with ⟨_, -, -, rfl⟩ | ⟨-, i, ids, -, rfl⟩
  · exact .refl _
  · exact .append _ _ _ _ _ hp

theorem gains_writeOobs {batches : List (String × List Event)} {r : Except StoreError Unit}
    (hp : ∀ event, event.commitHeaders = headers →
      (∃ batch ∈ batches, ∃ original ∈ batch.2, original.entry = event.entry) → p event)
    (h : Runs ((k.cached opened).writeOobs headers batches).run w r w') :
    w.log.Gains w'.log p := by
  induction batches generalizing w with
  | nil =>
    obtain ⟨-, rfl⟩ := runs_except_pure.1 h
    exact .refl _
  | cons batch rest ih =>
    obtain ⟨key, events⟩ := batch
    have hrest : ∀ {w₁ : World}, Runs ((k.cached opened).writeOobs headers rest).run w₁ r w' →
        w₁.log.Gains w'.log p := by
      refine fun hw => ih (fun event hheaders hcopied => hp event hheaders ?_) hw
      obtain ⟨batch, hbatch, hcopied⟩ := hcopied
      exact ⟨batch, List.mem_cons_of_mem _ hbatch, hcopied⟩
    simp only [CachedStore.writeOobs, events_cached] at h
    cases events with
    | nil => exact hrest (by simpa only [NonEmptyList.ofList?, pure_bind] using h)
    | cons e es =>
      simp only [NonEmptyList.ofList?] at h
      refine gains_bind h (fun a w₁ hw => ?_) fun _ w₁ hw => hrest hw
      obtain ⟨v, hw, -⟩ := runs_except_discard.1 hw
      refine gains_write (fun _ event hheaders hcopied => hp event hheaders ?_) hw
      exact ⟨(key, e :: es), List.mem_cons_self .., hcopied⟩

/-- After the domain events, the out-of-band events are signed, and the snapshot is stored. -/
private theorem gains_storeRest {commitId : Uuid} {t : Timeline} {v : Int}
    {r : Except StoreError Int}
    (h : Runs ((k.cached opened).storeRest t
      (headers.insert Headers.commitId commitId.text) v).run w r w') :
    w.log.Gains w'.log (Event.Signed headers commitId (· ∈ t.batch)) := by
  have hoobs : ∀ {w₂ w₃ : World} {a : Except StoreError Unit},
      Runs ((k.cached opened).writeOobs (headers.insert Headers.commitId commitId.text)
        t.oobBatches).run w₂ a w₃ →
      w₂.log.Gains w₃.log (Event.Signed headers commitId (· ∈ t.batch)) := by
    refine fun hw => gains_writeOobs ?_ hw
    rintro event hheaders ⟨batch, hbatch, original, horiginal, hentry⟩
    exact ⟨hheaders, original, Timeline.mem_batch_of_oobBatches hbatch _ horiginal, hentry⟩
  have hsnapshot : ∀ {w₂ w₃ : World} {events : NonEmptyList Event} {a : Except StoreError Int},
      Runs (ExceptT.run ((site opened).events.write (t.key .snapshot) events
        (headers.insert Headers.commitId commitId.text) none)) w₂ a w₃ →
      w₂.log.Gains w₃.log (Event.Signed headers commitId (· ∈ t.batch)) :=
    gains_write fun hkey => absurd hkey (not_eventKey_snapshot _)
  unfold CachedStore.storeRest at h
  refine gains_bind h (fun _ _ hw => hoobs hw) fun _ w₁ h => ?_
  cases hs : t.pendingSnapshot with
  | none =>
    rw [hs] at h
    rw [(runs_except_pure.1 h).2]
    exact .refl _
  | some s =>
    rw [hs] at h
    obtain ⟨id, w₂, hid, h⟩ := runs_except_monadLift_bind.1 h
    obtain ⟨i, rfl⟩ := runs_freshId hid
    refine gains_bind (w := w₁.logged i w₁.log) h (fun _ _ hw => ?_) fun _ _ hw => ?_
    · obtain ⟨v, hw, -⟩ := runs_except_discard.1 hw
      exact hsnapshot hw
    · rw [(runs_except_pure.1 hw).2]
      exact .refl _

theorem gains_store {commitId : Uuid} {t : Timeline} {expected : Option Int}
    {r : Except StoreError Int}
    (h : Runs ((k.cached opened).store commitId t headers expected).run w r w') :
    w.log.Gains w'.log (Event.Signed headers commitId (· ∈ t.batch)) := by
  rw [CachedStore.store_eq] at h
  refine gains_bind h (fun a w₁ hw => ?_) fun _ w₁ h => ?_
  · rw [(runs_ensureWritable.1 hw).2]
    exact .refl _
  cases hp : t.pending with
  | nil =>
    simp only [hp, NonEmptyList.ofList?, pure_bind] at h
    exact gains_storeRest h
  | cons e es =>
    simp only [hp, NonEmptyList.ofList?] at h
    refine gains_bind h (fun _ _ hw => gains_write ?_ hw) fun _ _ hw => gains_storeRest hw
    rintro - event hheaders ⟨original, horiginal, hentry⟩
    exact ⟨hheaders, original, List.mem_append_left _ (hp ▸ horiginal), hentry⟩

end Instance

/-- A timeline that took in a batch holds copies of it, if nothing was pending before. -/
theorem Timeline.copied_of_entries {t t' : Timeline} {events kept : List Event}
    (hclean : t.dirty = false) (hkept : ∀ event ∈ kept, event ∈ events)
    (hpending : t'.pending.map Event.entry = t.pending.map Event.entry ++ kept.map Event.entry)
    (hoobs : t'.pendingOobs.map Event.entry =
      t.pendingOobs.map Event.entry ++ (raised events).map Event.entry) :
    ∀ event ∈ t'.batch, ∃ original ∈ events, original.entry = event.entry := by
  obtain ⟨hnone, hnoOobs⟩ := List.append_eq_nil_iff.1 (Timeline.batch_eq_nil hclean)
  rw [hnone] at hpending
  rw [hnoOobs] at hoobs
  intro event hevent
  rcases List.mem_append.1 hevent with hevent | hevent
  · have hentry := List.mem_map_of_mem (f := Event.entry) hevent
    rw [hpending] at hentry
    obtain ⟨original, horiginal, hsame⟩ := List.mem_map.1 hentry
    exact ⟨original, hkept _ horiginal, hsame⟩
  · have hentry := List.mem_map_of_mem (f := Event.entry) hevent
    rw [hoobs] at hentry
    obtain ⟨original, horiginal, hsame⟩ := List.mem_map.1 hentry
    exact ⟨original, (List.mem_filter.1 horiginal).1, hsame⟩

theorem Entity.Merges.copied {routes : Routes Id S} {drawn : Moment → Prop} {e d : Entity S}
    {events kept dropped : List Event} (h : e.Merges routes drawn events d kept dropped)
    (hclean : e.timeline.dirty = false) :
    ∀ event ∈ d.timeline.batch, ∃ original ∈ events, original.entry = event.entry := by
  refine Timeline.copied_of_entries hclean (fun event hevent => ?_) h.pending h.oobs
  have hdomain := h.replays.perm.subset (List.mem_append_left dropped hevent)
  exact (List.mem_filter.1 hdomain).1

namespace World

/-- An event is part of a batch that is staged in an area. -/
def HasStaged (w : World) (area : Nat) (event : Event) : Prop :=
  ∃ key, event ∈ stagedEvents (w.queue area key)

theorem hasStaged_congr {w w' : World} (h : w'.areas = w.areas) (area : Nat) (event : Event) :
    w'.HasStaged area event ↔ w.HasStaged area event := by
  simp only [HasStaged, queue_eq_of_areas h]

/-- The log has gained `stored` events, and nothing but `staged` events has been staged. -/
structure Admits (area : Nat) (w w' : World) (stored staged : Event → Prop) : Prop where
  events : w.log.Gains w'.log stored
  queues : ∀ event, w'.HasStaged area event → w.HasStaged area event ∨ staged event

namespace Admits

variable {area : Nat} {w w' w'' : World} {p q s s' : Event → Prop}

theorem of_gains (hgains : w.log.Gains w'.log p) (hareas : w'.areas = w.areas) :
    w.Admits area w' p s where
  events := hgains
  queues event hevent := .inl ((hasStaged_congr hareas area event).1 hevent)

theorem of_same (hstreams : w'.log.streams = w.log.streams) (hareas : w'.areas = w.areas) :
    w.Admits area w' p s :=
  of_gains (.of_streams hstreams) hareas

theorem refl (w : World) : w.Admits area w p s := of_same rfl rfl

theorem of_idle (h : w.Idle w') : w.Admits area w' p s := of_same h.streams h.areas

theorem viewed (w : World) (c : Nat) (stream : StreamRef) :
    w.Admits area (w.viewed c stream) p s :=
  of_same (by rw [log_viewed]) (areas_viewed ..)

theorem trans (h : w.Admits area w' p s) (h' : w'.Admits area w'' p s) :
    w.Admits area w'' p s where
  events := h.events.trans h'.events
  queues event hevent := (h'.queues event hevent).elim (h.queues event) .inr

theorem mono (h : w.Admits area w' p s) (hpq : ∀ event, p event → q event)
    (hs : ∀ event, s event → w.HasStaged area event ∨ s' event) : w.Admits area w' q s' where
  events := h.events.mono hpq
  queues event hevent := (h.queues event hevent).elim .inl (hs event)

theorem restaged (w : World) (key : String) {messages : List (Staged ConflictBatch)}
    (hm : ∀ event ∈ stagedEvents messages, w.HasStaged area event ∨ s event) :
    w.Admits area (w.restaged area key messages) p s where
  events := .refl _
  queues := by
    rintro event ⟨other, hevent⟩
    by_cases hk : other = key
    · subst hk
      rw [queue_restaged] at hevent
      exact hm event hevent
    · rw [queue_restaged_of_ne w area hk] at hevent
      exact .inl ⟨other, hevent⟩

end Admits

variable {n : Node} {opened : Moment} {w w' : World} {area : Nat} {routes : Routes Id S}
  {events batch current : List Event} {commitId : Uuid} {headers : Headers} {e e' d : Entity S}
  {strategy : ConflictStrategy} {p s : Event → Prop}

theorem admits_write {t : Timeline} {r : Except StoreError Int}
    (h : Runs ((n.store (site opened)).write commitId t headers) w r w') :
    w.Admits area w' (Event.Signed headers commitId (· ∈ t.batch)) s := by
  have hareas : w'.areas = w.areas := by cases wrote_of_runs h <;> rfl
  refine .of_gains ?_ hareas
  change Runs ((n.asInstance.cached opened).write commitId t headers).run w r w' at h
  obtain ⟨w₁, hstore, rfl | ⟨f, u, hcache⟩⟩ := CachedStore.store_of_write h
  · exact Instance.gains_store hstore
  · have hgains := Instance.gains_store hstore
    rw [Instance.cache_cached, runs_cache_modify] at hcache
    rw [hcache]
    exact hgains

theorem admits_append {t : Timeline} {r : Except StoreError Int}
    (h : Runs ((n.store (site opened)).append commitId t headers) w r w') :
    w.Admits area w' (Event.Signed headers commitId (· ∈ t.batch)) s := by
  have hareas : w'.areas = w.areas := by cases appended_of_runs h <;> rfl
  refine .of_gains ?_ hareas
  change Runs ((n.asInstance.cached opened).append commitId t headers).run w r w' at h
  obtain ⟨w₁, hstore, f, u, hcache⟩ := CachedStore.store_of_append h
  have hgains := Instance.gains_store hstore
  rw [Instance.cache_cached, runs_cache_modify] at hcache
  rw [hcache]
  exact hgains

theorem Merged.admits {drawn : Moment → Prop} {err : ResolveError}
    (h : Merged n drawn routes events e w (.error err) e' w') : w.Admits area w' p s := by
  cases h with
  | failed _ hidle => exact .of_idle hidle
  | outdated _ _ hidle => exact .of_same hidle.streams hidle.areas

theorem Merged.consistent_of_error {drawn : Moment → Prop} {err : ResolveError}
    (h : Merged n drawn routes events e w (.error err) e' w') (hc : w.Consistent) :
    w'.Consistent := by
  cases h with
  | failed _ hidle => exact hc.idle hidle
  | outdated _ _ hidle => exact (hc.forget ..).idle hidle

private theorem admits_course {r : Except ResolveError Resolution}
    (h : MergeCourse (n.store (site opened)) (surroundings cell) unnumbered routes events commitId
      headers e w r d w') (hclean : e.timeline.dirty = false) :
    w.Admits area w' (Event.Signed headers commitId (· ∈ events)) s := by
  have hissued : ∀ {w₁ : World}, w₁.unnumbered = w.unnumbered →
      w.Admits area w₁ (Event.Signed headers commitId (· ∈ events)) s := by
    intro w₁ hsame
    rw [eq_logged_of_unnumbered hsame]
    exact .of_idle (.issued ..)
  cases h with
  | stopped _ _ hsame => exact hissued hsame
  | nothing _ _ hsame => exact hissued hsame
  | refused hmerges hsame hwrite =>
    exact (hissued hsame).trans ((admits_write hwrite).mono
      (fun _ hsigned => hsigned.mono (hmerges.copied hclean)) fun _ => .inr)
  | stored hmerges hsame hwrite =>
    exact (hissued hsame).trans ((admits_write hwrite).mono
      (fun _ hsigned => hsigned.mono (hmerges.copied hclean)) fun _ => .inr)

theorem admits_settleBatch {threshold : Nat} {r : Except ResolveError Resolution}
    (h : Resolves (settleBatch (n.store (site opened)) (surroundings cell) routes.lift events
      commitId headers strategy threshold) e w r d w') (hclean : e.timeline.dirty = false) :
    w.Admits area w' (Event.Signed headers commitId (· ∈ events)) s := by
  cases course_of_settleBatch unobserved_surroundings h with
  | light _ hmerge => exact admits_course hmerge hclean
  | barred hfreeze =>
    obtain ⟨data, rfl⟩ := runs_freeze hfreeze
    exact .of_idle (.annotated ..)
  | @released _ _ w₁ w₂ _ _ hfreeze hmerge hrelease =>
    obtain ⟨data, rfl⟩ := runs_freeze hfreeze
    obtain ⟨-, data', rfl⟩ := runs_unfreeze hrelease
    exact ((Admits.of_idle (.annotated w data)).trans (admits_course hmerge hclean)).trans
      (.of_idle (.annotated w₂ data'))
  | stuck _ _ _ hrelease =>
    obtain ⟨hreleased, -⟩ := runs_unfreeze hrelease
    cases hreleased

/-- A batch that is stored behind the newer history is signed by its own commit. -/
theorem admits_ignoring {r : Except ResolveError Resolution}
    (h : Resolves ((Resolver.ignoring (n.store (site opened)) (surroundings cell)).resolve
      routes.lift batch commitId headers) e w r e' w') (hclean : e.timeline.dirty = false)
    (hp : ∀ resolution event, r = .ok resolution →
      event.Signed headers commitId (· ∈ batch) → p event) :
    w.Admits area w' p s := by
  have hissued : ∀ {w₁ : World}, w₁.unnumbered = w.unnumbered → w.Admits area w₁ p s := by
    intro w₁ hsame
    rw [eq_logged_of_unnumbered hsame]
    exact .of_idle (.issued ..)
  cases course_of_ignoring unobserved_surroundings h with
  | stopped hsame => exact hissued hsame
  | nothing _ _ hsame => exact hissued hsame
  | refused hsame happend =>
    cases appended_of_runs happend with
    | held => exact (hissued hsame).trans (.of_same rfl rfl)
  | stored htakes _ hsame happend =>
    have hcopied := Timeline.copied_of_entries hclean
      (fun _ hevent => (List.mem_filter.1 hevent).1) htakes.pending htakes.oobs
    exact (hissued hsame).trans ((admits_append happend).mono
      (fun event hsigned => hp _ event rfl (hsigned.mono hcopied)) fun _ => .inr)

/-- What a commit of a batch signs. One that succeeds signs its batch with its own headers, and also
what is staged, if the node stages batches; one that fails may sign what is staged, but with another
identifier and nothing else. -/
inductive Stores {ε α : Type} (n : Node) (w : World) (batch : List Event) (commitId : Uuid)
    (headers : Headers) (id : Uuid) (event : Event) : Except ε α → Prop where
  | submitted {a : α} (hsigned : event.Signed headers commitId (· ∈ batch)) :
      Stores n w batch commitId headers id event (.ok a)
  | joined {a : α} (hweak : n.settings.strategy = .resolveWeakly)
      (hsigned : event.Signed headers commitId (w.HasStaged n.area)) :
      Stores n w batch commitId headers id event (.ok a)
  | rescued {err : ε} (hweak : n.settings.strategy = .resolveWeakly)
      (hsigned : event.Signed ∅ id (w.HasStaged n.area)) :
      Stores n w batch commitId headers id event (.error err)

/-- What a merge of staged batches signs, together with a current one. -/
private def StoresStaged (w : World) (area : Nat) (current : List Event) (commitId : Uuid)
    (headers : Headers) (id : Uuid) (r : Except ResolveError Resolution) (event : Event) : Prop :=
  match r with
  | .ok _ =>
    event.Signed headers commitId fun original => w.HasStaged area original ∨ original ∈ current
  | .error _ => event.Signed ∅ id (w.HasStaged area)

private theorem admits_unmerged {pulled : List (Staged ConflictBatch)} {stream : StreamRef}
    (h : (n.weak (site opened)).Unmerged routes pulled stream w w') : w.Admits area w' p s := by
  cases h with
  | untried => exact .refl _
  | unloaded hload =>
    obtain ⟨-, rfl⟩ := runs_loadEntity.1 hload
    exact .viewed ..
  | failed hload hid hmerge =>
    obtain ⟨-, rfl⟩ := runs_loadEntity.1 hload
    obtain ⟨i, rfl⟩ := runs_freshId hid
    exact (Admits.viewed ..).trans
      ((Admits.of_idle (.issued ..)).trans (merged_of_settleBatch hmerge).admits)

private theorem admits_resolveStaged {r : Except ResolveError Resolution}
    (h : Resolves ((n.weak (site opened)).resolveStaged routes.lift current commitId headers) e w
      r e' w') (hc : w.Consistent) (hclean : e.timeline.dirty = false) :
    ∃ id, w.Admits n.area w' (w.StoresStaged n.area current commitId headers id r) s := by
  obtain ⟨waiting, pulled, w₁, w₂, hsize, hpull, hcourse⟩ :=
    WeakResolver.course_of_resolveStaged (granting_weak n opened) h
  obtain ⟨-, rfl⟩ := runs_size.1 hsize
  obtain ⟨rest, hqueue, rfl, hpulled, hrest⟩ := pulled_of_runs hc hpull
  have hof : ∀ event ∈ stagedEvents pulled, w₁.HasStaged n.area event := fun event hevent =>
    ⟨e.timeline.key .domain, by
      rw [hqueue, stagedEvents_append]
      exact List.mem_append_left _ hevent⟩
  have hleft : ∀ event ∈ stagedEvents rest, w₁.HasStaged n.area event := fun event hevent =>
    ⟨e.timeline.key .domain, by
      rw [hqueue, stagedEvents_append]
      exact List.mem_append_right _ hevent⟩
  have htaken : ∀ id, w₁.Admits n.area (w₁.restaged n.area (e.timeline.key .domain) rest)
      (w₁.StoresStaged n.area current commitId headers id r) (w₁.HasStaged n.area) := fun _ =>
    .restaged _ _ fun event hevent => .inl (hleft event hevent)
  -- What is staged after the pull was staged before, so it is enough to start from there.
  suffices ∃ id, w₁.Admits n.area w' (w₁.StoresStaged n.area current commitId headers id r)
      (w₁.HasStaged n.area) from
    this.imp fun _ hadmits => hadmits.mono (fun _ hstores => hstores) fun _ => .inl
  cases hcourse with
  | empty => exact ⟨commitId, htaken _⟩
  | together _ hmerge hscheduled =>
    refine ⟨commitId, ((htaken _).trans
      ((admits_settleBatch hmerge hclean).mono ?_ fun _ => .inr)).trans
      (.of_idle (idle_scheduled hscheduled))⟩
    refine fun event hsigned => hsigned.imp fun original horiginal => ?_
    exact (List.mem_append.1 horiginal).imp_left (hof original)
  | @alone _ err id d fresh d' w₃ w₄ w₅ w₆ _ hmerge hfinal hcurrent hload hid hagain hscheduled =>
    have hmerged := merged_of_settleBatch hmerge
    have hc₃ := hmerged.consistent_of_error (hc.restaged n.area _ hrest)
    obtain ⟨hfound, rfl⟩ := runs_loadEntity.1 hload
    obtain ⟨i, rfl⟩ := runs_freshId hid
    obtain ⟨-, -, -, hfresh⟩ := hc₃.loaded hfound.symm
    -- The batches that are merged alone are signed by a commit of their own, with a fresh
    -- identifier.
    have hviewed : w₃.Admits n.area ((w₃.viewed n.cache d.timeline.stream).logged i
        (w₃.viewed n.cache d.timeline.stream).log)
        (w₁.StoresStaged n.area current commitId headers id (.error err)) (w₁.HasStaged n.area) :=
      (Admits.viewed ..).trans (.of_idle (.issued ..))
    refine ⟨id, ((((htaken _).trans hmerged.admits).trans hviewed).trans
      ((admits_settleBatch hagain hfresh).mono ?_ fun _ => .inr)).trans
      (.of_idle (idle_scheduled hscheduled))⟩
    exact fun event hsigned => hsigned.imp hof
  | refused _ _ hmerge =>
    exact ⟨commitId, (htaken _).trans (merged_of_settleBatch hmerge).admits⟩
  | returned _ hmerge halone _ hrequeue hschedule =>
    obtain ⟨-, rfl⟩ := runs_requeue.1 hrequeue
    refine ⟨commitId, ((((htaken _).trans (merged_of_settleBatch hmerge).admits).trans
      (admits_unmerged halone)).trans (.restaged _ _ fun event hevent => ?_)).trans
      (.of_idle (idle_schedule hschedule))⟩
    rw [stagedEvents_append] at hevent
    exact (List.mem_append.1 hevent).elim (fun hevent => .inr (hof event hevent))
      fun hevent => .inl ⟨_, hevent⟩

private theorem admits_weak {r : Except ResolveError Resolution}
    (h : Resolves ((n.weak (site opened)).resolve routes.lift batch commitId headers) e w r e' w')
    (hc : w.Consistent) (hclean : e.timeline.dirty = false) :
    ∃ id, w.Admits n.area w' (w.StoresStaged n.area batch commitId headers id r) (· ∈ batch) := by
  obtain ⟨age, w₁, hage, hcourse⟩ := WeakResolver.course_of_resolve (granting_weak n opened) h
  obtain ⟨-, rfl⟩ := runs_age_iff.1 hage
  rcases hcourse with ⟨-, hresolve⟩ | ⟨delay, w₂, hadd, hschedule, -⟩
  · exact admits_resolveStaged hresolve hc hclean
  · obtain ⟨-, i, id, received, rfl⟩ := runs_add hadd
    refine ⟨id, ((Admits.of_idle (.issued w₁ i)).trans
      (.restaged _ _ fun event hevent => ?_)).trans (.of_idle (idle_schedule hschedule))⟩
    rw [stagedEvents_append] at hevent
    rcases List.mem_append.1 hevent with hevent | hevent
    · exact .inl ⟨_, hevent⟩
    · exact .inr (by simpa [stagedEvents] using hevent)

private def MayStage (n : Node) (batch : List Event) (event : Event) : Prop :=
  n.settings.strategy = .resolveWeakly ∧ event ∈ batch

/-- A resolver signs the batch of a commit, or what is staged, or stages the batch. -/
private theorem admits_resolve {r : Except ResolveError Resolution}
    (h : Resolves ((n.resolver (site opened) n.settings.strategy).resolve routes.lift batch commitId
      headers) e w r e' w') (hc : w.Consistent) (hclean : e.timeline.dirty = false) :
    ∃ id, w.Admits n.area w' (w.Stores n batch commitId headers id · r) (MayStage n batch) := by
  cases hstrategy : n.settings.strategy with
  | throw =>
    rw [hstrategy] at h
    obtain ⟨-, -, rfl⟩ := resolves_throw.1 h
    exact ⟨commitId, .refl _⟩
  | discard =>
    rw [hstrategy] at h
    obtain ⟨-, -, rfl⟩ := resolves_pure.1 h
    exact ⟨commitId, .refl _⟩
  | ignore =>
    rw [hstrategy] at h
    refine ⟨commitId, admits_ignoring h hclean ?_⟩
    rintro resolution event rfl hsigned
    exact .submitted hsigned
  | resolveStrongly =>
    rw [hstrategy] at h
    cases r with
    | ok resolution =>
      exact ⟨commitId, (admits_settleBatch h hclean).mono (fun _ => .submitted) fun _ => .inr⟩
    | error err => exact ⟨commitId, (merged_of_settleBatch h).admits⟩
  | resolveWeakly =>
    rw [hstrategy] at h
    obtain ⟨id, hadmits⟩ := admits_weak h hc hclean
    refine ⟨id, hadmits.mono (fun event hstores => ?_)
      fun event hevent => .inr ⟨hstrategy, hevent⟩⟩
    cases r with
    | ok resolution =>
      obtain ⟨hheaders, original, horiginal | horiginal, hentry⟩ := hstores
      · exact .joined hstrategy ⟨hheaders, original, horiginal, hentry⟩
      · exact .submitted ⟨hheaders, original, horiginal, hentry⟩
    | error err => exact .rescued hstrategy hstores

/-- What a commit signs depends on whether it succeeds, and on nothing else of its result. -/
private theorem stores_congr {ε ε' α α' : Type} {r : Except ε α} {r' : Except ε' α'} {id : Uuid}
    {event : Event} (h : w'.areas = w.areas) (hr : r.toBool = r'.toBool)
    (hs : w'.Stores n batch commitId headers id event r) :
    w.Stores n batch commitId headers id event r' := by
  have hstaged := fun original => (hasStaged_congr h n.area original).1
  cases hs with
  | submitted hsigned =>
    cases r' with
    | ok => exact .submitted hsigned
    | error => cases hr
  | joined hweak hsigned =>
    cases r' with
    | ok => exact .joined hweak (hsigned.imp hstaged)
    | error => cases hr
  | rescued hweak hsigned =>
    cases r' with
    | ok => cases hr
    | error => exact .rescued hweak (hsigned.imp hstaged)

variable {r : Except CommitError CommitOutcome}

private theorem admits_resolveConflict
    (h : Runs ((n.repository (site opened)).resolveConflict routes.lift e commitId headers) w
      (r, e') w') (hc : w.Consistent) :
    ∃ id, w.Admits n.area w' (w.Stores n e.timeline.batch commitId headers id · r)
      (MayStage n e.timeline.batch) := by
  rcases runs_resolveConflict h with ⟨_, -, -, -, rfl⟩ | ⟨fresh, result, d, hload, hresolve, hend⟩
  · exact ⟨commitId, .viewed ..⟩
  · obtain ⟨-, -, -, hclean⟩ := hc.loaded hload
    have hr : result.toBool = r.toBool := by
      rcases hend with ⟨_, rfl, rfl, -⟩ | ⟨_, rfl, rfl, -⟩ <;> rfl
    obtain ⟨id, hadmits⟩ := admits_resolve hresolve (hc.viewed ..) hclean
    exact ⟨id, (Admits.viewed ..).trans
      (hadmits.mono (fun _ => stores_congr (areas_viewed ..) hr) fun _ => .inr)⟩

private theorem admits_commit_of_dirty {e₁ : Entity S} (hdirty : e.timeline.dirty = true)
    (hstaged : e.staged (routes.lift : Routes (StateM World) S) w.wall = .ok e₁)
    (h : Runs ((n.repository (site opened)).commit routes.lift e commitId headers) w (r, e') w')
    (hc : w.Consistent) :
    ∃ id, w.Admits n.area w' (w.Stores n e.timeline.batch commitId headers id · r)
      (MayStage n e.timeline.batch) := by
  obtain ⟨result, w₁, hwrite, hrest⟩ := runs_commit hdirty hstaged h
  rw [← (continues_staged hstaged).2]
  cases wrote_of_runs hwrite with
  | held =>
    obtain ⟨-, rfl⟩ := runs_pure.1 hrest
    exact ⟨commitId, .refl _⟩
  | conflict =>
    have hareas : (w.forget n.cache (e₁.timeline.key .domain)).areas = w.areas := rfl
    obtain ⟨id, hadmits⟩ := admits_resolveConflict hrest (hc.forget ..)
    have hforgot : w.Admits n.area (w.forget n.cache (e₁.timeline.key .domain))
        (w.Stores n e₁.timeline.batch commitId headers id · r) (MayStage n e₁.timeline.batch) :=
      .of_same rfl hareas
    exact ⟨id, hforgot.trans (hadmits.mono (fun _ => stores_congr hareas rfl) fun _ => .inr)⟩
  | stored =>
    obtain ⟨hr, rfl⟩ := runs_pure.1 hrest
    cases hr
    exact ⟨commitId, (admits_write hwrite).mono (fun _ => .submitted) fun _ => .inr⟩

/-- A commit that succeeds signs its batch and what it finds staged, or stages the batch. -/
theorem admits_commit
    (h : Runs ((n.repository (site opened)).commit routes.lift e commitId headers) w (r, e') w')
    (hc : w.Consistent) :
    ∃ id, w.Admits n.area w' (w.Stores n e.timeline.batch commitId headers id · r)
      fun event => n.settings.strategy = .resolveWeakly ∧ event ∈ e.timeline.batch := by
  cases committed_of_runs h with
  | clean | unrecorded => exact ⟨commitId, .refl _⟩
  | written hdirty hstaged | held hdirty hstaged | conflict hdirty hstaged =>
    exact admits_commit_of_dirty hdirty hstaged h hc

/-- A worker signs all of what it stores for a stream with one identifier and nothing else. -/
theorem admits_handleStaged {stream : StreamRef} {r : Except ResolveError Resolution}
    (h : Runs ((n.weak (site opened)).handleStaged routes.lift stream) w r w')
    (hc : w.Consistent) :
    ∃ id, w.Admits n.area w' (Event.Signed ∅ id (w.HasStaged n.area)) s := by
  rcases runs_handleStaged h with ⟨err, -, -, hscheduled⟩ | ⟨e, i, commitId, e', hload, hresolve⟩
  · exact ⟨.nil, (Admits.viewed ..).trans (.of_idle (idle_scheduled hscheduled))⟩
  · rw [← loaded_lift] at hload
    obtain ⟨-, -, -, hclean⟩ := hc.loaded hload
    have hviewed : ∀ id, w.Admits n.area ((w.viewed n.cache stream).logged i
        (w.viewed n.cache stream).log) (Event.Signed ∅ id (w.HasStaged n.area)) s :=
      fun _ => (Admits.viewed ..).trans (.of_idle (.issued ..))
    obtain ⟨id, hadmits⟩ :=
      admits_resolveStaged hresolve ((hc.viewed ..).idle (.issued ..)) hclean
    have hareas : ((w.viewed n.cache stream).logged i (w.viewed n.cache stream).log).areas =
        w.areas := areas_viewed ..
    have hback := fun event => (hasStaged_congr hareas n.area event).1
    cases r with
    | ok resolution =>
      refine ⟨commitId, (hviewed _).trans (hadmits.mono (fun event hstores => ?_) fun _ => .inr)⟩
      exact Event.Signed.imp hstores fun original horiginal =>
        hback original (horiginal.resolve_right List.not_mem_nil)
    | error err =>
      refine ⟨id, (hviewed _).trans (hadmits.mono (fun event hstores => ?_) fun _ => .inr)⟩
      exact Event.Signed.imp hstores hback

end World

variable {C : Catalog}

namespace Participant

variable {p : Participant C} {opened : Moment} {w w' : World}

/-- The event was stored for one of some streams that were handled in turn, and whatever was stored
for that stream carries the same identifier and nothing else. -/
inductive SignsFor (p : Participant C) (opened : Moment) (source : Event → Prop)
    (streams : List StreamRef) (w : World) (event : Event) : Prop where
  | handled {before after : List StreamRef} {stream : StreamRef} {w₁ w₂ : World} {id : Uuid}
      {r : Except ResolveError Resolution} (hstreams : streams = before ++ stream :: after)
      (hbefore : Runs ((p.worker opened).handleAll before) w () w₁)
      (hhandle : Runs ((p.worker opened).handle stream) w₁ r w₂)
      (hwrite : w₁.log.Gains w₂.log (Event.Signed ∅ id source)) (hsigned : event.Signed ∅ id source)
      (hevent : ∃ key, EventKey key ∧
        event ∈ (w₂.log.events key).drop (w₁.log.events key).length) :
      SignsFor p opened source streams w event

theorem SignsFor.cons {stream : StreamRef} {streams : List StreamRef}
    {source source' : Event → Prop}
    {r : Except ResolveError Resolution} {event : Event}
    (hfirst : Runs ((p.worker opened).handle stream) w r w')
    (h : p.SignsFor opened source streams w' event)
    (hs : ∀ original, source original → source' original) :
    p.SignsFor opened source' (stream :: streams) w event := by
  cases h with
  | @handled before after second w₁ w₂ id r₂ hstreams hbefore hhandle hwrite hsigned hevent =>
    have hall : Runs ((p.worker opened).handleAll (stream :: before)) w () w₁ :=
      runs_bind.2 ⟨(), w', runs_discard.2 ⟨r, hfirst⟩, hbefore⟩
    exact .handled (by rw [hstreams, List.cons_append]) hall hhandle
      (hwrite.mono fun _ hother => hother.imp hs) (hsigned.imp hs) hevent

theorem admits_handleAll {streams : List StreamRef} {u : Unit}
    (h : Runs ((p.worker opened).handleAll streams) w u w') (hc : w.Consistent) :
    w.Admits sharedArea w' (p.SignsFor opened (w.HasStaged sharedArea) streams w)
      fun _ => False := by
  induction streams generalizing w with
  | nil =>
    obtain ⟨-, rfl⟩ := runs_pure.1 h
    exact .refl _
  | cons stream rest ih =>
    obtain ⟨r, w₁, hfirst, hrest⟩ := runs_handleAll_cons h
    obtain ⟨id, hadmits⟩ : ∃ id, w.Admits sharedArea w₁
        (Event.Signed ∅ id (w.HasStaged sharedArea)) fun _ => False := by
      rcases runs_handle hfirst with ⟨-, rfl⟩ | ⟨kind, -, hhandled⟩
      · exact ⟨.nil, .refl _⟩
      · exact World.admits_handleStaged hhandled hc
    have hhandled : w.Admits sharedArea w₁
        (p.SignsFor opened (w.HasStaged sharedArea) (stream :: rest) w) fun _ => False := by
      refine ⟨hadmits.events.located.mono fun event hevent => ?_, hadmits.queues⟩
      exact .handled (List.nil_append _).symm (runs_pure.2 ⟨rfl, rfl⟩) hfirst hadmits.events
        hevent.1 hevent.2
    refine hhandled.trans ((ih hrest (books_handle hc hfirst).consistent).mono
      (fun event hevent => hevent.cons hfirst fun original horiginal => ?_) fun _ => .inr)
    exact (hadmits.queues original horiginal).resolve_right not_false

theorem admits_runDue {count : Nat} (h : Runs (p.worker opened).runDue w count w')
    (hc : w.Consistent) :
    w.Admits sharedArea w' (p.SignsFor opened (w.HasStaged sharedArea) (w.due p.agenda)
      (w.cleared p.agenda)) fun _ => False :=
  (World.Admits.of_idle (.cleared ..)).trans
    (admits_handleAll (runs_runDue h) (hc.idle (.cleared ..)))

end Participant

namespace Cluster

/-- An operation stages an event: a participant that stages batches commits an entity in whose batch
the event is. -/
inductive Stages (c : Cluster C) (event : Event) : Operation C → Prop where
  | commit {p : Participant C} {slot : Nat} {s : LiveEntity C} {commitId : Uuid} {headers : Headers}
      (hweak : p.settings.strategy = .resolveWeakly) (hslot : c.slots[slot]? = some s)
      (hevent : event ∈ s.entity.timeline.batch) :
      Stages c event (.commit p slot commitId headers)

/-- An operation signs an event: a commit in the way of its result, and a worker with an identifier
and nothing else. All that is stored in one write has the same identifier. -/
inductive Signs (opened : Moment) (c : Cluster C) (event : Event) : Operation C → Prop where
  | commit {p : Participant C} {slot : Nat} {kind : C.Kind} {e e' : Entity (C.State kind)}
      {r : Except CommitError CommitOutcome} {world : World} {commitId id : Uuid}
      {headers : Headers}
      (hslot : c.slots[slot]? = some ⟨kind, e⟩)
      (hcommit : Runs ((p.repository opened).commit (C.routes kind).lift e commitId headers) c.world
        (r, e') world)
      (hwrite : c.world.log.Gains world.log
        (c.world.Stores p.node e.timeline.batch commitId headers id · r))
      (hstores : c.world.Stores p.node e.timeline.batch commitId headers id event r) :
      Signs opened c event (.commit p slot commitId headers)
  | runDue {p : Participant C}
      (hsigns : p.SignsFor opened (c.world.HasStaged sharedArea) (c.world.due p.agenda)
        (c.world.cleared p.agenda) event) :
      Signs opened c event (.runDue p)

variable {c c' : Cluster C} {opened wall : Moment}

theorem world_keep {ε : Type} (c : Cluster C) (kind : C.Kind)
    (found : Except ε (Entity (C.State kind))) (world : World) :
    (c.keep kind found world).world = world := by
  cases found <;> rfl

theorem idle_record (c : Cluster C) (slot : Nat)
    (f : (kind : C.Kind) → Entity (C.State kind) → Stamp →
      Except RouteError (Entity (C.State kind))) : c.world.Idle (c.record slot f).world := by
  unfold record
  cases c.slots[slot]? with
  | none => exact .refl _
  | some s =>
    obtain ⟨kind, e⟩ := s
    obtain ⟨stamp, world, hstamp⟩ := Runs.total (World.surroundings World.cell).stamp c.world
    obtain ⟨i, rfl⟩ := World.runs_stamp hstamp
    simp only [hstamp.run_eq]
    split <;> exact .issued ..

/-- What an operation stores it has signed, and what is staged by it was submitted to it. -/
theorem Moves.admits {operation : Operation C} (hm : c.Moves opened operation c')
    (hc : c.world.Consistent) :
    c.world.Admits sharedArea c'.world (c.Signs opened · operation)
      (c.Stages · operation) := by
  cases hm with
  | idle => exact .refl _
  | loaded hload =>
    obtain ⟨-, rfl⟩ := World.runs_loadEntity.1 hload
    rw [world_keep]
    exact .viewed ..
  | made =>
    rw [world_keep]
    exact .refl _
  | applied | raised => exact .of_idle (idle_record ..)
  | committed hslot hcommit =>
    obtain ⟨id, hadmits⟩ := World.admits_commit hcommit hc
    exact hadmits.mono (fun event => .commit hslot hcommit hadmits.events)
      fun _ hevent => .inr (.commit hevent.1 hslot hevent.2)
  | handled hdue =>
    exact (Participant.admits_runDue hdue hc).mono (fun _ => .runDue) fun _ => False.elim
  | frozen hfreeze =>
    obtain ⟨data, rfl⟩ := World.runs_freeze hfreeze
    exact .of_idle (.annotated ..)
  | released hunfreeze =>
    obtain ⟨-, data, rfl⟩ := World.runs_unfreeze hunfreeze
    exact .of_idle (.annotated ..)
  | advanced | set | shuffled => exact .of_same rfl rfl

/-- Every event of a durable stream was signed by the operation that stored it, and every event that
is staged was submitted by a commit of a participant that stages batches. So an event that is not
staged carries the headers of the commit that submitted it, and one that is staged those of the
write that found it. -/
theorem signed_run (opened wall : Moment) (operations : List (Operation C)) :
    let c := (start wall : Cluster C).run opened operations
    (∀ key, EventKey key → ∀ event ∈ c.world.log.events key,
      ∃ before operation after, operations = before ++ operation :: after ∧
        let c₁ := (start wall : Cluster C).run opened before
        c₁.Signs opened event operation ∧ event ∈
          ((c₁.step opened operation).world.log.events key).drop
            (c₁.world.log.events key).length) ∧
    ∀ event, c.world.HasStaged sharedArea event →
      ∃ before operation after, operations = before ++ operation :: after ∧
        ((start wall : Cluster C).run opened before).Stages event operation := by
  induction operations using List.reverseRecOn with
  | nil =>
    constructor
    · intro key _ event hevent
      simp [run, start, World.start] at hevent
    · rintro event ⟨key, hevent⟩
      simp [run, start, World.start, World.queue, World.area, stagedEvents] at hevent
  | append_singleton before operation ih =>
    obtain ⟨hstored, hstaged⟩ := ih
    obtain ⟨c, hc⟩ : ∃ c : Cluster C, c = (start wall).run opened before := ⟨_, rfl⟩
    have hlast : (start wall : Cluster C).run opened (before ++ [operation]) =
        c.step opened operation := by
      rw [hc, run, List.foldl_append]
      rfl
    obtain ⟨rs, hleads⟩ := leads_run opened (steady_start (C := C) wall) before
    -- The last operation signs what it adds to a stream. What was there before was signed earlier.
    have hadmits := (moves_step opened c operation).admits (hc ▸ hleads.steady.consistent)
    simp only [hlast]
    constructor
    · intro key hkey event hevent
      obtain ⟨added, hadded, hsigns⟩ := hadmits.events key hkey
      rw [hadded] at hevent
      rcases List.mem_append.1 hevent with hevent | hevent
      · obtain ⟨first, op, after, rfl, hop⟩ := hstored key hkey event (hc ▸ hevent)
        exact ⟨first, op, after ++ [operation], by simp, hop⟩
      · refine ⟨before, operation, [], rfl, ?_⟩
        simp only [← hc, hadded, List.drop_left]
        exact ⟨hsigns event hevent, hevent⟩
    · intro event hevent
      rcases hadmits.queues event hevent with hevent | hsubmits
      · obtain ⟨first, op, after, rfl, hop⟩ := hstaged event (hc ▸ hevent)
        exact ⟨first, op, after ++ [operation], by simp, hop⟩
      · exact ⟨before, operation, [], rfl, hc ▸ hsubmits⟩

/-- A step of one is stored, and a step of two that knows nothing of it is committed with
headers. -/
def headedSteps : List (Operation tallies) :=
  [.newEntity (teller 0) () "t-1", .newEntity (teller 1) () "t-1", stepBy 0 1,
    .commit (teller 0) 0 (.numbered 100) ∅, stepBy 1 2]

/-- The second step is staged, and a worker stores it without the headers that it was committed
with. -/
theorem headless_headedSteps :
    let headers : Headers := (∅ : Headers).insert "origin" "till"
    let c := (start .epoch).run .epoch headedSteps
    let c' := c.run .epoch
      [.commit (teller 1) 1 (.numbered 101) headers, .advance (.ofSeconds 60), .runDue (teller 1)]
    ∃ event ∈ c'.world.log.events (tallyStream.key .domain),
      (c.slots[1]?.map fun s => s.entity.timeline.batch.map Event.entry) = some [event.entry] ∧
      event.entry ∉ (c.world.log.events (tallyStream.key .domain)).map Event.entry ∧
      event.commitHeaders ≠ headers.insert Headers.commitId (Uuid.numbered 101).text := by
  decide +kernel

end Cluster

end Chronicle
