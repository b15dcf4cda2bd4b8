import Chronicle.Proofs.Histories

/-!
# Staged batches and a store that fails

A store may refuse any request, and what it refuses changes nothing. Pulled batches are accounted
for: they are back where they were and nothing of them is stored, or they are gone, and each of
their events was stored once or declined by its route.

There is one exception. If a merge was stored and the freeze around it cannot be given up after
that, the merge counts as failed, and the pulled batches are given back although they are stored.
-/

namespace Chronicle

variable {σ S : Type}

/-- What counts of a state: the events that are stored, the batches that are staged, and whether
what the store keeps at hand is in order. -/
structure Shelf where
  stored : List Event
  area : StagingArea ConflictBatch
  orderly : Prop

namespace Shelf

variable {a b c : Shelf}

/-- Nothing was stored or staged. -/
structure Kept (a b : Shelf) : Prop where
  stored : b.stored = a.stored
  area : b.area = a.area
  orderly : a.orderly → b.orderly

/-- The events were stored, each of them once, and nothing was staged. -/
structure Gained (a b : Shelf) (events : List Event) : Prop where
  stored : ∀ x, occurrences x b.stored = occurrences x a.stored + occurrences x events
  area : b.area = a.area
  orderly : b.orderly

theorem Kept.refl (a : Shelf) : a.Kept a := ⟨rfl, rfl, id⟩

theorem Kept.of_eq (h : b = a) : a.Kept b := h ▸ .refl a

theorem Kept.trans (h : a.Kept b) (h' : b.Kept c) : a.Kept c where
  stored := h'.stored.trans h.stored
  area := h'.area.trans h.area
  orderly := h'.orderly ∘ h.orderly

theorem Gained.after (h : a.Kept b) {events : List Event} (h' : b.Gained c events) :
    a.Gained c events where
  stored x := by rw [h'.stored, h.stored]
  area := h'.area.trans h.area
  orderly := h'.orderly

theorem Gained.before {events : List Event} (h : a.Gained b events) (h' : b.Kept c) :
    a.Gained c events where
  stored x := by rw [h'.stored, h.stored]
  area := h'.area.trans h.area
  orderly := h'.orderly h.orderly

end Shelf

/-- A store that may refuse any request. A request that is refused and any other one than a write
leaves alone what is stored and staged, and a write stores what is pending. Timelines that are
fetched fit together and have nothing pending. -/
structure StreamStore.Fallible (store : StreamStore (StateM σ)) (shelf : σ → Shelf) : Prop where
  fetch : ∀ stream w r w', Runs (store.fetch stream) w r w' → (shelf w).Kept (shelf w')
  fetched : ∀ stream w t w', (shelf w).orderly → Runs (store.fetch stream) w (.ok t) w' →
    t.Sound ∧ t.batch = []
  freeze : ∀ t w r w', Runs (store.freeze t) w r w' → (shelf w).Kept (shelf w')
  unfreeze : ∀ t w r w', Runs (store.unfreeze t) w r w' → (shelf w).Kept (shelf w')
  refused : ∀ commitId t headers w err w', Runs (store.write commitId t headers) w (.error err) w' →
    (shelf w).Kept (shelf w')
  written : ∀ commitId t headers w v w', (shelf w).orderly → t.Sound →
    Runs (store.write commitId t headers) w (.ok v) w' → (shelf w).Gained (shelf w') t.batch

/-- A cell that holds what is staged. -/
structure Cell.Shelves (cell : Cell (StateM σ) (StagingArea ConflictBatch)) (shelf : σ → Shelf) :
    Prop where
  get : ∀ w a w', Runs cell.get w a w' → a = (shelf w).area ∧ shelf w' = shelf w
  set : ∀ a w u w', Runs (cell.set a) w u w' → shelf w' = { shelf w with area := a }

theorem Cell.Shelves.holds {cell : Cell (StateM σ) (StagingArea ConflictBatch)} {shelf : σ → Shelf}
    (h : cell.Shelves shelf) : cell.Holds shelf Shelf.area fun area s => { s with area } :=
  ⟨h.get, h.set⟩

namespace WeakResolver

/-- A resolver with a store that may refuse any request and a staging area in memory. -/
structure Fallible (r : WeakResolver (StateM σ)) (shelf : σ → Shelf) : Prop where
  store : r.store.Fallible shelf
  supply : r.surroundings.Unobserved shelf
  schedule : ∀ stream delay w u w', Runs (r.schedule stream delay) w u w' → shelf w' = shelf w
  staging : ∃ cell start, cell.Shelves shelf ∧
    r.staging = StagingArea.staging cell r.surroundings start

namespace Fallible

variable {r : WeakResolver (StateM σ)} {shelf : σ → Shelf} {channel key : String} {w w' : σ}

theorem granting (hr : r.Fallible shelf) : r.staging.Granting := by
  obtain ⟨cell, start, -, hstaging⟩ := hr.staging
  rw [hstaging]
  exact StagingArea.granting_staging cell _ start

theorem of_size (hr : r.Fallible shelf) {n : Nat}
    (h : Runs (r.staging.size channel key) w (.ok n) w') : shelf w' = shelf w := by
  obtain ⟨cell, start, hcell, hstaging⟩ := hr.staging
  rw [hstaging] at h
  exact (StagingArea.of_size hcell.holds h).2

theorem of_pull (hr : r.Fallible shelf) {max : Option Nat} {pulled : List (Staged ConflictBatch)}
    (h : Runs (r.staging.pull channel key max) w (.ok pulled) w') :
    pulled = ((shelf w).area.pull ⟨channel, key⟩ max).1 ∧
      shelf w' = { shelf w with area := ((shelf w).area.pull ⟨channel, key⟩ max).2 } := by
  obtain ⟨cell, start, hcell, hstaging⟩ := hr.staging
  rw [hstaging] at h
  exact StagingArea.of_pull hcell.holds h

theorem of_requeue (hr : r.Fallible shelf) {messages : List (Staged ConflictBatch)}
    (h : Runs (r.staging.requeue channel key messages) w (.ok ()) w') :
    shelf w' = { shelf w with area := (shelf w).area.requeue ⟨channel, key⟩ messages } := by
  obtain ⟨cell, start, hcell, hstaging⟩ := hr.staging
  rw [hstaging] at h
  exact StagingArea.of_requeue hcell.holds h

end Fallible

end WeakResolver

theorem StagingArea.group_requeue_nil {M : Type} (a : StagingArea M) (g k : GroupName) :
    (a.requeue g []).group k = a.group k := by
  by_cases hk : k = g
  · rw [hk, group_requeue_self, List.nil_append]
  · rw [requeue, group_setGroup_of_ne _ hk]

theorem StagingArea.group_requeue_pull {M : Type} (a : StagingArea M) (g k : GroupName)
    (max : Option Nat) :
    ((a.pull g max).2.requeue g (a.pull g max).1).group k = a.group k := by
  by_cases hk : k = g
  · rw [hk, group_requeue_self, pull_append_group]
  · rw [requeue, group_setGroup_of_ne _ hk, pull, group_setGroup_of_ne _ hk]

/-- A batch was merged into an entity and stored, but for the domain events that their routes
declined. What had been pending in the entity was stored as well. -/
def Entity.Booked (e : Entity S) (routes : Routes Id S) (events before after : List Event) : Prop :=
  ∃ s' kept dropped, routes.Replays e.state events s' kept dropped ∧
    ∀ x, occurrences x after =
      occurrences x before + occurrences x (e.timeline.batch ++ kept ++ raised events)

/-- After a write took the store from `before` to `after`, the freeze of the stream cannot be given
up. -/
def StreamStore.Jams (store : StreamStore (StateM σ)) (shelf : σ → Shelf) (cause : StoreError)
    (before after : List Event) : Prop :=
  ∃ commitId t headers v w₁ w₂ w₃, (shelf w₁).stored = before ∧
    Runs (store.write commitId t headers) w₁ (.ok v) w₂ ∧ (shelf w₂).stored = after ∧
    Runs (store.unfreeze t.settle) w₂ (.error cause) w₃

theorem Entity.Merges.occurrences_batch {routes : Routes Id S} {drawn : Moment → Prop}
    {e d : Entity S} {events kept dropped : List Event}
    (h : e.Merges routes drawn events d kept dropped) (x : Lane × String × Json) :
    occurrences x d.timeline.batch =
      occurrences x (e.timeline.batch ++ kept ++ raised events) := by
  have hpending := occurrences_of_map_eq x h.pending
  have hoobs := occurrences_of_map_eq x h.oobs
  simp only [occurrences_append, Chronicle.occurrences_batch, hpending, hoobs]
  omega

/-- How a merge ends for the store. -/
inductive Settlement (store : StreamStore (StateM σ)) (shelf : σ → Shelf) (routes : Routes Id S)
    (events : List Event) (threshold : Nat) (e : Entity S) (a b : Shelf) :
    Except ResolveError Resolution → Prop where
  | booked {resolution : Resolution} (harea : b.area = a.area) (horderly : b.orderly)
      (hbooked : e.Booked routes events a.stored b.stored) :
      Settlement store shelf routes events threshold e a b (.ok resolution)
  | untouched {err : ResolveError} (hkept : a.Kept b) :
      Settlement store shelf routes events threshold e a b (.error err)
  | jammed {cause : StoreError} (hlarge : threshold < domainCount events)
      (harea : b.area = a.area) (horderly : b.orderly)
      (hbooked : e.Booked routes events a.stored b.stored)
      (hjams : store.Jams shelf cause a.stored b.stored) :
      Settlement store shelf routes events threshold e a b (.error (.ofStore cause))

theorem Settlement.frame {store : StreamStore (StateM σ)} {shelf : σ → Shelf} {routes : Routes Id S}
    {events : List Event} {threshold : Nat} {e : Entity S} {a₀ a b b₁ : Shelf}
    {r : Except ResolveError Resolution}
    (h : Settlement store shelf routes events threshold e a b r) (hbefore : a₀.Kept a)
    (hafter : b.Kept b₁) : Settlement store shelf routes events threshold e a₀ b₁ r := by
  cases h with
  | booked harea horderly hbooked =>
    rw [hbefore.stored, ← hafter.stored] at hbooked
    exact .booked ((hafter.area.trans harea).trans hbefore.area) (hafter.orderly horderly) hbooked
  | untouched hkept => exact .untouched ((hbefore.trans hkept).trans hafter)
  | jammed hlarge harea horderly hbooked hjams =>
    rw [hbefore.stored, ← hafter.stored] at hbooked hjams
    exact .jammed hlarge ((hafter.area.trans harea).trans hbefore.area) (hafter.orderly horderly)
      hbooked hjams

section Merging

variable {store : StreamStore (StateM σ)} {supply : Surroundings (StateM σ)} {shelf : σ → Shelf}
  {routes : Routes Id S} {events : List Event} {commitId : Uuid} {headers : Headers}
  {strategy : ConflictStrategy} {threshold : Nat} {e d : Entity S} {w w' : σ}
  {r : Except ResolveError Resolution}

private theorem booked_of_clean {drawn : Moment → Prop} {kept dropped : List Event}
    (hmerges : e.Merges routes drawn events d kept dropped) (hclean : d.timeline.dirty = false)
    (stored : List Event) : e.Booked routes events stored stored := by
  refine ⟨d.state, kept, dropped, hmerges.replays, fun x => ?_⟩
  rw [← hmerges.occurrences_batch x, Timeline.batch_eq_nil hclean]
  rfl

private theorem gained_of_write {drawn : Moment → Prop} {kept dropped : List Event} {t : Entity S}
    {v : Int} {w₁ : σ} (hstore : store.Fallible shelf) (horderly : (shelf w).orderly)
    (hsound : e.timeline.Sound) (hmerges : e.Merges routes drawn events t kept dropped)
    (hsame : shelf w₁ = shelf w)
    (hwrite : Runs (store.write commitId t.timeline headers) w₁ (.ok v) w') :
    (shelf w').area = (shelf w).area ∧ (shelf w').orderly ∧
      e.Booked routes events (shelf w).stored (shelf w').stored := by
  have hgained := hstore.written _ _ _ _ _ _ (hsame ▸ horderly)
    (hmerges.continues.sound hsound) hwrite
  rw [hsame] at hgained
  refine ⟨hgained.area, hgained.orderly, t.state, kept, dropped, hmerges.replays, fun x => ?_⟩
  rw [hgained.stored, hmerges.occurrences_batch]

/-- A merge without a freeze is stored or leaves no trace. -/
theorem settlement_of_course (hstore : store.Fallible shelf) (horderly : (shelf w).orderly)
    (hsound : e.timeline.Sound)
    (h : MergeCourse store supply shelf routes events commitId headers e w r d w') :
    Settlement store shelf routes events threshold e (shelf w) (shelf w') r := by
  cases h with
  | stopped _ _ hsame => exact .untouched (.of_eq hsame)
  | nothing hmerges hclean hsame =>
    rw [hsame]
    exact .booked rfl horderly (booked_of_clean hmerges hclean _)
  | refused _ hsame hwrite =>
    exact .untouched ((Shelf.Kept.of_eq hsame).trans (hstore.refused _ _ _ _ _ _ hwrite))
  | stored hmerges hsame hwrite =>
    obtain ⟨harea, hend, hbooked⟩ := gained_of_write hstore horderly hsound hmerges hsame hwrite
    exact .booked harea hend hbooked

theorem settlement_of_settleBatch (hstore : store.Fallible shelf)
    (hsupply : supply.Unobserved shelf) (horderly : (shelf w).orderly) (hsound : e.timeline.Sound)
    (h : Resolves (settleBatch store supply routes.lift events commitId headers strategy threshold)
      e w r d w') :
    Settlement store shelf routes events threshold e (shelf w) (shelf w') r := by
  cases course_of_settleBatch hsupply h with
  | light _ hmerge => exact settlement_of_course hstore horderly hsound hmerge
  | barred hfreeze => exact .untouched (hstore.freeze _ _ _ _ hfreeze)
  | released _ hfreeze hmerge hrelease =>
    have hbefore := hstore.freeze _ _ _ _ hfreeze
    exact (settlement_of_course hstore (hbefore.orderly horderly) hsound hmerge).frame hbefore
      (hstore.unfreeze _ _ _ _ hrelease)
  | stuck hlarge hfreeze hmerge hrelease =>
    have hbefore := hstore.freeze _ _ _ _ hfreeze
    have hafter := hstore.unfreeze _ _ _ _ hrelease
    cases hmerge with
    | stopped _ _ hsame => exact .untouched ((hbefore.trans (.of_eq hsame)).trans hafter)
    | nothing _ _ hsame => exact .untouched ((hbefore.trans (.of_eq hsame)).trans hafter)
    | refused _ hsame hwrite =>
      have hrefused := (Shelf.Kept.of_eq hsame).trans (hstore.refused _ _ _ _ _ _ hwrite)
      exact .untouched ((hbefore.trans hrefused).trans hafter)
    | stored hmerges hsame hwrite =>
      obtain ⟨harea, hend, hbooked⟩ :=
        gained_of_write hstore (hbefore.orderly horderly) hsound hmerges hsame hwrite
      have hjammed : Settlement store shelf routes events threshold e _ _ _ :=
        .jammed hlarge harea hend hbooked
          ⟨_, _, _, _, _, _, _, congrArg Shelf.stored hsame, hwrite, rfl, hrelease⟩
      exact hjammed.frame hbefore hafter

end Merging

namespace WeakResolver

variable {r : WeakResolver (StateM σ)} {shelf : σ → Shelf} {routes : Routes Id S}
  {current : List Event} {commitId : Uuid} {headers : Headers} {e e' : Entity S} {w w' : σ}
  {pulled : List (Staged ConflictBatch)} {rest : StagingArea ConflictBatch} {a b : Shelf}

/-- The batches that were pulled from an area, which left the `rest`, are accounted for. -/
inductive Accounted (routes : Routes Id S) (current : List Event) (e : Entity S)
    (pulled : List (Staged ConflictBatch)) (rest : StagingArea ConflictBatch) (a b : Shelf) :
    Except ResolveError Resolution → Prop where
  | vacant (hevents : stagedEvents pulled ++ current = []) (harea : b.area = rest)
      (hstored : b.stored = a.stored) :
      Accounted routes current e pulled rest a b (.ok .discarded)
  | merged {resolution : Resolution} (harea : b.area = rest)
      (hbooked : e.Booked routes (stagedEvents pulled ++ current) a.stored b.stored) :
      Accounted routes current e pulled rest a b (.ok resolution)
  /-- They are gone, and they were stored without the current batch, which was to blame. -/
  | spared {err : ResolveError} {fresh : Entity S} (hfinal : err.isTransient = false)
      (harea : b.area = rest) (hclean : fresh.timeline.batch = [])
      (hbooked : fresh.Booked routes (stagedEvents pulled) a.stored b.stored) :
      Accounted routes current e pulled rest a b (.error err)
  | returned {err : ResolveError} (harea : ∀ g, b.area.group g = a.area.group g)
      (hstored : b.stored = a.stored) :
      Accounted routes current e pulled rest a b (.error err)

/-- The batches that were pulled are where they were although they were stored: the freeze of their
stream could not be given up after that. -/
inductive Doubled (r : WeakResolver (StateM σ)) (shelf : σ → Shelf) (routes : Routes Id S)
    (current : List Event) (e : Entity S) (pulled : List (Staged ConflictBatch)) (a b : Shelf) :
    Except ResolveError Resolution → Prop where
  | together {cause : StoreError}
      (hlarge : r.freezeThreshold < domainCount (stagedEvents pulled ++ current))
      (hjams : r.store.Jams shelf cause a.stored b.stored)
      (harea : ∀ g, b.area.group g = a.area.group g)
      (hbooked : e.Booked routes (stagedEvents pulled ++ current) a.stored b.stored) :
      Doubled r shelf routes current e pulled a b (.error (.ofStore cause))
  | alone {err : ResolveError} {cause : StoreError} {fresh : Entity S}
      (hfinal : err.isTransient = false)
      (hlarge : r.freezeThreshold < domainCount (stagedEvents pulled))
      (hjams : r.store.Jams shelf cause a.stored b.stored)
      (harea : ∀ g, b.area.group g = a.area.group g) (hclean : fresh.timeline.batch = [])
      (hbooked : fresh.Booked routes (stagedEvents pulled) a.stored b.stored) :
      Doubled r shelf routes current e pulled a b (.error err)

theorem Doubled.group_eq {result : Except ResolveError Resolution}
    (h : r.Doubled shelf routes current e pulled a b result) (g : GroupName) :
    b.area.group g = a.area.group g := by
  cases h with
  | together _ _ harea => exact harea g
  | alone _ _ _ harea => exact harea g

theorem Doubled.congr {a₁ b₁ : Shelf} {result : Except ResolveError Resolution}
    (h : r.Doubled shelf routes current e pulled a b result) (ha : a.stored = a₁.stored)
    (hb : b₁.stored = b.stored) (harea : ∀ g, b₁.area.group g = a₁.area.group g) :
    r.Doubled shelf routes current e pulled a₁ b₁ result := by
  cases h with
  | together hlarge hjams _ hbooked =>
    rw [ha, ← hb] at hjams hbooked
    exact .together hlarge hjams harea hbooked
  | alone hfinal hlarge hjams _ hclean hbooked =>
    rw [ha, ← hb] at hjams hbooked
    exact .alone hfinal hlarge hjams harea hclean hbooked

theorem Fallible.of_load (hr : r.Fallible shelf) {stream : StreamRef}
    {found : Except LoadError (Entity S)}
    (h : Runs (loadEntity r.store routes.lift stream).run w found w') :
    (shelf w).Kept (shelf w') ∧ ((shelf w).orderly → ∀ fresh, found = .ok fresh →
      fresh.timeline.Sound ∧ fresh.timeline.batch = []) := by
  change Runs (r.store.fetch stream >>= _) w found w' at h
  rw [runs_bind] at h
  obtain ⟨fetched, w₁, hfetch, h⟩ := h
  have hkept := hr.store.fetch _ _ _ _ hfetch
  cases fetched with
  | error err =>
    obtain ⟨rfl, rfl⟩ := runs_pure.1 h
    exact ⟨hkept, fun _ fresh hfresh => by cases hfresh⟩
  | ok t =>
    obtain ⟨rfl, rfl⟩ := runs_pure.1 h
    refine ⟨hkept, fun horderly fresh hfresh => ?_⟩
    rw [Entity.timeline_ofTimeline (except_mapError_eq_ok.1 hfresh)]
    exact hr.store.fetched _ _ _ _ horderly hfetch

/-- Pulled batches are merged into what is loaded then, which has nothing else pending. -/
private theorem settlement_alone (hr : r.Fallible shelf) (horderly : (shelf w).orderly)
    {stream : StreamRef} {fresh d : Entity S} {id : Uuid} {w₁ w₂ : σ}
    {result : Except ResolveError Resolution}
    (hload : Runs (loadEntity r.store routes.lift stream).run w (.ok fresh) w₁)
    (hid : Runs r.surroundings.freshId w₁ id w₂)
    (hmerge : Resolves (settleBatch r.store r.surroundings routes.lift (stagedEvents pulled) id ∅
      .resolveWeakly r.freezeThreshold) fresh w₂ result d w') :
    fresh.timeline.batch = [] ∧
      Settlement r.store shelf routes (stagedEvents pulled) r.freezeThreshold fresh (shelf w)
        (shelf w') result := by
  obtain ⟨hkept, hfound⟩ := hr.of_load hload
  obtain ⟨hsound, hclean⟩ := hfound horderly fresh rfl
  have hbefore := hkept.trans (.of_eq (hr.supply.freshId _ _ _ hid))
  exact ⟨hclean, (settlement_of_settleBatch hr.store hr.supply (hbefore.orderly horderly) hsound
    hmerge).frame hbefore (.refl _)⟩

/-- What is given back was not stored, or it was stored and the freeze could not be given up. -/
private theorem untouched_or_doubled (hr : r.Fallible shelf) (horderly : (shelf w).orderly)
    {err : ResolveError} {stream : StreamRef} {w₁ : σ}
    (hmerge : Settlement r.store shelf routes (stagedEvents pulled ++ current) r.freezeThreshold e
      (shelf w) (shelf w₁) (.error err))
    (halone : r.Unmerged routes pulled stream w₁ w')
    (htried : w' = w₁ ∨ err.isTransient = false ∧ current ≠ []) :
    (shelf w').area = (shelf w).area ∧ ((shelf w').stored = (shelf w).stored ∨
      r.Doubled shelf routes current e pulled (shelf w) (shelf w') (.error err)) := by
  rcases htried with rfl | ⟨hfinal, -⟩
  · cases hmerge with
    | untouched hkept => exact ⟨hkept.area, .inl hkept.stored⟩
    | jammed hlarge harea _ hbooked hjams =>
      exact ⟨harea, .inr (.together hlarge hjams (fun g => by rw [harea]) hbooked)⟩
  · cases hmerge with
    -- what the store refuses is worth another try
    | jammed => rw [ResolveError.isTransient_ofStore] at hfinal; cases hfinal
    | untouched hkept =>
      cases halone with
      | untried => exact ⟨hkept.area, .inl hkept.stored⟩
      | unloaded hload =>
        have hall := hkept.trans (hr.of_load hload).1
        exact ⟨hall.area, .inl hall.stored⟩
      | failed hload hid hagain =>
        obtain ⟨hclean, hsecond⟩ := settlement_alone hr (hkept.orderly horderly) hload hid hagain
        cases hsecond.frame hkept (.refl _) with
        | untouched hall => exact ⟨hall.area, .inl hall.stored⟩
        | jammed hlarge harea _ hbooked hjams =>
          exact ⟨harea, .inr (.alone hfinal hlarge hjams (fun g => by rw [harea]) hclean hbooked)⟩

/-- Whatever the store refuses, pulled batches are accounted for, unless they were stored and the
freeze of their stream could not be given up after that. -/
theorem accounted_or_doubled {result : Except ResolveError Resolution} (hr : r.Fallible shelf)
    (horderly : (shelf w).orderly) (hsound : e.timeline.Sound)
    (h : Resolves (r.resolveStaged routes.lift current commitId headers) e w result e' w') :
    let found := (shelf w).area.pull ⟨weakChannel, e.timeline.key .domain⟩ r.pullMax
    Accounted routes current e found.1 found.2 (shelf w) (shelf w') result ∨
      r.Doubled shelf routes current e found.1 (shelf w) (shelf w') result := by
  intro found
  obtain ⟨waiting, pulled, w₁, w₂, hsize, hpull, hcourse⟩ := course_of_resolveStaged hr.granting h
  obtain ⟨hpulled, hrest⟩ := hr.of_pull hpull
  rw [hr.of_size hsize] at hpulled hrest
  change pulled = found.1 at hpulled
  change shelf w₂ = { shelf w with area := found.2 } at hrest
  have horderly₂ : (shelf w₂).orderly := hrest ▸ horderly
  have hscheduled : ∀ {p : Prop} {stream delay} {v v' : σ},
      p ∧ v' = v ∨ Runs (r.schedule stream delay) v () v' → shelf v' = shelf v := by
    rintro p stream delay v v' (⟨-, rfl⟩ | hschedule)
    · rfl
    · exact hr.schedule _ _ _ _ _ hschedule
  rw [← hpulled]
  cases hcourse with
  | empty hevents =>
    refine .inl (.vacant hevents ?_ ?_) <;> rw [hrest]
  | together _ hmerge hlater =>
    have hmerged := settlement_of_settleBatch hr.store hr.supply horderly₂ hsound hmerge
    rw [hrest, ← hscheduled hlater] at hmerged
    cases hmerged with
    | booked harea _ hbooked => exact .inl (.merged harea hbooked)
  | alone hmerge hfinal _ hload hid hagain hlater =>
    have hfirst := settlement_of_settleBatch hr.store hr.supply horderly₂ hsound hmerge
    cases hfirst with
    | jammed => rw [ResolveError.isTransient_ofStore] at hfinal; cases hfinal
    | untouched hkept =>
      obtain ⟨hclean, hsecond⟩ := settlement_alone hr (hkept.orderly horderly₂) hload hid hagain
      have hsettled := hsecond.frame hkept (.of_eq (hscheduled hlater))
      rw [hrest] at hsettled
      cases hsettled with
      | booked harea _ hbooked => exact .inl (.spared hfinal harea hclean hbooked)
  | refused hnone _ hmerge =>
    have hfirst := settlement_of_settleBatch hr.store hr.supply horderly₂ hsound hmerge
    -- No batch was pulled, so that there is none to give back.
    have huntried : r.Unmerged routes pulled e.timeline.stream w' w' := .untried w'
    obtain ⟨harea, hended⟩ := untouched_or_doubled hr horderly₂ hfirst huntried (.inl rfl)
    rw [hrest] at harea hended
    have hback : ∀ g, (shelf w').area.group g = (shelf w).area.group g := by
      intro g
      have hgroup := StagingArea.group_requeue_pull (shelf w).area
        ⟨weakChannel, e.timeline.key .domain⟩ g r.pullMax
      change (found.2.requeue _ found.1).group g = _ at hgroup
      rw [← hpulled, hnone, StagingArea.group_requeue_nil] at hgroup
      rwa [harea]
    rcases hended with hstored | hdoubled
    · exact .inl (.returned hback hstored)
    · exact .inr (hdoubled.congr rfl rfl hback)
  | @returned _ _ _ w₄ w₅ _ _ hmerge halone htried hrequeue hschedule =>
    have hfirst := settlement_of_settleBatch hr.store hr.supply horderly₂ hsound hmerge
    obtain ⟨harea, hended⟩ := untouched_or_doubled hr horderly₂ hfirst halone htried
    have hend := (hr.schedule _ _ _ _ _ hschedule).trans (hr.of_requeue hrequeue)
    rw [hrest] at harea hended
    have hback : ∀ g, (shelf w').area.group g = (shelf w).area.group g := by
      intro g
      rw [hend, hpulled]
      change ((shelf w₄).area.requeue _ _).group g = _
      rw [harea]
      exact StagingArea.group_requeue_pull ..
    have hsame : (shelf w').stored = (shelf w₄).stored := by rw [hend]
    rcases hended with hstored | hdoubled
    · exact .inl (.returned hback (hsame.trans hstored))
    · exact .inr (hdoubled.congr rfl hsame hback)

end WeakResolver

namespace World

variable {n : Node} {opened : Moment} {w w' : World}

/-- A node's store is in order if every timeline in a cache fits together and has nothing
pending. -/
def shelf (area : Nat) (w : World) : Shelf where
  stored := w.log.all.filter fun event => event.lane ≠ .snapshot
  area := w.area area
  orderly := ∀ c (key : String) (t : Timeline),
    (w.cache c)[key]? = some t → t.Sound ∧ t.dirty = false

theorem Consistent.orderly (hc : w.Consistent) (area : Nat) : (w.shelf area).orderly := by
  intro c key t ht
  obtain ⟨-, hrooted, hclean⟩ := hc.cached c key t ht
  exact ⟨hrooted.sound, hclean⟩

theorem orderly_timeline {log : EventLog} {stream : StreamRef} {t : Timeline}
    (h : log.timeline stream = .ok t) : t.Sound ∧ t.dirty = false := by
  obtain ⟨snapshot, -, rfl⟩ := except_map_eq_ok.1 h
  exact ⟨Timeline.sound_ofHistory .., Timeline.dirty_ofHistory ..⟩

theorem orderly_remember {area : Nat} (h : (w.shelf area).orderly) (c : Nat) (key : String)
    {t : Timeline} (ht : t.Sound ∧ t.dirty = false) :
    ((w.remember c key t).shelf area).orderly := by
  intro d other t' ht'
  rw [getElem?_cache_remember] at ht'
  split at ht'
  · cases ht'
    exact ht
  · exact h d other t' ht'

theorem occurrences_shelf (area : Nat) (w : World) (x : Lane × String × Json) :
    occurrences x (w.shelf area).stored =
      if x.1 = .snapshot then 0 else occurrences x w.log.all := by
  split
  · rename_i hx
    exact occurrences_eq_zero fun event hevent => by simpa [hx] using (List.mem_filter.1 hevent).2
  · rename_i hx
    have hperm := List.filter_append_perm (fun event : Event => event.lane ≠ .snapshot) w.log.all
    have hrecords :
        occurrences x (w.log.all.filter fun event => !decide (event.lane ≠ .snapshot)) = 0 :=
      occurrences_eq_zero fun event hevent => by
        have hlane : event.lane = .snapshot := by simpa using (List.mem_filter.1 hevent).2
        rw [hlane]
        exact Ne.symm hx
    rw [← occurrences_perm x hperm, occurrences_append, hrecords]
    rfl

theorem stored_congr {area : Nat} (hlog : w'.log.streams = w.log.streams) :
    (w'.shelf area).stored = (w.shelf area).stored := by
  have hall : w'.log.all = w.log.all := by
    rw [EventLog.all, EventLog.all, EventLog.keys, EventLog.keys, hlog,
      funext (EventLog.events_congr hlog)]
  simp only [shelf, hall]

theorem kept_of_streams {area : Nat} (hlog : w'.log.streams = w.log.streams)
    (harea : w'.area area = w.area area)
    (hcaches : (w.shelf area).orderly → (w'.shelf area).orderly) :
    (w.shelf area).Kept (w'.shelf area) where
  stored := stored_congr hlog
  area := harea
  orderly := hcaches

theorem kept_annotated (area : Nat) (w : World)
    (data : Std.ExtTreeMap String (Int × StreamMetadata)) :
    (w.shelf area).Kept ((w.annotated data).shelf area) :=
  kept_of_streams rfl rfl id

/-- The store of a node refuses a write of a stream that is held or not up to date, and nothing is
stored then. -/
theorem fallible_store (n : Node) (opened : Moment) (area : Nat) :
    (n.store (site opened)).Fallible (shelf area) where
  fetch := by
    intro stream w r w' h
    obtain ⟨-, rfl⟩ := runs_fetch.1 h
    refine kept_of_streams (by rw [log_viewed]) (by simp only [World.area, areas_viewed]) ?_
    intro hcaches
    -- A fetch caches what it reads, and that is in order.
    unfold viewed
    split
    · rename_i t _ ht
      exact orderly_remember hcaches n.cache _ (orderly_timeline ht)
    · exact hcaches
  fetched := by
    intro stream w t w' horderly h
    obtain ⟨hview, -⟩ := runs_fetch.1 h
    have hfound : t.Sound ∧ t.dirty = false := by
      unfold view at hview
      split at hview
      · rename_i cached hcached
        cases hview
        exact horderly _ _ _ hcached
      · exact orderly_timeline hview.symm
    exact ⟨hfound.1, Timeline.batch_eq_nil hfound.2⟩
  freeze := by
    intro t w r w' h
    obtain ⟨data, rfl⟩ := runs_freeze h
    exact kept_annotated area w data
  unfreeze := by
    intro t w r w' h
    obtain ⟨-, data, rfl⟩ := runs_unfreeze h
    exact kept_annotated area w data
  refused := by
    intro commitId t headers w err w' h
    cases wrote_of_runs h with
    | held hheld => exact .refl _
    | conflict hpending hversion =>
      refine kept_of_streams rfl rfl ?_
      intro hcaches c key t' ht
      rw [getElem?_cache_forget] at ht
      split at ht
      · cases ht
      · exact hcaches c key t' ht
  written := by
    intro commitId t headers w v w' horderly hsound h
    cases wrote_of_runs h with
    | stored hversion hstored =>
      refine ⟨fun x => ?_, rfl, ?_⟩
      -- Snapshots are on a lane of their own, which does not count.
      · rw [occurrences_shelf, occurrences_shelf]
        split
        · rename_i hx
          rw [occurrences_eq_zero fun event hevent => ?_]
          rcases hsound.routable event hevent with hlane | ⟨hlane, -⟩ <;> simp [hlane, hx]
        · rename_i hx
          exact hstored.all hsound x hx
      · exact orderly_remember horderly n.cache _ ⟨hsound.settle, Timeline.dirty_settle t⟩

theorem fallible_weak (n : Node) (opened : Moment) :
    (n.weak (site opened)).Fallible (shelf n.area) where
  store := fallible_store n opened n.area
  supply := by
    constructor
    · intro w id w' h
      obtain ⟨i, rfl⟩ := runs_freshId h
      rfl
    · intro w time w' h
      obtain ⟨-, rfl⟩ := runs_now.1 h
      rfl
  schedule := by
    intro stream delay w u w' h
    obtain rfl := runs_schedule h
    rfl
  staging := by
    refine ⟨areaCell cell n.area, opened, ⟨?_, ?_⟩, rfl⟩
    · intro w a w' h
      obtain ⟨rfl, rfl⟩ := runs_area_get.1 h
      exact ⟨rfl, rfl⟩
    · intro a w u w' h
      obtain rfl := runs_area_set.1 h
      rw [shelf, World.area, Std.ExtTreeMap.getD_insert_self]
      rfl

end World

/-- A store that may refuse any request may refuse to give up every freeze. -/
theorem StreamStore.Fallible.stuck {store : StreamStore (StateM σ)} {shelf : σ → Shelf}
    (h : store.Fallible shelf) (cause : StoreError) :
    StreamStore.Fallible { store with unfreeze := fun _ => pure (.error cause) } shelf where
  fetch := h.fetch
  fetched := h.fetched
  freeze := h.freeze
  unfreeze := by
    intro t w r w' hrun
    obtain ⟨-, rfl⟩ := runs_pure.1 hrun
    exact .refl _
  refused := h.refused
  written := h.written

namespace Cluster

/-- The resolver of a teller that freezes a stream for every merge and cannot give it up again. -/
def stuckTeller : WeakResolver (StateM World) :=
  let r := (teller 1).node.weak (World.site .epoch)
  { r with
    store := { r.store with unfreeze := fun _ => pure (.error (.backend "store unavailable")) }
    freezeThreshold := 0 }

theorem fallible_stuckTeller : stuckTeller.Fallible (World.shelf sharedArea) := by
  have hr := World.fallible_weak (teller 1).node .epoch
  exact ⟨hr.store.stuck _, hr.supply, hr.schedule, hr.staging⟩

def tallyRoutes : Routes Id Samples.Tally := tallies.routes ()

/-- The late steps are merged while the freeze cannot be given up. Then they are stored, and they
are still staged. -/
theorem doubled_lateSteps :
    let w := ((start .epoch).run .epoch (lateSteps.take 7)).world
    let key := tallyStream.key .domain
    ∃ e e' w', w.loaded 1 tallyRoutes tallyStream = .ok e ∧
      Resolves (stuckTeller.resolveStaged tallyRoutes.lift [] (.numbered 102) ∅) e w
        (.error (.store "store unavailable")) e' w' ∧
      (w.log.events key).length = 1 ∧ (w'.log.events key).length = 2 ∧
      (w.queue sharedArea key).length = 1 ∧ w'.queue sharedArea key = w.queue sharedArea key := by
  intro w key
  obtain ⟨rs, hleads⟩ := leads_run .epoch (steady_start (C := tallies) .epoch) (lateSteps.take 7)
  have hconsistent : w.Consistent := hleads.steady.consistent
  have hfacts : (w.loaded 1 tallyRoutes tallyStream).toOption.map (fun e =>
      let after :=
        ((stuckTeller.resolveStaged tallyRoutes.lift [] (.numbered 102) ∅).run.run e).run w
      (after.1.1, e.timeline.key .domain, (after.2.log.events key).length,
        decide ((after.2.shelf sharedArea).stored = (w.shelf sharedArea).stored))) =
      some (.error (.store "store unavailable"), key, 2, false) := by
    decide +kernel
  have hbefore : (w.log.events key).length = 1 ∧ (w.queue sharedArea key).length = 1 := by
    decide +kernel
  obtain ⟨e, hfound, hfacts⟩ := Option.map_eq_some_iff.1 hfacts
  have he := except_toOption_eq_some.1 hfound
  obtain ⟨⟨result, e'⟩, w', hrun⟩ := Runs.total
    ((stuckTeller.resolveStaged tallyRoutes.lift [] (.numbered 102) ∅).run.run e) w
  simp only [hrun.run_eq, Prod.mk.injEq, decide_eq_false_iff_not] at hfacts
  obtain ⟨rfl, hkey, hafter, hchanged⟩ := hfacts
  have hend := WeakResolver.accounted_or_doubled fallible_stuckTeller
    (hconsistent.orderly sharedArea) (hconsistent.loaded he).2.2.1.sound hrun
  rw [hkey] at hend
  have hback : w'.queue sharedArea key = w.queue sharedArea key := by
    rcases hend with haccounted | hdoubled
    · cases haccounted with
      | spared hfinal => cases hfinal
      | returned _ hstored => exact absurd hstored hchanged
    · exact hdoubled.group_eq ⟨weakChannel, key⟩
  exact ⟨e, e', w', he, hrun, hbefore.1, hafter, hbefore.2, hback⟩

end Cluster

end Chronicle
