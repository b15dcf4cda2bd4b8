import Chronicle.Proofs.Accounts
import Chronicle.Proofs.Committing
import Chronicle.Proofs.Staging

/-!
# What becomes of staged batches

A weak resolver stages a batch, or pulls staged batches and merges them with it. `Tallied` says
what becomes of the batch: what is held under the domain key afterwards, and what was dropped.
Pulled batches that were neither merged with the current one nor without it are back in front of
the others, so whatever left the staging area was stored or declined.
-/

namespace Chronicle

variable {S : Type}

namespace World

variable {n : Node} {opened : Moment} {w w' : World} {key : String}

section Staging

theorem runs_age_iff {r : Except String (Option Span)} :
    Runs ((n.weak (site opened)).staging.age weakChannel key) w r w' ↔
      r = .ok ((w.area n.area).age ⟨weakChannel, key⟩ (opened.after w.elapsed)) ∧ w' = w := by
  change Runs ((StagingArea.staging (areaCell cell n.area) (surroundings cell) opened).age
    weakChannel key) w r w' ↔ _
  simp only [StagingArea.staging, runs_bind, runs_elapsed, runs_area_get, runs_pure, and_assoc,
    exists_and_left, exists_eq_left]

theorem runs_age {r : Except String (Option Span)}
    (h : Runs ((n.weak (site opened)).staging.age weakChannel key) w r w') :
    (∃ age, r = .ok age ∧ (w.queue n.area key = [] → age = none)) ∧ w' = w := by
  obtain ⟨rfl, rfl⟩ := runs_age_iff.1 h
  refine ⟨⟨_, rfl, fun hqueue => ?_⟩, rfl⟩
  change (w'.queue n.area key).head?.map _ = none
  rw [hqueue]
  rfl

theorem runs_size {r : Except String Nat} :
    Runs ((n.weak (site opened)).staging.size weakChannel key) w r w' ↔
      r = .ok (w.queue n.area key).length ∧ w' = w := by
  change Runs ((StagingArea.staging (areaCell cell n.area) (surroundings cell) opened).size
    weakChannel key) w r w' ↔ _
  simp only [StagingArea.staging, runs_bind_pure, runs_area_get, and_assoc, exists_eq_left]
  exact and_comm

/-- Batches are pulled from the front. Where batches are staged, at least one is pulled, unless the
limit is zero. -/
theorem runs_pull {max : Option Nat} {r : Except String (List (Staged ConflictBatch))}
    (h : Runs ((n.weak (site opened)).staging.pull weakChannel key max) w r w') :
    ∃ count, r = .ok ((w.queue n.area key).take count) ∧
      w' = w.restaged n.area key ((w.queue n.area key).drop count) ∧
      (max ≠ some 0 → w.queue n.area key ≠ [] → 0 < count) := by
  change Runs ((StagingArea.staging (areaCell cell n.area) (surroundings cell) opened).pull
    weakChannel key max) w r w' at h
  simp only [StagingArea.staging, runs_bind, runs_area_get, runs_area_set, runs_pure, and_assoc,
    exists_and_left, exists_eq_left] at h
  obtain ⟨hr, -, hw⟩ := h
  refine ⟨_, hr, hw, fun hmax hne => ?_⟩
  have hsize : 0 < (w.area n.area).size ⟨weakChannel, key⟩ := List.length_pos_iff.2 hne
  cases max with
  | none => exact hsize
  | some limit => exact Nat.lt_min.2 ⟨Nat.pos_of_ne_zero fun hzero => hmax (by rw [hzero]), hsize⟩

theorem runs_add {batch : ConflictBatch} {r : Except String Unit}
    (h : Runs ((n.weak (site opened)).staging.add weakChannel key batch) w r w') :
    r = .ok () ∧ ∃ i id received,
      w' = (w.logged i w.log).restaged n.area key
        (w.queue n.area key ++ [⟨id, received, batch⟩]) := by
  change Runs ((StagingArea.staging (areaCell cell n.area) (surroundings cell) opened).add
    weakChannel key batch) w r w' at h
  simp only [StagingArea.staging, runs_bind, runs_elapsed, runs_area_modify, runs_pure, and_assoc,
    exists_and_left, exists_eq_left] at h
  obtain ⟨id, w₁, hid, hr, -, hw⟩ := h
  obtain ⟨i, rfl⟩ := runs_freshId hid
  exact ⟨hr, i, id, _, hw⟩

theorem runs_requeue {messages : List (Staged ConflictBatch)} {r : Except String Unit} :
    Runs ((n.weak (site opened)).staging.requeue weakChannel key messages) w r w' ↔
      r = .ok () ∧ w' = w.restaged n.area key (messages ++ w.queue n.area key) := by
  change Runs ((StagingArea.staging (areaCell cell n.area) (surroundings cell) opened).requeue
    weakChannel key messages) w r w' ↔ _
  simp only [StagingArea.staging, runs_bind, runs_area_modify, runs_pure]
  constructor
  · rintro ⟨_, _, rfl, rfl, rfl⟩
    exact ⟨rfl, rfl⟩
  · rintro ⟨rfl, rfl⟩
    exact ⟨(), _, rfl, rfl, rfl⟩

/-- The world with a stream on an agenda, due after a delay unless it is due earlier. -/
def scheduled (w : World) (a : Nat) (stream : StreamRef) (delay : Span) : World :=
  { w with agendas := w.agendas.insert a ((w.agenda a).schedule stream (w.elapsed + delay)) }

theorem runs_schedule {stream : StreamRef} {delay : Span} {a : Unit}
    (h : Runs ((n.weak (site opened)).schedule stream delay) w a w') :
    w' = w.scheduled n.agenda stream delay := by
  change Runs ((agendaCell cell n.agenda).schedule (surroundings cell) stream delay) w a w' at h
  rw [Cell.schedule, runs_bind] at h
  obtain ⟨span, w₁, helapsed, hmodify⟩ := h
  obtain ⟨rfl, rfl⟩ := runs_elapsed.1 helapsed
  exact runs_agenda_modify.1 hmodify

theorem idle_schedule {stream : StreamRef} {delay : Span} {a : Unit}
    (h : Runs ((n.weak (site opened)).schedule stream delay) w a w') : w.Idle w' := by
  obtain rfl := runs_schedule h
  exact ⟨rfl, rfl, rfl⟩

end Staging

variable {routes : Routes Id S} {e e' d : Entity S} {current : List Event} {commitId : Uuid}
  {headers : Headers}

theorem view_forget (w : World) (c : Nat) (stream : StreamRef) :
    (w.forget c (stream.key .domain)).view c stream = w.log.timeline stream := by
  simp [view, getElem?_cache_forget]

theorem view_viewed (w : World) (c : Nat) (stream : StreamRef) :
    (w.viewed c stream).view c stream = w.view c stream := by
  cases hc : (w.cache c)[stream.key .domain]? with
  | some t => simp [viewed, hc]
  | none =>
    cases ht : w.log.timeline stream with
    | error err => simp [viewed, view, hc, ht]
    | ok t => simp [viewed, view, hc, ht, getElem?_cache_remember]

theorem loaded_lift (w : World) (c : Nat) (routes : Routes Id S) (stream : StreamRef) :
    w.loaded c (routes.lift : Routes (StateM World) S) stream = w.loaded c routes stream := by
  simp only [loaded, Entity.ofTimeline_lift]

/-- What a node loads could have been loaded from the log. -/
theorem Consistent.loaded {m : Type → Type} {routes : Routes m S} {c : Nat} {stream : StreamRef}
    (hc : w.Consistent) (h : w.loaded c routes stream = .ok e) :
    w.view c stream = .ok e.timeline ∧ e.timeline.key .domain = stream.key .domain ∧
      e.timeline.Rooted w.log ∧ e.timeline.dirty = false :=
  ⟨view_of_loaded h, hc.view (view_of_loaded h)⟩

/-- What became of a batch under a domain key. A batch that was merged is held but for what was
dropped of it; one that was deferred is held as a whole, and one that was refused not at all. The
events in `dropped` may come from batches that were held before. -/
def Tallied (area : Nat) (w w' : World) (key : String) (e' : Entity S) (batch : List Event)
    (dropped : List Event → List Event) : Except ResolveError Resolution → Prop
  | .ok .deferred => e'.timeline.Rooted w'.log ∧ w.Passes area w' key batch (dropped [])
  | .ok _ => e'.timeline.Rooted w'.log ∧ w.Passes area w' key batch (dropped batch)
  | .error _ => w.Passes area w' key [] (dropped [])

theorem Tallied.of_nil {area : Nat} {dropped : List Event → List Event}
    {r : Except ResolveError Resolution} (h : w.Tallied area w' key e [] dropped r) :
    w.Passes area w' key [] (dropped []) := by
  cases r with
  | ok resolution => cases resolution with
    | committed | discarded | deferred => exact h.2
  | error err => exact h

theorem Tallied.of_ok {area : Nat} {events : List Event} {dropped : List Event → List Event}
    {resolution : Resolution} (h : w.Tallied area w' key e events dropped (.ok resolution))
    (hne : resolution ≠ .deferred) :
    e.timeline.Rooted w'.log ∧ w.Passes area w' key events (dropped events) := by
  cases resolution with
  | committed | discarded => exact h
  | deferred => exact absurd rfl hne

theorem Passes.tallied {area : Nat} {events : List Event} {dropped : List Event → List Event}
    {w₁ : World} {r : Except ResolveError Resolution} (h : w.Passes area w₁ key [] [])
    (h' : w₁.Tallied area w' key e events dropped r) :
    w.Tallied area w' key e events dropped r := by
  cases r with
  | ok resolution => cases resolution with
    | committed | discarded | deferred => exact ⟨h'.1, h.trans h'.2⟩
  | error err => exact h.trans h'

/-- To gain what is pending in an entity that has taken in a batch is to gain the batch, but for
what was dropped of it. -/
theorem Passes.absorbed {area : Nat} {gained events dropped : List Event}
    (h : w.Passes area w' key gained []) (hgained : d.timeline.batch = gained)
    (habsorbs : e.Absorbs d events dropped) (hclean : e.timeline.dirty = false)
    (hr : ∀ event ∈ events, event.Routable) : w.Passes area w' key events dropped := by
  refine h.congr fun x => ?_
  have hcounts := habsorbs.counts hr x
  rw [Timeline.batch_eq_nil hclean, hgained] at hcounts
  simp only [occurrences_nil] at hcounts ⊢
  omega

/-- A merge gains the batch and loses what was declined, or changes nothing that is held. -/
theorem Merged.passes {drawn : Moment → Prop} {events : List Event}
    {r : Except ResolveError Resolution} (h : Merged n drawn routes events e w r e' w')
    (area : Nat) (hc : w.Consistent) (he : e.timeline.Rooted w.log)
    (hclean : e.timeline.dirty = false) (hr : ∀ event ∈ events, event.Routable) :
    w.Tallied area w' (e.timeline.key .domain) e' events (routes.declined e.state) r := by
  cases h with
  | failed _ hidle => exact Passes.idle hc hidle ..
  | outdated _ _ hidle => exact (Passes.forget hc ..).trans (.idle (hc.forget ..) hidle ..)
  | @stored d kept dropped i log w₁ w' hbefore hmerges hversion hstored hafter =>
    have habsorbs := hmerges.absorbs
    rw [← hmerges.replays.declined_eq] at habsorbs
    have hkey : d.timeline.key .domain = e.timeline.key .domain := by
      rw [Timeline.key, Timeline.key, habsorbs.continues.stream]
    have hc₁ := hc.idle hbefore
    have hpass₁ := Passes.idle hc hbefore area (d.timeline.key .domain)
    have hd := hpass₁.rooted hc (he.continues habsorbs.continues)
    have hpass₂ := Passes.stored hc₁ i hstored hd area
    have hsettled := hd.settle hstored hc₁.numbered hversion
    have hpass₃ := Passes.remember hpass₂.consistent n.cache hsettled rfl area
      (d.timeline.key .domain)
    have hpass₄ := Passes.idle hpass₃.consistent hafter area (d.timeline.key .domain)
    constructor
    · exact hpass₄.rooted hpass₃.consistent (hpass₃.rooted hpass₂.consistent hsettled)
    · rw [← hkey]
      have hpass := ((hpass₁.trans hpass₂).trans hpass₃).trans hpass₄
      simp only [List.nil_append, List.append_nil] at hpass
      exact hpass.absorbed rfl habsorbs hclean hr
  | nothing hmerges hclean' hidle =>
    have habsorbs := hmerges.absorbs
    rw [← hmerges.replays.declined_eq] at habsorbs
    have hpass := Passes.idle hc hidle area (e.timeline.key .domain)
    refine ⟨hpass.rooted hc (he.continues habsorbs.continues), ?_⟩
    exact hpass.absorbed (Timeline.batch_eq_nil hclean') habsorbs hclean hr

theorem Merged.ne_deferred {drawn : Moment → Prop} {events : List Event} {resolution : Resolution}
    (h : Merged n drawn routes events e w (.ok resolution) e' w') : resolution ≠ .deferred := by
  cases h <;> simp

theorem queue_eq_of_areas (h : w'.areas = w.areas) (area : Nat) (key : String) :
    w'.queue area key = w.queue area key := by
  rw [queue, World.area, h]
  rfl

/-- The events of the batches that were staged under a domain key and are so no longer. -/
def taken (w w' : World) (area : Nat) (key : String) : List Event :=
  stagedEvents ((w.queue area key).take ((w.queue area key).length - (w'.queue area key).length))

theorem taken_eq {area : Nat} {pulled rest : List (Staged ConflictBatch)}
    (hq : w.queue area key = pulled ++ rest) (hq' : w'.queue area key = rest) :
    w.taken w' area key = stagedEvents pulled := by
  simp [taken, hq, hq']

theorem taken_eq_nil {area : Nat}
    (h : (w.queue area key).length ≤ (w'.queue area key).length) : w.taken w' area key = [] := by
  simp [taken, Nat.sub_eq_zero_of_le h, stagedEvents]

theorem taken_congr {w₁ : World} {area : Nat} (h : w₁.areas = w.areas) :
    w₁.taken w' area key = w.taken w' area key := by
  rw [taken, taken, queue_eq_of_areas h]

theorem granting_weak (n : Node) (opened : Moment) : (n.weak (site opened)).staging.Granting :=
  StagingArea.granting_staging _ _ _

theorem idle_scheduled {stream : StreamRef} {delay : Span} {w₁ : World}
    {p : Prop} (h : p ∧ w' = w₁ ∨ Runs ((n.weak (site opened)).schedule stream delay) w₁ () w') :
    w₁.Idle w' := by
  rcases h with ⟨-, rfl⟩ | h
  · exact .refl _
  · exact idle_schedule h

private theorem passes_requeue {pulled : List (Staged ConflictBatch)} {w₁ : World}
    {stream : StreamRef} {delay : Span} (hc : w.Consistent)
    (hr : ∀ event ∈ stagedEvents pulled, event.Routable)
    (hrequeue : Runs ((n.weak (site opened)).staging.requeue weakChannel key pulled) w (.ok ()) w₁)
    (hschedule : Runs ((n.weak (site opened)).schedule stream delay) w₁ () w') :
    w'.queue n.area key = pulled ++ w.queue n.area key ∧
      w.Passes n.area w' key (stagedEvents pulled) [] := by
  obtain ⟨-, rfl⟩ := runs_requeue.1 hrequeue
  have hidle := idle_schedule hschedule
  have hback : ∀ event ∈ stagedEvents (pulled ++ w.queue n.area key), event.Routable := by
    intro event hevent
    rw [stagedEvents_append] at hevent
    rcases List.mem_append.1 hevent with hevent | hevent
    · exact hr event hevent
    · exact hc.routable _ _ event hevent
  refine ⟨by rw [queue_eq_of_areas hidle.areas, queue_restaged], ?_⟩
  have hpass := Passes.restaged hc n.area key hback
  refine (hpass.trans (.idle hpass.consistent hidle ..)).congr fun x => ?_
  simp only [stagedEvents_append, occurrences_append, occurrences_nil]
  omega

/-- Merging pulled batches without another one starts from what the node loads. -/
private theorem passes_again {pulled : List (Staged ConflictBatch)} {stream : StreamRef}
    {fresh : Entity S} {id : Uuid} {w₁ w₂ : World} {r : Except ResolveError Resolution}
    (hload : Runs (loadEntity (n.store (site opened)) routes.lift stream).run w (.ok fresh) w₁)
    (hid : Runs (surroundings cell).freshId w₁ id w₂)
    (hmerge : Resolves (settleBatch (n.store (site opened)) (surroundings cell) routes.lift
      (stagedEvents pulled) id ∅ .resolveWeakly n.settings.freezeThreshold) fresh w₂ r d w')
    (area : Nat) (hc : w.Consistent) (hr : ∀ event ∈ stagedEvents pulled, event.Routable) :
    w.loaded n.cache (routes.lift : Routes (StateM World) S) stream = .ok fresh ∧
      w'.areas = w.areas ∧ w.Tallied area w' (stream.key .domain) d (stagedEvents pulled)
        (routes.declined fresh.state) r ∧
      ∀ resolution, r = .ok resolution → resolution ≠ .deferred := by
  obtain ⟨hfound, rfl⟩ := runs_loadEntity.1 hload
  obtain ⟨i, rfl⟩ := runs_freshId hid
  obtain ⟨-, hkey, hrooted, hclean⟩ := hc.loaded hfound.symm
  have hmerged := (merged_of_settleBatch hmerge).idle (.issued _ i) (.refl _)
  have hpass := Passes.viewed hc n.cache stream area (stream.key .domain)
  have hend := hmerged.passes area hpass.consistent (hpass.rooted hc hrooted) hclean hr
  rw [hkey] at hend
  refine ⟨hfound.symm, hmerged.areas.trans (areas_viewed ..), hpass.tallied hend, ?_⟩
  rintro resolution rfl
  exact hmerged.ne_deferred

/-- An attempt to merge pulled batches without another one that comes to nothing stages nothing. -/
theorem areas_of_unmerged {pulled : List (Staged ConflictBatch)} {stream : StreamRef}
    (h : (n.weak (site opened)).Unmerged routes pulled stream w w') : w'.areas = w.areas := by
  cases h with
  | untried => rfl
  | unloaded hload =>
    obtain ⟨-, rfl⟩ := runs_loadEntity.1 hload
    exact areas_viewed ..
  | failed hload hid hmerge =>
    obtain ⟨-, rfl⟩ := runs_loadEntity.1 hload
    obtain ⟨i, rfl⟩ := runs_freshId hid
    exact (merged_of_settleBatch hmerge).areas.trans (areas_viewed ..)

private theorem passes_unmerged {pulled : List (Staged ConflictBatch)} {stream : StreamRef}
    (h : (n.weak (site opened)).Unmerged routes pulled stream w w') (area : Nat)
    (hc : w.Consistent) (hr : ∀ event ∈ stagedEvents pulled, event.Routable) :
    w.Passes area w' (stream.key .domain) [] [] := by
  cases h with
  | untried => exact .refl hc ..
  | unloaded hload =>
    obtain ⟨-, rfl⟩ := runs_loadEntity.1 hload
    exact .viewed hc ..
  | failed hload hid hmerge =>
    obtain ⟨-, -, htallied, -⟩ := passes_again hload hid hmerge area hc hr
    exact htallied

/-- Batches were pulled, and then merged together with the current one, merged alone or given
back. -/
private theorem tallied_of_pulled {area : Nat} {w₁ : World} {r : Except ResolveError Resolution}
    {pulled rest : List (Staged ConflictBatch)} (settled : Bool)
    (hpull : w.Passes area w₁ key (stagedEvents rest) (stagedEvents (pulled ++ rest)))
    (hqueue : w.queue area key = pulled ++ rest)
    (hback : w'.queue area key = (if settled then [] else pulled) ++ rest)
    (hok : ∀ resolution, r = .ok resolution → resolution ≠ .deferred ∧ settled = true ∧
      e'.timeline.Rooted w'.log ∧ w₁.Passes area w' key (stagedEvents pulled ++ current)
        (routes.declined e.state (stagedEvents pulled ++ current)))
    (herror : ∀ err, r = .error err → w₁.Passes area w' key (stagedEvents pulled)
      (routes.declined e.state (if settled then stagedEvents pulled else []))) :
    w.Tallied area w' key e' current
      (fun merged => routes.declined e.state (w.taken w' area key ++ merged)) r := by
  have htaken : w.taken w' area key = if settled then stagedEvents pulled else [] := by
    cases settled with
    | true => exact taken_eq hqueue hback
    | false => exact taken_eq_nil (by simp [hqueue, hback])
  have hcount : ∀ x, occurrences x (stagedEvents (pulled ++ rest)) =
      occurrences x (stagedEvents pulled) + occurrences x (stagedEvents rest) := by
    intro x
    rw [stagedEvents_append, occurrences_append]
  cases r with
  | ok resolution =>
    obtain ⟨hne, rfl, hrooted, hpass⟩ := hok resolution rfl
    have htotal : w.Passes area w' key current
        (routes.declined e.state (w.taken w' area key ++ current)) := by
      refine (hpull.trans hpass).congr fun x => ?_
      rw [htaken, if_pos rfl]
      simp only [occurrences_append, hcount]
      omega
    cases resolution with
    | committed | discarded => exact ⟨hrooted, htotal⟩
    | deferred => exact absurd rfl hne
  | error err =>
    refine (hpull.trans (herror err rfl)).congr fun x => ?_
    rw [htaken]
    simp only [occurrences_append, hcount, List.append_nil, occurrences_nil]
    omega

theorem pulled_of_runs {max : Option Nat} {pulled : List (Staged ConflictBatch)} (hc : w.Consistent)
    (h : Runs ((n.weak (site opened)).staging.pull weakChannel key max) w (.ok pulled) w') :
    ∃ rest, w.queue n.area key = pulled ++ rest ∧ w' = w.restaged n.area key rest ∧
      (∀ event ∈ stagedEvents pulled, event.Routable) ∧
      ∀ event ∈ stagedEvents rest, event.Routable := by
  obtain ⟨count, hpulled, rfl, -⟩ := runs_pull h
  cases hpulled
  have hstaged : ∀ event ∈ stagedEvents (w.queue n.area key), event.Routable := hc.routable n.area _
  rw [← List.take_append_drop count (w.queue n.area key), stagedEvents_append] at hstaged
  exact ⟨_, (List.take_append_drop ..).symm, rfl,
    fun event hevent => hstaged event (List.mem_append_left _ hevent),
    fun event hevent => hstaged event (List.mem_append_right _ hevent)⟩

/-- Staged batches are merged with the current one, without it, or stay where they are. What
leaves the staging area and is not stored has been declined. -/
theorem passes_resolveStaged {r : Except ResolveError Resolution}
    (h : Resolves ((n.weak (site opened)).resolveStaged routes.lift current commitId headers) e w
      r e' w') (hc : w.Consistent) (he : e.timeline.Rooted w.log)
    (hclean : e.timeline.dirty = false) (hcurrent : ∀ event ∈ current, event.Routable)
    (hload : current ≠ [] →
      w.loaded n.cache (routes.lift : Routes (StateM World) S) e.timeline.stream = .ok e) :
    w.Tallied n.area w' (e.timeline.key .domain) e' current (fun merged =>
      routes.declined e.state (w.taken w' n.area (e.timeline.key .domain) ++ merged)) r := by
  obtain ⟨waiting, pulled, w₁, w₂, hsize, hpull, hcourse⟩ :=
    WeakResolver.course_of_resolveStaged (granting_weak n opened) h
  obtain ⟨-, rfl⟩ := runs_size.1 hsize
  obtain ⟨rest, hqueue, rfl, hpulled, hrest⟩ := pulled_of_runs hc hpull
  have hpass : w₁.Passes n.area (w₁.restaged n.area (e.timeline.key .domain) rest)
      (e.timeline.key .domain) (stagedEvents rest) (stagedEvents (pulled ++ rest)) :=
    hqueue ▸ Passes.restaged hc n.area _ hrest
  have hrooted := hpass.rooted hc he
  have hall : ∀ event ∈ stagedEvents pulled ++ current, event.Routable := by
    intro event hevent
    rcases List.mem_append.1 hevent with hevent | hevent
    · exact hpulled event hevent
    · exact hcurrent event hevent
  have hleft : ∀ {w₃ : World}, w₃.areas = (w₁.restaged n.area (e.timeline.key .domain) rest).areas →
      w₃.queue n.area (e.timeline.key .domain) = rest := by
    intro w₃ hareas
    rw [queue_eq_of_areas hareas, queue_restaged]
  cases hcourse with
  | empty hevents =>
    refine tallied_of_pulled true hpass hqueue (queue_restaged ..) ?_ (by simp)
    intro resolution hr
    cases hr
    rw [hevents]
    exact ⟨by simp, rfl, hrooted, .refl hpass.consistent ..⟩
  | @together resolution _ w₃ _ _ hmerge hscheduled =>
    have hmerged := merged_of_settleBatch hmerge
    have hidle := idle_scheduled hscheduled
    obtain ⟨hrooted', hend'⟩ := (hmerged.passes n.area hpass.consistent hrooted hclean hall).of_ok
      hmerged.ne_deferred
    have hlast := Passes.idle hend'.consistent hidle n.area (e.timeline.key .domain)
    refine tallied_of_pulled true hpass hqueue
      ((queue_eq_of_areas hidle.areas ..).trans (hleft hmerged.areas)) ?_ (by simp)
    intro resolution' hr
    cases hr
    refine ⟨hmerged.ne_deferred, rfl, hlast.rooted hend'.consistent hrooted', ?_⟩
    exact (hend'.trans hlast).congr fun x => by simp
  | @alone resolution err id d fresh _ w₃ w₄ w₅ w₆ _ hmerge hfinal hne hfresh hid hagain
      hscheduled =>
    -- The failed merge has left the world as it was, so that the pulled batches are merged into the
    -- same state once more.
    have hmerged := merged_of_settleBatch hmerge
    have hend := hmerged.passes n.area hpass.consistent hrooted hclean hall
    obtain ⟨hfound, hareas', hagain', hne'⟩ :=
      passes_again hfresh hid hagain n.area hend.consistent hpulled
    have hidle := idle_scheduled hscheduled
    rw [hmerged.stream_eq, loaded, (hmerged.idle_of_error hfinal).view] at hfound
    cases (hload hne).symm.trans hfound
    rw [hmerged.stream_eq] at hagain'
    obtain ⟨-, hpassed⟩ := hagain'.of_ok (hne' _ rfl)
    have hlast := Passes.idle hpassed.consistent hidle n.area (e.timeline.key .domain)
    refine tallied_of_pulled true hpass hqueue
      ((queue_eq_of_areas hidle.areas ..).trans (hleft (hareas'.trans hmerged.areas))) (by simp)
      fun _ _ => ?_
    exact ((hend.trans hpassed).trans hlast).congr fun x => by simp [Routes.declined]
  | refused hnil _ hmerge =>
    have hmerged := merged_of_settleBatch hmerge
    have hend := hmerged.passes n.area hpass.consistent hrooted hclean hall
    refine tallied_of_pulled false hpass hqueue (by simp [hleft hmerged.areas, hnil]) (by simp)
      fun _ _ => ?_
    exact Passes.congr hend fun x => by simp [hnil, stagedEvents, Routes.declined]
  | returned _ hmerge halone _ hrequeue hschedule =>
    have hmerged := merged_of_settleBatch hmerge
    have hend := hmerged.passes n.area hpass.consistent hrooted hclean hall
    have htried := passes_unmerged halone n.area hend.consistent hpulled
    rw [hmerged.stream_eq] at htried
    obtain ⟨hback, hgiven⟩ := passes_requeue htried.consistent hpulled hrequeue hschedule
    rw [hleft ((areas_of_unmerged halone).trans hmerged.areas)] at hback
    refine tallied_of_pulled false hpass hqueue hback (by simp) fun _ _ => ?_
    exact ((hend.trans htried).trans hgiven).congr fun x => by simp [Routes.declined]

/-- A batch is staged behind the others of its stream, or merged with them. -/
theorem tallied_weak {r : Except ResolveError Resolution}
    (h : Resolves ((n.weak (site opened)).resolve routes.lift current commitId headers) e w
      r e' w') (hc : w.Consistent) (he : e.timeline.Rooted w.log)
    (hclean : e.timeline.dirty = false) (hcurrent : ∀ event ∈ current, event.Routable)
    (hload : w.loaded n.cache (routes.lift : Routes (StateM World) S) e.timeline.stream = .ok e) :
    w.Tallied n.area w' (e.timeline.key .domain) e' current (fun merged =>
      routes.declined e.state (w.taken w' n.area (e.timeline.key .domain) ++ merged)) r := by
  obtain ⟨age, w₁, hage, hcourse⟩ := WeakResolver.course_of_resolve (granting_weak n opened) h
  obtain ⟨-, rfl⟩ := runs_age hage
  rcases hcourse with ⟨-, h₁⟩ | ⟨delay, w₂, hadd, hschedule, -, rfl, rfl⟩
  · exact passes_resolveStaged h₁ hc he hclean hcurrent fun _ => hload
  · obtain ⟨-, i, id, received, rfl⟩ := runs_add hadd
    have hidle := idle_schedule hschedule
    have hissued := Passes.idle hc (.issued w₁ i) n.area (e'.timeline.key .domain)
    have hnew : stagedEvents [⟨id, received, ⟨routes.entity, e'.parents, current⟩⟩] = current := by
      simp [stagedEvents]
    have hback : ∀ event ∈ stagedEvents (w₁.queue n.area (e'.timeline.key .domain) ++
        [⟨id, received, ⟨routes.entity, e'.parents, current⟩⟩]), event.Routable := by
      intro event hevent
      rw [stagedEvents_append, hnew] at hevent
      rcases List.mem_append.1 hevent with hevent | hevent
      · exact hc.routable _ _ event hevent
      · exact hcurrent event hevent
    have hstaged := Passes.restaged hissued.consistent n.area (e'.timeline.key .domain) hback
    have hdone := Passes.idle hstaged.consistent hidle n.area (e'.timeline.key .domain)
    have hqueue : w'.queue n.area (e'.timeline.key .domain) =
        w₁.queue n.area (e'.timeline.key .domain) ++
          [⟨id, received, ⟨routes.entity, e'.parents, current⟩⟩] := by
      rw [queue_eq_of_areas hidle.areas]
      exact queue_restaged ..
    have hpass := (hissued.trans hstaged).trans hdone
    refine ⟨hpass.rooted hc he, hpass.congr fun x => ?_⟩
    rw [taken_eq_nil (by simp [hqueue]), stagedEvents_append, hnew]
    simp only [Routes.declined, List.append_nil, List.nil_append, occurrences_append,
      occurrences_nil]
    change _ + occurrences x (stagedEvents (w₁.queue n.area (e'.timeline.key .domain))) = _
    omega

/-- What is staged for a stream is merged into what the node loads, without any other batch. -/
theorem runs_handleStaged {stream : StreamRef} {r : Except ResolveError Resolution}
    (h : Runs ((n.weak (site opened)).handleStaged routes.lift stream) w r w') :
    (∃ err, w.loaded n.cache routes stream = .error err ∧ r = .error err.toResolve ∧
      (err.toResolve.isTransient = false ∧ w' = w.viewed n.cache stream ∨
        Runs ((n.weak (site opened)).schedule stream n.ageThreshold)
          (w.viewed n.cache stream) () w')) ∨
    ∃ e i commitId e', w.loaded n.cache routes stream = .ok e ∧
      Resolves ((n.weak (site opened)).resolveStaged routes.lift [] commitId ∅) e
        ((w.viewed n.cache stream).logged i (w.viewed n.cache stream).log) r e' w' := by
  unfold WeakResolver.handleStaged at h
  rw [runs_bind] at h
  obtain ⟨found, w₁, hload, h⟩ := h
  obtain ⟨hfound, rfl⟩ := runs_loadEntity.1 hload
  rw [loaded_lift] at hfound
  cases found with
  | error err =>
    refine .inl ⟨err, hfound.symm, ?_⟩
    by_cases htransient : err.toResolve.isTransient = true
    · simp only [if_pos htransient, runs_bind, runs_pure] at h
      obtain ⟨_, w₂, hschedule, rfl, rfl⟩ := h
      exact ⟨rfl, .inr hschedule⟩
    · simp only [if_neg htransient, runs_pure] at h
      exact ⟨h.1, .inl ⟨Bool.eq_false_iff.2 htransient, h.2⟩⟩
  | ok e =>
    simp only [runs_bind, runs_pure] at h
    obtain ⟨commitId, w₂, hid, ⟨result, e'⟩, w₃, hresolve, rfl, rfl⟩ := h
    obtain ⟨i, rfl⟩ := runs_freshId hid
    exact .inr ⟨e, i, commitId, e', hfound.symm, hresolve⟩

end World

end Chronicle
