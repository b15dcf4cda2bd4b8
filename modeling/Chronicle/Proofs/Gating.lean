import Chronicle.Proofs.Requeueing

/-!
# The age gate of staged batches

A batch that is to be resolved meets the group of its stream. If the group is empty or its front
message is younger than the threshold the batch is staged as one message at the back, and the stream
is due when the front message will be as old as the threshold, unless it is due earlier. A batch
that is staged into an empty group is in front itself and has waited for no time at all.

Otherwise everything that is staged was staged before: the merge takes messages from the front and
may give them back, and it stages nothing. This holds for every store that has no access to the
staging area, whatever it answers, as long as the clock can show the time at which a batch that is
staged now will be old enough.
-/

namespace Chronicle

variable {σ S α : Type}

/-- A store whose requests leave alone what is observed. -/
structure StreamStore.Unobserved (store : StreamStore (StateM σ)) (observe : σ → α) : Prop where
  fetch : ∀ stream a r b, Runs (store.fetch stream) a r b → observe b = observe a
  write : ∀ commitId t headers a r b, Runs (store.write commitId t headers) a r b →
    observe b = observe a
  freeze : ∀ t a r b, Runs (store.freeze t) a r b → observe b = observe a
  unfreeze : ∀ t a r b, Runs (store.unfreeze t) a r b → observe b = observe a

namespace StreamStore.Unobserved

variable {store : StreamStore (StateM σ)} {supply : Surroundings (StateM σ)} {observe : σ → α}
  {routes : Routes Id S} {events : List Event} {commitId : Uuid} {headers : Headers}
  {strategy : ConflictStrategy} {threshold : Nat} {e d : Entity S} {a b : σ}
  {r : Except ResolveError Resolution}

theorem same_of_mergeCourse (hstore : store.Unobserved observe)
    (h : MergeCourse store supply observe routes events commitId headers e a r d b) :
    observe b = observe a := by
  cases h with
  | stopped _ _ hsame => exact hsame
  | nothing _ _ hsame => exact hsame
  | refused _ hsame hwrite => exact (hstore.write _ _ _ _ _ _ hwrite).trans hsame
  | stored _ hsame hwrite => exact (hstore.write _ _ _ _ _ _ hwrite).trans hsame

theorem same_of_settleBatch (hstore : store.Unobserved observe)
    (hsupply : supply.Unobserved observe)
    (h : Resolves (settleBatch store supply routes.lift events commitId headers strategy threshold)
      e a r d b) : observe b = observe a := by
  cases course_of_settleBatch hsupply h with
  | light _ hmerge => exact hstore.same_of_mergeCourse hmerge
  | barred hfreeze => exact hstore.freeze _ _ _ _ hfreeze
  | released _ hfreeze hmerge hrelease =>
    exact (hstore.unfreeze _ _ _ _ hrelease).trans
      ((hstore.same_of_mergeCourse hmerge).trans (hstore.freeze _ _ _ _ hfreeze))
  | stuck _ hfreeze hmerge hrelease =>
    exact (hstore.unfreeze _ _ _ _ hrelease).trans
      ((hstore.same_of_mergeCourse hmerge).trans (hstore.freeze _ _ _ _ hfreeze))

theorem same_of_loadEntity (hstore : store.Unobserved observe) {stream : StreamRef}
    {found : Except LoadError (Entity S)}
    (h : Runs (loadEntity store routes.lift stream).run a found b) : observe b = observe a := by
  change Runs (store.fetch stream >>= _) a found b at h
  rw [runs_bind] at h
  obtain ⟨fetched, a₁, hfetch, h⟩ := h
  have hsame := hstore.fetch _ _ _ _ hfetch
  cases fetched <;> rwa [(runs_pure.1 h).2]

end StreamStore.Unobserved

/-- What a resolver that stages batches works with: the time on its clock, its staging area, its
agenda, and what else there is. -/
structure Desk (α : Type) where
  clock : Span
  area : StagingArea ConflictBatch
  agenda : Agenda StreamRef
  rest : α

namespace WeakResolver

/-- A resolver with a staging area and an agenda in memory. Its store may answer whatever it likes,
but it has no access to the staging area. -/
structure InMemory (r : WeakResolver (StateM σ)) (start : Moment) (desk : σ → Desk α) : Prop where
  staging : ∃ cell, cell.Holds desk Desk.area (fun area d => { d with area }) ∧
    r.staging = StagingArea.staging cell r.surroundings start
  agenda : r.agenda.Holds desk Desk.agenda fun agenda d => { d with agenda }
  elapsed : ∀ a span b, Runs r.surroundings.elapsed a span b →
    span = (desk a).clock ∧ desk b = desk a
  supply : r.surroundings.Unobserved desk
  store : r.store.Unobserved fun a => (desk a).area

namespace InMemory

variable {r : WeakResolver (StateM σ)} {start : Moment} {desk : σ → Desk α} {routes : Routes Id S}
  {events : List Event} {commitId : Uuid} {headers : Headers} {e d : Entity S} {a b : σ}
  {channel key : String} {stream : StreamRef} {delay : Span}
  {result : Except ResolveError Resolution}

theorem granting (hr : r.InMemory start desk) : r.staging.Granting := by
  obtain ⟨cell, -, hstaging⟩ := hr.staging
  rw [hstaging]
  exact StagingArea.granting_staging cell _ start

theorem supply_area (hr : r.InMemory start desk) :
    r.surroundings.Unobserved fun a => (desk a).area :=
  hr.supply.comp Desk.area

theorem of_age (hr : r.InMemory start desk) {age : Option Span}
    (h : Runs (r.staging.age channel key) a (.ok age) b) :
    age = (desk a).area.age ⟨channel, key⟩ (start.after (desk a).clock) ∧ desk b = desk a := by
  obtain ⟨cell, hcell, hstaging⟩ := hr.staging
  rw [hstaging] at h
  obtain ⟨span, c, helapsed⟩ := Runs.total r.surroundings.elapsed a
  obtain ⟨rfl, hsame⟩ := hr.elapsed _ _ _ helapsed
  exact StagingArea.of_age hcell helapsed hsame h

theorem of_add (hr : r.InMemory start desk) {batch : ConflictBatch}
    (h : Runs (r.staging.add channel key batch) a (.ok ()) b) :
    ∃ id, desk b = { desk a with
      area := (desk a).area.add ⟨channel, key⟩ ⟨id, start.after (desk a).clock, batch⟩ } := by
  obtain ⟨cell, hcell, hstaging⟩ := hr.staging
  rw [hstaging] at h
  obtain ⟨span, c, helapsed⟩ := Runs.total r.surroundings.elapsed a
  obtain ⟨id, d, hid⟩ := Runs.total r.surroundings.freshId c
  obtain ⟨rfl, hsame⟩ := hr.elapsed _ _ _ helapsed
  have hquiet : desk d = desk a := (hr.supply.freshId _ _ _ hid).trans hsame
  exact ⟨id, StagingArea.of_add hcell helapsed hid hquiet h⟩

theorem of_schedule (hr : r.InMemory start desk) {u : Unit}
    (h : Runs (r.schedule stream delay) a u b) :
    desk b = { desk a with
      agenda := (desk a).agenda.schedule stream ((desk a).clock + delay) } := by
  obtain ⟨span, c, helapsed⟩ := Runs.total r.surroundings.elapsed a
  obtain ⟨rfl, hsame⟩ := hr.elapsed _ _ _ helapsed
  exact hr.agenda.schedule helapsed hsame h

theorem same_of_scheduled (hr : r.InMemory start desk) {p : Prop} {u : Unit}
    (h : p ∧ b = a ∨ Runs (r.schedule stream delay) a u b) : (desk b).area = (desk a).area := by
  rcases h with ⟨-, rfl⟩ | hschedule
  · rfl
  · rw [hr.of_schedule hschedule]

theorem same_of_merge (hr : r.InMemory start desk)
    (h : Resolves (settleBatch r.store r.surroundings routes.lift events commitId headers
      .resolveWeakly r.freezeThreshold) e a result d b) : (desk b).area = (desk a).area :=
  hr.store.same_of_settleBatch hr.supply_area h

/-- Messages may be merged into an entity that is loaded for it, and nothing is staged by that. -/
theorem same_of_mergeAlone (hr : r.InMemory start desk) {found : Except LoadError (Entity S)}
    {a₁ a₂ : σ} (hload : Runs (loadEntity r.store routes.lift stream).run a found a₁)
    (hid : Runs r.surroundings.freshId a₁ commitId a₂)
    (hmerge : Resolves (settleBatch r.store r.surroundings routes.lift events commitId headers
      .resolveWeakly r.freezeThreshold) e a₂ result d b) : (desk b).area = (desk a).area :=
  (hr.same_of_merge hmerge).trans
    ((hr.supply_area.freshId _ _ _ hid).trans (hr.store.same_of_loadEntity hload))

end InMemory

end WeakResolver

def Entity.stagingGroup (e : Entity S) : GroupName := ⟨weakChannel, e.timeline.key .domain⟩

/-- How long the front message of a group has waited at a time. An empty group has not waited, and
neither has a message from the future. -/
def StagingArea.frontAge {M : Type} (area : StagingArea M) (g : GroupName) (now : Moment) : Span :=
  match area.group g with
  | [] => .zero
  | front :: _ => (front.received.spanTo? now).getD .zero

theorem StagingArea.age_eq {M : Type} (area : StagingArea M) (g : GroupName) (now : Moment) :
    area.age g now = if area.group g = [] then none else some (area.frontAge g now) := by
  cases hg : area.group g <;> simp [age, frontAge, hg]

theorem StagingArea.getD_age {M : Type} (area : StagingArea M) (g : GroupName) (now : Moment) :
    (area.age g now).getD .zero = area.frontAge g now := by
  cases hg : area.group g <;> simp [age, frontAge, hg]

namespace WeakResolver

/-- When the front message for the stream of an entity is old enough. -/
def wakeTime (r : WeakResolver (StateM σ)) (start : Moment) (e : Entity S) (d : Desk α) : Span :=
  d.clock + (r.ageThreshold - d.area.frontAge e.stagingGroup (start.after d.clock))

/-- The batch was staged behind what is staged for the stream, and the stream was put on the agenda
for when the front message is old enough. Nothing else is different. -/
structure Deferred (r : WeakResolver (StateM σ)) (start : Moment) (routes : Routes Id S)
    (batch : List Event) (e : Entity S) (d d' : Desk α) : Prop where
  staged : ∃ id, d'.area.group e.stagingGroup = d.area.group e.stagingGroup ++
    [⟨id, start.after d.clock, ⟨routes.entity, e.parents, batch⟩⟩]
  others : ∀ g ≠ e.stagingGroup, d'.area.group g = d.area.group g
  due : d'.agenda.dueTime e.timeline.stream =
    some ((d.agenda.dueTime e.timeline.stream).elim (r.wakeTime start e d) fun known =>
      Agenda.earlier known (r.wakeTime start e d))
  shown : r.wakeTime start e d ≤ .latest
  dues : ∀ stream ≠ e.timeline.stream, d'.agenda.dueTime stream = d.agenda.dueTime stream
  clock : d'.clock = d.clock
  rest : d'.rest = d.rest

/-- No message was staged: what is staged for the stream is the end of what was staged before, and
the other groups are as they were. -/
structure Drawn (e : Entity S) (area area' : StagingArea ConflictBatch) : Prop where
  group : area'.group e.stagingGroup <:+ area.group e.stagingGroup
  others : ∀ g ≠ e.stagingGroup, area'.group g = area.group g

/-- How a batch passes the gate. -/
inductive Gated (r : WeakResolver (StateM σ)) (start : Moment) (routes : Routes Id S)
    (batch : List Event) (e : Entity S) (d d' : Desk α) :
    Except ResolveError Resolution → Entity S → Prop
  | deferred
      (hyoung : d.area.group e.stagingGroup = [] ∨
        d.area.frontAge e.stagingGroup (start.after d.clock) < r.ageThreshold)
      (hdeferred : r.Deferred start routes batch e d d') :
      Gated r start routes batch e d d' (.ok .deferred) e
  | merged {result : Except ResolveError Resolution} {e' : Entity S}
      (hstaged : d.area.group e.stagingGroup ≠ [])
      (hold : r.ageThreshold ≤ d.area.frontAge e.stagingGroup (start.after d.clock))
      (hdrawn : Drawn e d.area d'.area) :
      Gated r start routes batch e d d' result e'

variable {r : WeakResolver (StateM σ)} {start : Moment} {desk : σ → Desk α} {routes : Routes Id S}
  {batch current : List Event} {commitId : Uuid} {headers : Headers} {e e' : Entity S} {a b : σ}
  {result : Except ResolveError Resolution}

theorem Drawn.of_groups {area area' : StagingArea ConflictBatch}
    (h : ∀ g, area'.group g = area.group g) : Drawn e area area' :=
  ⟨h _ ▸ List.suffix_refl _, fun g _ => h g⟩

theorem Drawn.pull (e : Entity S) (area : StagingArea ConflictBatch) (max : Option Nat) :
    Drawn e area (area.pull e.stagingGroup max).2 where
  group := ⟨(area.pull e.stagingGroup max).1, area.pull_append_group e.stagingGroup max⟩
  others g hg := by rw [StagingArea.pull, StagingArea.group_setGroup_of_ne _ hg]

/-- Pulled messages that could not be merged without the current batch were only looked at. -/
private theorem same_of_unmerged {pulled : List (Staged ConflictBatch)} {stream : StreamRef}
    (hr : r.InMemory start desk) (h : r.Unmerged routes pulled stream a b) :
    (desk b).area = (desk a).area := by
  cases h with
  | untried => rfl
  | unloaded hload => exact hr.store.same_of_loadEntity hload
  | failed hload hid hmerge => exact hr.same_of_mergeAlone hload hid hmerge

/-- A merge of staged batches stages nothing, whatever comes of it. -/
theorem drawn_of_resolveStaged (hr : r.InMemory start desk)
    (h : Resolves (r.resolveStaged routes.lift current commitId headers) e a result e' b) :
    Drawn e (desk a).area (desk b).area := by
  obtain ⟨waiting, pulled, a₁, a₂, hsize, hpull, hcourse⟩ := course_of_resolveStaged hr.granting h
  obtain ⟨cell, hcell, hstaging⟩ := hr.staging
  rw [hstaging] at hsize hpull
  obtain ⟨hpulled, hrest⟩ := StagingArea.of_pull hcell hpull
  rw [(StagingArea.of_size hcell hsize).2] at hpulled hrest
  have hleft : (desk a₂).area = ((desk a).area.pull e.stagingGroup r.pullMax).2 := by
    rw [hrest]
    rfl
  have hpart : ∀ {c : σ}, (desk c).area = (desk a₂).area → Drawn e (desk a).area (desk c).area := by
    intro c hc
    rw [hc, hleft]
    exact .pull e _ r.pullMax
  cases hcourse with
  | empty => exact hpart rfl
  | together _ hmerge hlater =>
    exact hpart ((hr.same_of_scheduled hlater).trans (hr.same_of_merge hmerge))
  | alone hmerge _ _ hload hid hagain hlater =>
    exact hpart ((hr.same_of_scheduled hlater).trans
      ((hr.same_of_mergeAlone hload hid hagain).trans (hr.same_of_merge hmerge)))
  | refused _ _ hmerge => exact hpart (hr.same_of_merge hmerge)
  | @returned _ _ _ a₃ a₄ _ _ hmerge halone _ hrequeue hschedule =>
    rw [hstaging] at hrequeue
    have hback : (desk a₄).area = (desk a₃).area.requeue e.stagingGroup pulled :=
      congrArg Desk.area (StagingArea.of_requeue hcell hrequeue)
    refine .of_groups fun g => ?_
    rw [hr.of_schedule hschedule, hback, same_of_unmerged hr halone, hr.same_of_merge hmerge,
      hleft, hpulled]
    exact StagingArea.group_requeue_pull ..

theorem wakeTime_le (r : WeakResolver (StateM σ)) (start : Moment) (e : Entity S) (d : Desk α) :
    r.wakeTime start e d ≤ d.clock + r.ageThreshold :=
  Nat.add_le_add_left (Nat.sub_le ..) _

/-- A batch is staged exactly if nothing is staged for its stream or the front message is younger
than the threshold, and then the stream is due once that message is old enough. Otherwise nothing is
staged that was not staged before. -/
theorem gated_of_resolve (hr : r.InMemory start desk)
    (hshown : (desk a).clock + r.ageThreshold ≤ .latest)
    (h : Resolves (r.resolve routes.lift batch commitId headers) e a result e' b) :
    r.Gated start routes batch e (desk a) (desk b) result e' := by
  obtain ⟨age, a₁, hage, ⟨⟨waited, hwaited, hold⟩, hmerge⟩ |
    ⟨hyoung, a₂, hadd, hschedule, rfl, rfl⟩⟩ := gate_of_resolve hr.granting h
  · obtain ⟨rfl, hsame⟩ := hr.of_age hage
    have hdrawn := drawn_of_resolveStaged hr hmerge
    rw [hsame] at hdrawn
    rw [StagingArea.age_eq] at hwaited
    split at hwaited
    · cases hwaited
    · rename_i hstaged
      cases hwaited
      exact .merged hstaged hold hdrawn
  · obtain ⟨rfl, hsame⟩ := hr.of_age hage
    obtain ⟨id, hadded⟩ := hr.of_add hadd
    rw [hsame] at hadded
    have hscheduled := hr.of_schedule hschedule
    rw [hadded, StagingArea.getD_age] at hscheduled
    rw [hscheduled]
    refine .deferred ?_ ⟨⟨id, StagingArea.group_add_self ..⟩, fun g hg => ?_,
      Agenda.dueTime_schedule_self .., Nat.le_trans (wakeTime_le ..) hshown,
      fun stream hstream => ?_, rfl, rfl⟩
    · by_cases hg : (desk a).area.group e'.stagingGroup = []
      · exact .inl hg
      · refine .inr (Nat.lt_of_not_le (hyoung _ ?_))
        exact (StagingArea.age_eq ..).trans (if_neg hg)
    · exact StagingArea.group_setGroup_of_ne _ hg _
    · exact Agenda.dueTime_schedule_of_ne _ hstream _

end WeakResolver

namespace World

/-- What the weak resolver of a node works with. The rest are the log, the caches and the time of
the day. -/
def desk (n : Node) (w : World) : Desk (EventLog × Std.ExtTreeMap Nat TimelineCache × Moment) where
  clock := w.elapsed
  area := w.area n.area
  agenda := w.agenda n.agenda
  rest := (w.log, w.caches, w.wall)

theorem unobserved_store (n : Node) (opened : Moment) (area : Nat) :
    (n.store (site opened)).Unobserved fun w => w.area area where
  fetch := by
    intro stream w r w' h
    obtain ⟨-, rfl⟩ := runs_fetch.1 h
    simp only [World.area, areas_viewed]
  write := by
    intro commitId t headers w r w' h
    cases wrote_of_runs h <;> rfl
  freeze := by
    intro t w r w' h
    obtain ⟨data, rfl⟩ := runs_freeze h
    rfl
  unfreeze := by
    intro t w r w' h
    obtain ⟨-, data, rfl⟩ := runs_unfreeze h
    rfl

theorem inMemory_weak (n : Node) (opened : Moment) :
    (n.weak (site opened)).InMemory opened (desk n) where
  staging := by
    refine ⟨areaCell cell n.area, ⟨?_, ?_⟩, rfl⟩
    · intro w area w' h
      obtain ⟨rfl, rfl⟩ := runs_area_get.1 h
      exact ⟨rfl, rfl⟩
    · intro area w u w' h
      obtain rfl := runs_area_set.1 h
      simp [desk, World.area, World.agenda]
  agenda := by
    constructor
    · intro w agenda w' h
      obtain ⟨rfl, rfl⟩ := runs_agenda_get.1 h
      exact ⟨rfl, rfl⟩
    · intro agenda w u w' h
      obtain rfl := runs_agenda_set.1 h
      simp [desk, World.area, World.agenda]
  elapsed := by
    intro w span w' h
    obtain ⟨rfl, rfl⟩ := runs_elapsed.1 h
    exact ⟨rfl, rfl⟩
  supply := unobserved_surroundings.comp (desk n)
  store := unobserved_store n opened n.area

end World

namespace Cluster

def stepOf (n : Nat) : Event :=
  (Timeline.empty tallyStream).draft .domain 0 ⟨.numbered 100, .epoch⟩ "tally.step"
    (.ofFields [("n", .int n)]) ∅

/-- The first step is staged. Thirty seconds later it is old enough, and the second one is merged
together with it. -/
theorem gated_steps :
    let r := (teller 1).node.weak (World.site .epoch)
    let desk := World.desk (teller 1).node
    let w := World.start .epoch
    ∃ e w₁ e₂ w₂, Entity.ofTimeline tallyRoutes (.empty tallyStream) = .ok e ∧
      Resolves (r.resolve tallyRoutes.lift [stepOf 2] (.numbered 101) ∅) e w (.ok .deferred) e w₁ ∧
      r.Gated .epoch tallyRoutes [stepOf 2] e (desk w) (desk w₁) (.ok .deferred) e ∧
      (w₁.agenda 1).dueTime tallyStream = some (.ofSeconds 30) ∧
      Resolves (r.resolve tallyRoutes.lift [stepOf 3] (.numbered 102) ∅) e
        (w₁.advance (.ofSeconds 30)) (.ok .committed) e₂ w₂ ∧
      r.Gated .epoch tallyRoutes [stepOf 3] e (desk (w₁.advance (.ofSeconds 30))) (desk w₂)
        (.ok .committed) e₂ := by
  intro r desk w
  have hfacts : (Entity.ofTimeline tallyRoutes (.empty tallyStream)).toOption.any (fun e =>
      let first := ((r.resolve tallyRoutes.lift [stepOf 2] (.numbered 101) ∅).run.run e).run w
      let second := ((r.resolve tallyRoutes.lift [stepOf 3] (.numbered 102) ∅).run.run e).run
        (first.2.advance (.ofSeconds 30))
      decide (first.1.1 = .ok .deferred ∧
        (first.2.agenda 1).dueTime tallyStream = some (.ofSeconds 30) ∧
        (first.2.advance (.ofSeconds 30)).elapsed = .ofSeconds 30 ∧
        second.1.1 = .ok .committed)) = true := by
    decide +kernel
  obtain ⟨e, hfound, hfacts⟩ := (Option.any_eq_true ..).1 hfacts
  obtain ⟨⟨r₁, e₁⟩, w₁, hfirst⟩ := Runs.total
    ((r.resolve tallyRoutes.lift [stepOf 2] (.numbered 101) ∅).run.run e) w
  obtain ⟨⟨r₂, e₂⟩, w₂, hsecond⟩ := Runs.total
    ((r.resolve tallyRoutes.lift [stepOf 3] (.numbered 102) ∅).run.run e)
    (w₁.advance (.ofSeconds 30))
  simp only [hfirst.run_eq, hsecond.run_eq, decide_eq_true_eq] at hfacts
  obtain ⟨rfl, hdue, helapsed, rfl⟩ := hfacts
  have hmemory := World.inMemory_weak (teller 1).node .epoch
  have hgated := WeakResolver.gated_of_resolve hmemory (by decide) hfirst
  obtain rfl : e₁ = e := by
    cases hgated with
    | deferred => rfl
    | merged hstaged => exact absurd (by simp [World.desk, w, World.start, World.area]) hstaged
  have hlater : (desk (w₁.advance (.ofSeconds 30))).clock + r.ageThreshold ≤ .latest := by
    change (w₁.advance (.ofSeconds 30)).elapsed + .ofSeconds 30 ≤ Span.latest
    rw [helapsed]
    decide
  exact ⟨e₁, w₁, e₂, w₂, except_toOption_eq_some.1 hfound, hfirst, hgated, hdue, hsecond,
    WeakResolver.gated_of_resolve hmemory hlater hsecond⟩

end Cluster

end Chronicle
