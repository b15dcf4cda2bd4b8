import Chronicle.Proofs.Histories

/-!
# What staged events are decided on

A worker merges staged events into the timeline that its node is given, which may be an outdated
copy from the cache. Whatever is merged is then stored with a check of the version, so that nothing
is merged into an outdated copy. But a pass in which every event is declined stores no domain events
and passes no such check.
-/

namespace Chronicle

variable {S : Type}

namespace World

variable {n : Node} {opened : Moment} {routes : Routes Id S} {w w' : World} {e e' : Entity S}
  {commitId : Uuid} {headers : Headers} {stream : StreamRef}

/-- Events that left the staging area went through their routes from the state of an entity. Those
that were kept are stored, and if there are any, the entity was at the version of its stream. -/
def Settles (w w' : World) (routes : Routes Id S) (e : Entity S) (events : List Event) : Prop :=
  ∃ s' kept dropped, routes.Replays e.state events s' kept dropped ∧
    (w'.log.events (e.timeline.key .domain)).map Event.entry =
      (w.log.events (e.timeline.key .domain)).map Event.entry ++ kept.map Event.entry ∧
    (kept ≠ [] → e.version = w.log.version (e.timeline.key .domain))

theorem Merged.settles {drawn : Moment → Prop} {events : List Event} {resolution : Resolution}
    (h : Merged n drawn routes events e w (.ok resolution) e' w')
    (hclean : e.timeline.dirty = false) : w.Settles w' routes e events := by
  have hnone : e.timeline.pending = [] := (Timeline.dirty_eq_false.1 hclean).1
  cases h with
  | @stored d kept dropped i log w₁ _ hbefore hmerges hversion hstored hafter =>
    have hkey : d.timeline.key .domain = e.timeline.key .domain := by
      rw [Timeline.key, hmerges.continues.stream]
      rfl
    have hpending := hmerges.pending
    rw [hnone, List.map_nil, List.nil_append] at hpending
    have hsame : ∀ key, w₁.log.events key = w.log.events key :=
      EventLog.events_congr hbefore.streams
    refine ⟨d.state, kept, dropped, hmerges.replays, ?_, fun hkept => ?_⟩
    · have hlog := hstored.map_entry_domain
      rw [hkey, hsame, hpending] at hlog
      rw [EventLog.events_congr hafter.streams]
      exact hlog
    · have hd : d.timeline.pending ≠ [] := by
        intro hnil
        rw [hnil] at hpending
        exact hkept (List.map_eq_nil_iff.1 hpending.symm)
      have hcurrent := hversion hd
      rw [hkey, hmerges.continues.version, EventLog.version, hsame] at hcurrent
      exact hcurrent.symm
  | @nothing _ kept dropped _ hmerges hended hidle =>
    have hpending := hmerges.pending
    rw [hnone, (Timeline.dirty_eq_false.1 hended).1] at hpending
    obtain rfl : kept = [] := List.map_eq_nil_iff.1 hpending.symm
    refine ⟨e'.state, [], dropped, hmerges.replays, ?_, fun hkept => absurd rfl hkept⟩
    rw [EventLog.events_congr hidle.streams, List.map_nil, List.append_nil]

/-- What leaves the staging area in a pass without a current batch was settled by it. -/
theorem settles_resolveStaged {r : Except ResolveError Resolution}
    (h : Resolves ((n.weak (site opened)).resolveStaged routes.lift [] commitId headers)
      e w r e' w') (hc : w.Consistent) (hclean : e.timeline.dirty = false) :
    w.taken w' n.area (e.timeline.key .domain) = [] ∨
      w.Settles w' routes e (w.taken w' n.area (e.timeline.key .domain)) := by
  obtain ⟨waiting, pulled, w₁, w₂, hsize, hpull, hcourse⟩ :=
    WeakResolver.course_of_resolveStaged (granting_weak n opened) h
  obtain ⟨-, rfl⟩ := runs_size.1 hsize
  obtain ⟨rest, hqueue, rfl, -, -⟩ := pulled_of_runs hc hpull
  have hleft : ∀ {w₃ : World}, w₃.areas = (w₁.restaged n.area (e.timeline.key .domain) rest).areas →
      w₃.queue n.area (e.timeline.key .domain) = rest := by
    intro w₃ hareas
    rw [queue_eq_of_areas hareas, queue_restaged]
  cases hcourse with
  | empty hevents =>
    rw [List.append_nil] at hevents
    exact .inl ((taken_eq hqueue (hleft rfl)).trans hevents)
  | together _ hmerge hscheduled =>
    have hmerged := (merged_of_settleBatch hmerge).idle (.refl _) (idle_scheduled hscheduled)
    rw [List.append_nil] at hmerged
    rw [taken_eq hqueue (hleft hmerged.areas)]
    exact .inr (hmerged.settles hclean)
  | alone _ _ hcurrent => exact absurd rfl hcurrent
  | refused _ hcurrent => exact absurd rfl hcurrent
  | returned _ hmerge halone _ hrequeue hschedule =>
    obtain ⟨-, rfl⟩ := runs_requeue.1 hrequeue
    have hareas := (areas_of_unmerged halone).trans (merged_of_settleBatch hmerge).areas
    refine .inl (taken_eq_nil (Nat.le_of_eq ?_))
    rw [queue_eq_of_areas (idle_schedule hschedule).areas, queue_restaged, hleft hareas, hqueue]

/-- What leaves the staging area when a due stream is handled was decided on by the routes, starting
from what the node loads. -/
theorem settles_handleStaged {r : Except ResolveError Resolution}
    (h : Runs ((n.weak (site opened)).handleStaged routes.lift stream) w r w') (hc : w.Consistent) :
    w.taken w' n.area (stream.key .domain) = [] ∨
      ∃ e, w.loaded n.cache routes stream = .ok e ∧ e.timeline.key .domain = stream.key .domain ∧
        e.timeline.Rooted w.log ∧
        w.Settles w' routes e (w.taken w' n.area (stream.key .domain)) := by
  rcases runs_handleStaged h with ⟨err, -, -, hscheduled⟩ |
    ⟨e, i, commitId, e', hfound, hresolve⟩
  · have hareas := (idle_scheduled hscheduled).areas.trans (areas_viewed w n.cache stream)
    exact .inl (taken_eq_nil (Nat.le_of_eq (by rw [queue_eq_of_areas hareas])))
  · obtain ⟨-, hkey, hrooted, hclean⟩ := hc.loaded hfound
    have hissued := (hc.viewed n.cache stream).idle (.issued _ i)
    have htaken : ((w.viewed n.cache stream).logged i (w.viewed n.cache stream).log).taken w'
        n.area (stream.key .domain) = w.taken w' n.area (stream.key .domain) :=
      taken_congr (areas_viewed w n.cache stream)
    have hsettles := settles_resolveStaged hresolve hissued hclean
    rw [hkey, htaken] at hsettles
    refine hsettles.imp_right fun hsettled => ⟨e, hfound, hkey, hrooted, ?_⟩
    rwa [Settles, log_logged, log_viewed] at hsettled

/-- Without a cached copy a node loads the stream as it is in the log. -/
theorem Consistent.version_of_uncached (hc : w.Consistent) {c : Nat}
    (hnone : (w.cache c)[stream.key .domain]? = none) (h : w.loaded c routes stream = .ok e) :
    e.version = w.log.version (stream.key .domain) := by
  obtain ⟨hview, -⟩ := hc.loaded h
  rw [World.view, hnone] at hview
  exact (EventLog.timeline_spec hc.numbered hc.recorded hview).2.1

end World

namespace Cluster

variable {C : Catalog} {c : Cluster C} {opened : Moment} {w : World}

/-- A world that a cluster is in, or that a worker leaves on its way through the streams that are
due. -/
inductive Visits (c : Cluster C) (opened : Moment) : World → Prop where
  | between : Visits c opened c.world
  | amid {p : Participant C} {due handled : List StreamRef} {w₀ w : World}
      (hdue : Runs ((World.agendaCell World.cell p.agenda).takeDue
        (World.surroundings World.cell)) c.world due w₀)
      (hhandled : handled <+: due) (hrun : Runs ((p.worker opened).handleAll handled) w₀ () w) :
      Visits c opened w

theorem Visits.consistent (h : c.Visits opened w) (hc : c.world.Consistent) : w.Consistent := by
  cases h with
  | between => exact hc
  | amid hdue _ hrun =>
    obtain ⟨-, rfl⟩ := Participant.runs_takeDue hdue
    exact (Participant.books_handleAll (hc.idle (.cleared ..)) hrun).consistent

/-- A staged event that is settled went through its route on the current version of the stream,
followed by what was merged before it, or on an outdated copy from the cache. In the latter case
every domain event of the pass was declined. -/
theorem current_or_declined (opened wall : Moment) (operations : List (Operation C)) {w w' : World}
    (hw : ((start wall).run opened operations).Visits opened w) (p : Participant C) (kind : C.Kind)
    (stream : StreamRef) {r : Except ResolveError Resolution}
    (h : Runs ((p.node.weak (World.site opened)).handleStaged (C.routes kind).lift stream) w r w') :
    let key := stream.key .domain
    let taken := w.taken w' sharedArea key
    taken = [] ∨ ∃ e s' kept dropped, w.loaded p.cache (C.routes kind) stream = .ok e ∧
      (C.routes kind).Replays e.state taken s' kept dropped ∧
      (w'.log.events key).map Event.entry =
        (w.log.events key).map Event.entry ++ kept.map Event.entry ∧
      (e.version = w.log.version key ∨
        e.version < w.log.version key ∧ (w.cache p.cache)[key]?.isSome ∧ kept = []) := by
  intro key taken
  obtain ⟨rs, hleads⟩ := leads_run opened (steady_start (C := C) wall) operations
  have hc := hw.consistent hleads.steady.consistent
  refine (World.settles_handleStaged h hc).imp_right ?_
  rintro ⟨e, hfound, hkey, hrooted, s', kept, dropped, hreplays, hlog, hcurrent⟩
  rw [hkey] at hlog hcurrent
  refine ⟨e, s', kept, dropped, hfound, hreplays, hlog, ?_⟩
  by_cases hversion : e.version = w.log.version key
  · exact .inl hversion
  · refine .inr ⟨?_, ?_, ?_⟩
    · have hle : e.version ≤ w.log.version (e.timeline.key .domain) := hrooted.based.version
      rw [hkey] at hle
      exact Int.lt_iff_le_and_ne.2 ⟨hle, hversion⟩
    · cases hcached : (w.cache p.cache)[key]? with
      | none => exact absurd (hc.version_of_uncached hcached hfound) hversion
      | some t => rfl
    · -- What was kept has passed the check of the version, which an outdated copy does not.
      by_contra hkept
      exact hversion (hcurrent hkept)

def stocks : Catalog where
  Kind := Unit
  State _ := Samples.StockItem
  routes _ := Samples.StockItem.routes

def clerk (i : Nat) : Participant stocks where
  owner := .numbered i
  bucket := "default"
  settings := { ConflictSettings.standard with strategy := .resolveWeakly }
  cache := i
  agenda := i
  registered := [()]

def restock (slot n : Nat) : Operation stocks :=
  .apply slot fun _ => Samples.Restocked.type.move ⟨n⟩ Samples.StockItem.restock

def reserve (slot n : Nat) : Operation stocks :=
  .apply slot fun _ => Samples.Reserved.type.move ⟨n⟩ Samples.StockItem.reserve

/-- One item comes in, then a reservation of two is staged, and five more items come in through
another node. -/
def lateReservation : List (Operation stocks) :=
  [.newEntity (clerk 0) () "s-1", .newEntity (clerk 1) () "s-1", restock 1 1,
    .commit (clerk 1) 1 (.numbered 100) ∅, reserve 0 2, .commit (clerk 0) 0 (.numbered 101) ∅,
    restock 1 5, .commit (clerk 1) 1 (.numbered 102) ∅]

def stockStream : StreamRef := ⟨"stock_item", "default", "s-1", []⟩

/-- The first node still has a copy with one item and declines the reservation, though there are six
items. -/
theorem declined_lateReservation :
    let w := ((start .epoch).run .epoch lateReservation).world
    let key := stockStream.key .domain
    let routes : Routes Id Samples.StockItem := stocks.routes ()
    ∃ e s' w' dropped, Runs (((clerk 0).node.weak (World.site .epoch)).handleStaged routes.lift
        stockStream) w (.ok .discarded) w' ∧
      w.loaded 0 routes stockStream = .ok e ∧ e.version = 0 ∧ w.log.version key = 1 ∧
      routes.Replays e.state (w.taken w' sharedArea key) s' [] dropped ∧ dropped.length = 1 ∧
      (w.loaded 2 routes stockStream).toOption.map Entity.state = some ⟨6⟩ := by
  intro w key routes
  obtain ⟨r, w', hrun⟩ := Runs.total (((clerk 0).node.weak (World.site .epoch)).handleStaged
    routes.lift stockStream) w
  have hfacts : w.log.version key = 1 ∧
      (w.loaded 2 routes stockStream).toOption.map Entity.state = some ⟨6⟩ ∧
      (w.loaded 0 routes stockStream).toOption.map Entity.version = some 0 := by
    decide +kernel
  have hhandled :
      let after := (((clerk 0).node.weak (World.site .epoch)).handleStaged routes.lift
        stockStream).run w
      after.1 = .ok .discarded ∧
        ((w.taken after.2 sharedArea key).filter fun event => event.lane = .domain).length = 1 := by
    decide +kernel
  simp only [hrun.run_eq] at hhandled
  obtain ⟨rfl, htaken⟩ := hhandled
  obtain ⟨hversion, hcurrent, hloaded⟩ := hfacts
  rcases current_or_declined .epoch .epoch lateReservation .between (clerk 0) () stockStream
    hrun with hnone | ⟨e, s', kept, dropped, hfound, hreplays, -, hdecided⟩
  · rw [hnone] at htaken
    cases htaken
  · change w.loaded 0 routes stockStream = .ok e at hfound
    have he : e.version = 0 := by
      rw [hfound] at hloaded
      exact Option.some.inj hloaded
    rcases hdecided with hsame | ⟨-, -, rfl⟩
    · cases he.symm.trans (hsame.trans hversion)
    · refine ⟨e, s', w', dropped, hrun, hfound, he, hversion, hreplays, ?_, hcurrent⟩
      exact hreplays.perm.length_eq.trans htaken

end Cluster

end Chronicle
