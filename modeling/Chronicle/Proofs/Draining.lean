import Chronicle.Proofs.Bystanders
import Chronicle.Proofs.Retelling
import Chronicle.Proofs.Serializing

/-!
# Draining staged batches pass by pass

A worker that pulls only so many batches merges what is staged for a stream in several passes, each
into what the node loads then. If conflict routes do what handle routes do and states are not
recorded, the state that is loaded is the one that the pass before left, so that all passes together
store what one pass over everything stores. A pass puts the stream on the agenda again exactly if it
leaves batches behind.
-/

namespace Chronicle

variable {S : Type}

namespace Entity

variable {routes : Routes Id S} {e m : Entity S} {events kept dropped : List Event}

theorem exists_takes {s s' : S} (h : routes.Replays s events s' kept dropped) (hs : e.state = s) :
    ∃ d : Entity S, e.Takes d events kept ∧ d.state = s' := by
  have stamp : Stamp := ⟨.numbered 0, .epoch⟩
  induction h generalizing e with
  | nil s => exact ⟨e, .refl e, hs⟩
  | @merged _ s₁ _ event _ _ _ hlane _ _ ih =>
    obtain ⟨d, htakes, hd⟩ := ih (e := { e with state := s₁ }.record stamp event "") rfl
    exact ⟨d, (Takes.record e s₁ e.conflicts stamp "" hlane).cons htakes, hd⟩
  | @declined _ s₁ _ _ _ _ _ hlane _ _ ih =>
    obtain ⟨d, htakes, hd⟩ := ih (e := { e with state := s₁ }) rfl
    exact ⟨d, (Takes.decline e s₁ e.conflicts hlane).cons htakes, hd⟩
  | @passed _ _ event _ _ _ hlane _ ih =>
    by_cases ho : event.lane = .oob
    · have hstate : (e.reraise stamp event).2.state = e.state := by
        unfold Entity.reraise
        split <;> rfl
      obtain ⟨d, htakes, hd⟩ := ih (e := (e.reraise stamp event).2) (hstate.trans hs)
      exact ⟨d, (Takes.reraise e stamp ho).cons htakes, hd⟩
    · obtain ⟨d, htakes, hd⟩ := ih hs
      exact ⟨d, (Takes.skip e ho).cons htakes, hd⟩

theorem staged_of_none (hnone : routes.snapshots = none) (e : Entity S) (time : Moment) :
    e.staged routes time = .ok e := by
  simp [staged, shouldTakeSnapshot, Routes.policy?, hnone]

/-- Mergeable events can be merged into any entity whose state is not recorded. -/
theorem exists_merges (hnone : routes.snapshots = none)
    (hevents : ∀ event ∈ events, event.lane = .domain →
      routes.Mergeable event.kind event.payload) (e : Entity S) :
    ∃ m kept dropped, e.Merges routes (fun _ => True) events m kept dropped := by
  obtain ⟨s', kept, dropped, hreplays⟩ := Routes.exists_replays hevents e.state
  obtain ⟨d, htakes, rfl⟩ := exists_takes hreplays rfl
  exact ⟨d, kept, dropped,
    .intro hreplays htakes (fun _ => trivial) (staged_of_none hnone d .epoch)⟩

theorem exists_ofTimeline_settle {drawn : Moment → Prop} (hnone : routes.snapshots = none)
    (hhandled : routes.MergesAsHandled) (hclean : e.timeline.dirty = false)
    (he : ofTimeline routes e.timeline = .ok e)
    (hmerges : e.Merges routes drawn events m kept dropped) :
    ∃ e' : Entity S, ofTimeline routes m.timeline.settle = .ok e' ∧
      e'.timeline = m.timeline.settle ∧ e'.state = m.state := by
  obtain ⟨-, -, first, hfirst, hsettled⟩ := ofTimeline_eq_ok.1 he
  obtain ⟨hpending, -, hsnapshot⟩ := Timeline.dirty_eq_false.1 hclean
  have hcontinues := hmerges.continues
  have hunstaged : m.timeline.pendingSnapshot = none := by
    obtain ⟨-, htakes, -, hstaged⟩ := hmerges
    rw [staged_of_none hnone, Except.ok.injEq] at hstaged
    rw [← hstaged, htakes.unstaged, hsnapshot]
  have hcontents := map_content_of_entry hmerges.pending
  rw [hpending, List.map_nil, List.nil_append] at hcontents
  refine ⟨⟨m.state, m.timeline.settle, 0⟩, ofTimeline_eq_ok.2 ⟨rfl, rfl, first, ?_, ?_⟩, rfl, rfl⟩
  · rw [← hfirst]
    simp [startState, Timeline.settle, hunstaged, hcontinues.snapshot]
  · rw [Timeline.settle, hcontinues.settled]
    exact Routes.hydrates_append.2 ⟨e.state, hsettled,
      (Routes.hydrates_congr hcontents).2 (hmerges.replays.hydrates hhandled)⟩

end Entity

namespace World

/-- Behind what was stored for a stream, the kept domain events of a batch are stored as they were
recorded again, and its out-of-band events as they are. -/
structure Gains (stream : StreamRef) (events kept : List Event) (w w' : World) : Prop where
  domain : (w'.log.events (stream.key .domain)).map Event.body =
    (w.log.events (stream.key .domain)).map Event.body ++
      kept.map (Event.restated ConflictStrategy.resolveWeakly.name)
  channels : ∀ channel, (w'.log.events (stream.channelKey channel)).map Event.body =
    (w.log.events (stream.channelKey channel)).map Event.body ++
      (onChannel channel (raised events)).map Event.body

variable {n : Node} {routes : Routes Id S} {stream : StreamRef} {strategy : String}
  {events events' kept kept' : List Event} {e d : Entity S} {w w' w'' : World}
  {r : Except ResolveError Resolution}

namespace Gains

theorem of_spares (h : w.Spares stream w') : Gains stream [] [] w w' where
  domain := by rw [h.events _ (.inl rfl), List.map_nil, List.append_nil]
  channels channel := by
    rw [h.events _ (.inr (.inr ⟨channel, rfl⟩)), raised, List.filter_nil, onChannel_nil,
      List.map_nil, List.append_nil]

theorem trans (h : Gains stream events kept w w') (h' : Gains stream events' kept' w' w'') :
    Gains stream (events ++ events') (kept ++ kept') w w'' where
  domain := by rw [h'.domain, h.domain, List.map_append, List.append_assoc]
  channels channel := by
    rw [h'.channels, h.channels, List.append_assoc, ← List.map_append, ← onChannel_append, raised,
      raised, raised, List.filter_append]

theorem of_restates (h : e.Restates ConflictStrategy.resolveWeakly.name d events kept)
    (hclean : e.timeline.dirty = false) (hstream : d.timeline.stream = stream)
    (hextended : w.log.Extended w'.log d.timeline) : Gains stream events kept w w' := by
  obtain ⟨hpending, hoobs, -⟩ := Timeline.dirty_eq_false.1 hclean
  subst hstream
  constructor
  · have hkept := h.pending
    rw [hpending, List.map_nil, List.nil_append] at hkept
    rw [← hkept]
    exact hextended.map_body_domain
  · intro channel
    have hraised := map_body_onChannel channel h.oobs
    rw [hoobs, onChannel_nil, List.map_nil, List.nil_append] at hraised
    rw [← hraised]
    exact hextended.channels channel

end Gains

/-- A merge adds to its stream what it keeps of its batch, and leaves an entity that is loaded with
the same state. -/
theorem Enacted.exists_reloaded {resolution : Resolution} (hnone : routes.snapshots = none)
    (hhandled : routes.MergesAsHandled) (hcurrent : w.UpToDate n.cache stream e.timeline)
    (he : Entity.ofTimeline routes e.timeline = .ok e)
    (h : Enacted n routes ConflictStrategy.resolveWeakly.name events e w (.ok resolution) d w') :
    ∃ e' kept dropped, w'.UpToDate n.cache stream e'.timeline ∧
      Entity.ofTimeline routes e'.timeline = .ok e' ∧
      routes.Replays e.state events e'.state kept dropped ∧ Gains stream events kept w w' := by
  cases h with
  | @discarded m kept dropped w' hmerges hrestates hclean hidle =>
    have hgains : Gains stream events kept w w' := .of_restates hrestates hcurrent.clean
      (hmerges.continues.stream.trans hcurrent.ref)
      (.of_clean hclean (EventLog.events_congr hidle.streams))
    -- Nothing is kept, so that the state is the one before.
    have hnil : kept = [] := by
      have hpending := hrestates.pending
      rw [(Timeline.dirty_eq_false.1 hclean).1,
        (Timeline.dirty_eq_false.1 hcurrent.clean).1] at hpending
      simpa using hpending
    subst hnil
    have hstate : d.state = e.state := Routes.hydrates_nil.1 (hmerges.replays.hydrates hhandled)
    exact ⟨e, [], dropped, hcurrent.idle hidle, he, hstate ▸ hmerges.replays, hgains⟩
  | @committed m kept dropped w' hmerges hrestates hextended hcaches hareas =>
    have hcontinues := hmerges.continues
    have href : m.timeline.stream = stream := hcontinues.stream.trans hcurrent.ref
    have hkey : m.timeline.key .domain = stream.key .domain := by rw [Timeline.key, href]
    obtain ⟨e', he', htimeline, hstate⟩ :=
      Entity.exists_ofTimeline_settle hnone hhandled hcurrent.clean he hmerges
    refine ⟨e', kept, dropped, ?_, htimeline ▸ he', hstate ▸ hmerges.replays,
      .of_restates hrestates hcurrent.clean href hextended⟩
    rw [htimeline]
    refine ⟨?_, href, (hcontinues.sound hcurrent.sound).settle, rfl, ?_⟩
    · have hcached : (w'.cache n.cache)[stream.key .domain]? = some m.timeline.settle := by
        rw [World.cache, hcaches, ← hkey]
        change ((w.remember n.cache _ _).cache n.cache)[_]? = _
        rw [getElem?_cache_remember, if_pos ⟨rfl, rfl⟩]
      simp only [World.view, hcached]
    · have hgrown := hextended.version
      have hnext := (hcontinues.sound hcurrent.sound).next
      have hversion := hcurrent.version
      rw [hkey] at hgrown
      simp only [Timeline.settle, hnext, hcontinues.version, hversion, hgrown]

theorem Enacted.areas {resolution : Resolution}
    (h : Enacted n routes strategy events e w (.ok resolution) d w') : w'.areas = w.areas := by
  cases h with
  | discarded _ _ _ hidle => exact hidle.areas
  | committed _ _ _ _ hareas => exact hareas

end World

namespace Participant

variable {C : Catalog} {p : Participant C} {opened : Moment} {kind : C.Kind} {stream : StreamRef}
  {others : String → Prop} {w w' : World} {e : Entity (C.State kind)}
  {q : List (Staged ConflictBatch)}

def pulling (p : Participant C) (max : Option Nat) : Participant C :=
  { p with settings := { p.settings with weakPullMax := max } }

/-- The world after the worker has looked for due streams so many times. -/
def rounds (p : Participant C) (opened : Moment) : Nat → World → World
  | 0, w => w
  | i + 1, w => ((p.worker opened).runDue.run (p.rounds opened i w)).2

/-- A stream can be drained by a worker: its kind is registered and does not record its states,
conflict routes do what handle routes do, and the other streams on the agenda are apart from it. -/
structure Drains (p : Participant C) (kind : C.Kind) (stream : StreamRef)
    (others : String → Prop) : Prop where
  known : p.kind? stream.entity = some kind
  unrecorded : (C.routes kind).snapshots = none
  handled : (C.routes kind).MergesAsHandled
  apart : ∀ other, others (StreamRef.key other .domain) → other.Apart stream

/-- A batch is not empty, and its events can be merged into every state. -/
def MergeableBatch (routes : Routes Id S) (batch : Staged ConflictBatch) : Prop :=
  batch.message.events ≠ [] ∧ ∀ event ∈ batch.message.events, event.lane = .domain →
    routes.Mergeable event.kind event.payload

theorem mergeable_pulledBy {routes : Routes Id S} {n : Node} {q : List (Staged ConflictBatch)}
    (hq : ∀ batch ∈ q, MergeableBatch routes batch) :
    ∀ event ∈ stagedEvents (World.pulledBy n q), event.lane = .domain →
      routes.Mergeable event.kind event.payload := by
  intro event hevent
  obtain ⟨batch, hbatch, hmem⟩ := List.mem_flatMap.1 hevent
  exact (hq batch (List.mem_of_mem_take hbatch)).2 event hmem

theorem stagedEvents_pulledBy {routes : Routes Id S} {n : Node} {q : List (Staged ConflictBatch)}
    (hq : ∀ batch ∈ q, MergeableBatch routes batch) (hne : q ≠ [])
    (hmax : n.settings.weakPullMax ≠ some 0) : stagedEvents (World.pulledBy n q) ≠ [] := by
  obtain ⟨batch, rest, rfl⟩ := List.exists_cons_of_ne_nil hne
  obtain ⟨limit, hlimit⟩ :
      ∃ limit, n.settings.weakPullMax.getD (batch :: rest).length = limit + 1 := by
    refine Nat.exists_eq_succ_of_ne_zero fun hzero => ?_
    cases hm : n.settings.weakPullMax with
    | none => simp [hm] at hzero
    | some limit =>
      rw [hm, Option.getD_some] at hzero
      exact hmax (by rw [hm, hzero])
  rw [World.pulledBy, hlimit, List.take_succ_cons, stagedEvents, List.flatMap_cons]
  exact fun hnil => (hq batch (List.mem_cons_self ..)).1 (List.append_eq_nil_iff.1 hnil).1

/-- The batches `q` are staged for a stream that nobody holds, and the node loads `e` for it, which
is up to date. -/
structure Backlog (p : Participant C) (kind : C.Kind) (stream : StreamRef) (others : String → Prop)
    (w : World) (e : Entity (C.State kind)) (q : List (Staged ConflictBatch)) : Prop where
  consistent : w.Consistent
  tidy : (w.agenda p.agenda).Tidy stream others
  free : w.log.freeze? (stream.key .domain) = none
  current : w.UpToDate p.cache stream e.timeline
  loads : Entity.ofTimeline (C.routes kind) e.timeline = .ok e
  queue : w.queue sharedArea (stream.key .domain) = q

/-- The stream is due if anything is staged for it, and not on the agenda else. -/
def Prompted (p : Participant C) (stream : StreamRef) (w : World)
    (q : List (Staged ConflictBatch)) : Prop :=
  if q = [] then (w.agenda p.agenda).dueTime stream = none
  else ∃ due ≤ w.elapsed, (w.agenda p.agenda).dueTime stream = some due

theorem Prompted.bypassed (h : p.Prompted stream w q) (hb : w.Bypasses stream others w')
    (htidy : (w.agenda p.agenda).Tidy stream others) : p.Prompted stream w' q := by
  rw [Prompted, (hb.agenda _ htidy).2, hb.elapsed]
  exact h

theorem Prompted.mem_due_iff (h : p.Prompted stream w q)
    (htidy : (w.agenda p.agenda).Tidy stream others) : stream ∈ w.due p.agenda ↔ q ≠ [] := by
  rw [World.due, Agenda.mem_takeDue_iff htidy.nodup]
  rw [Prompted] at h
  split at h
  · rename_i hq
    simp [h, hq]
  · rename_i hq
    exact ⟨fun _ => hq, fun _ => h⟩

namespace Backlog

theorem bypassed (h : p.Backlog kind stream others w e q) (hb : w.Bypasses stream others w')
    (hc : w'.Consistent) : p.Backlog kind stream others w' e q where
  consistent := hc
  tidy := (hb.agenda _ h.tidy).1
  free := hb.freeze.trans h.free
  current := h.current.spared hb.toSpares
  loads := h.loads
  queue := (hb.queue _).trans h.queue

theorem cleared (h : p.Backlog kind stream others w e q) :
    p.Backlog kind stream others (w.cleared p.agenda) e q where
  consistent := h.consistent.idle (.cleared ..)
  tidy := by
    rw [World.agenda_cleared, if_pos rfl]
    exact h.tidy.rest _
  free := h.free
  current := h.current.idle (n := p.node) (.cleared ..)
  loads := h.loads
  queue := h.queue

theorem scheduled (h : p.Backlog kind stream others w e q) (delay : Span) :
    p.Backlog kind stream others (w.scheduled p.agenda stream delay) e q where
  consistent := h.consistent.idle ⟨rfl, rfl, rfl⟩
  tidy := by
    rw [World.agenda_scheduled, if_pos rfl]
    exact h.tidy.schedule (absurd rfl) _
  free := h.free
  current := h.current.idle (n := p.node) ⟨rfl, rfl, rfl⟩
  loads := h.loads
  queue := h.queue

/-- Handling the stream is a pass over the backlog. -/
theorem handled (h : p.Backlog kind stream others w e q)
    (hknown : p.kind? stream.entity = some kind)
    (hevents : stagedEvents (World.pulledBy p.node q) ≠ []) {r : Except ResolveError Resolution}
    (hrun : Runs ((p.worker opened).handle stream) w r w') :
    World.Swept p.node (C.routes kind) stream e w r w' := by
  have hqueue : w.queue p.node.area (stream.key .domain) = q := h.queue
  rcases runs_handle hrun with ⟨hunknown, -⟩ | ⟨kind', hknown', hhandled⟩
  · cases hknown.symm.trans hunknown
  · cases hknown.symm.trans hknown'
    exact World.swept_of_handleStaged h.free h.current h.loads (hqueue ▸ hevents) hhandled

/-- Handling the stream merges what is pulled, and puts the stream on the agenda exactly if anything
is left. -/
theorem swept (h : p.Backlog kind stream others w e q) (hd : p.Drains kind stream others)
    (hq : ∀ batch ∈ q, MergeableBatch (C.routes kind) batch) (hne : q ≠ [])
    (hmax : p.settings.weakPullMax ≠ some 0)
    (hdue : (w.agenda p.agenda).dueTime stream = none) {r : Except ResolveError Resolution}
    (hrun : Runs ((p.worker opened).handle stream) w r w') :
    ∃ e' kept dropped, p.Backlog kind stream others w' e' (World.leftBy p.node q) ∧
      p.Prompted stream w' (World.leftBy p.node q) ∧
      (C.routes kind).Replays e.state (stagedEvents (World.pulledBy p.node q)) e'.state kept
        dropped ∧
      World.Gains stream (stagedEvents (World.pulledBy p.node q)) kept w w' := by
  have hc' := (books_handle h.consistent hrun).consistent
  have hqueue : w.queue p.node.area (stream.key .domain) = q := h.queue
  cases h.handled hd.known (stagedEvents_pulledBy hq hne hmax) hrun with
  | returned henacted =>
    cases henacted with
    | failed hnever =>
      -- Every event can be merged, so the merge cannot have failed.
      rw [hqueue] at hnever
      obtain ⟨m, kept, dropped, hmerges⟩ :=
        Entity.exists_merges hd.unrecorded (mergeable_pulledBy hq) e
      exact absurd hmerges (hnever _ m kept dropped)
  | @merged resolution d w₁ _ i henacted hfree htime hrest =>
    rw [hqueue] at henacted hrest
    obtain ⟨e', kept, dropped, hcurrent, hloads, hreplays, hgains⟩ :=
      henacted.exists_reloaded hd.unrecorded hd.handled (h.current.opening i) h.loads
    have hleft : w₁.queue sharedArea (stream.key .domain) = World.leftBy p.node q := by
      rw [World.queue_eq_of_areas henacted.areas, ← hqueue]
      exact World.queue_opening ..
    have hagenda : w₁.agenda p.agenda = w.agenda p.agenda := by
      rw [World.agenda, htime.agendas]
      rfl
    have hgains' : World.Gains stream (stagedEvents (World.pulledBy p.node q)) kept w w₁ :=
      ⟨by simpa using hgains.domain, by simpa using hgains.channels⟩
    -- `hc'` speaks of the world in which the stream may be on the agenda again, `w₁` comes before.
    have hbacklog : w₁.Consistent →
        p.Backlog kind stream others w₁ e' (World.leftBy p.node q) := fun hc => {
      consistent := hc
      tidy := hagenda ▸ h.tidy
      free := (hfree _).trans h.free
      current := hcurrent
      loads := hloads
      queue := hleft }
    rw [← hagenda] at hdue
    by_cases hall : World.leftBy p.node q = []
    · rw [if_pos hall] at hrest
      subst hrest
      exact ⟨e', kept, dropped, hbacklog hc', by rwa [Prompted, if_pos hall], hreplays, hgains'⟩
    · rw [if_neg hall] at hrest
      subst hrest
      refine ⟨e', kept, dropped, (hbacklog (hc'.idle ⟨rfl, rfl, rfl⟩)).scheduled .zero, ?_,
        hreplays, hgains'.domain, hgains'.channels⟩
      rw [Prompted, if_neg hall]
      refine ⟨w₁.elapsed + .zero, Nat.le_refl _, ?_⟩
      change ((w₁.scheduled p.agenda stream .zero).agenda p.agenda).dueTime stream = _
      rw [World.agenda_scheduled, if_pos rfl, Agenda.dueTime_schedule_self, hdue]
      rfl

/-- A pass leaves a stream alone for which nothing is staged. -/
theorem idle_round (h : p.Backlog kind stream others w e []) (hprompted : p.Prompted stream w [])
    (hd : p.Drains kind stream others) {count : Nat}
    (hrun : Runs (p.worker opened).runDue w count w') :
    p.Backlog kind stream others w' e [] ∧ p.Prompted stream w' [] ∧ w.Spares stream w' := by
  obtain ⟨hbypasses, hc⟩ := bypasses_runDue hd.apart h.tidy
    (fun hmem => (hprompted.mem_due_iff h.tidy).1 hmem rfl) h.consistent hrun
  have hcleared : p.Prompted stream (w.cleared p.agenda) [] := by
    rw [Prompted, if_pos rfl] at hprompted ⊢
    rw [World.agenda_cleared, if_pos rfl]
    exact Agenda.dueTime_rest_eq_none hprompted _
  exact ⟨h.cleared.bypassed hbypasses hc, hcleared.bypassed hbypasses h.cleared.tidy,
    (World.Spares.cleared ..).trans hbypasses.toSpares⟩

/-- A pass merges what is pulled, and the stream is due again exactly if anything is left. -/
theorem round (h : p.Backlog kind stream others w e q) (hprompted : p.Prompted stream w q)
    (hd : p.Drains kind stream others) (hq : ∀ batch ∈ q, MergeableBatch (C.routes kind) batch)
    (hmax : p.settings.weakPullMax ≠ some 0) {count : Nat}
    (hrun : Runs (p.worker opened).runDue w count w') :
    ∃ e' kept dropped, p.Backlog kind stream others w' e' (World.leftBy p.node q) ∧
      p.Prompted stream w' (World.leftBy p.node q) ∧
      (C.routes kind).Replays e.state (stagedEvents (World.pulledBy p.node q)) e'.state kept
        dropped ∧
      World.Gains stream (stagedEvents (World.pulledBy p.node q)) kept w w' := by
  by_cases hne : q = []
  · subst hne
    obtain ⟨hbacklog, hprompted', hspares⟩ := h.idle_round hprompted hd hrun
    simp only [World.pulledBy, World.leftBy, List.take_nil, List.drop_nil]
    exact ⟨e, [], [], hbacklog, hprompted', .nil _, .of_spares hspares⟩
  · have hdue : stream ∈ w.due p.agenda := (hprompted.mem_due_iff h.tidy).2 hne
    obtain ⟨r, w₁, w₂, hbefore, hc₁, hhandle, hafter⟩ :=
      handled_of_runDue hd.apart h.tidy hdue h.consistent hrun
    have hoff : (w₁.agenda p.agenda).dueTime stream = none := by
      rw [(hbefore.agenda _ h.cleared.tidy).2, World.agenda_cleared, if_pos rfl]
      exact Agenda.dueTime_rest h.tidy.nodup hdue
    obtain ⟨e', kept, dropped, hbacklog, hprompted', hreplays, hgains⟩ :=
      (h.cleared.bypassed hbefore hc₁).swept hd hq hne hmax hoff hhandle
    refine ⟨e', kept, dropped, hbacklog.bypassed hafter (books_runDue h.consistent hrun).consistent,
      hprompted'.bypassed hafter hbacklog.tidy, hreplays, ?_⟩
    have hfirst := World.Gains.of_spares ((World.Spares.cleared ..).trans hbefore.toSpares)
    simpa using (hfirst.trans hgains).trans (.of_spares hafter.toSpares)

/-- After some passes that pull `k` batches each, these are merged, and the rest is staged. -/
theorem rounds {k : Nat} (h : p.Backlog kind stream others w e q)
    (hprompted : p.Prompted stream w q) (hd : p.Drains kind stream others)
    (hq : ∀ batch ∈ q, MergeableBatch (C.routes kind) batch) (hk : 1 ≤ k)
    (hmax : p.settings.weakPullMax = some k) (i : Nat) :
    ∃ e' kept dropped, p.Backlog kind stream others (p.rounds opened i w) e' (q.drop (i * k)) ∧
      p.Prompted stream (p.rounds opened i w) (q.drop (i * k)) ∧
      (C.routes kind).Replays e.state (stagedEvents (q.take (i * k))) e'.state kept dropped ∧
      World.Gains stream (stagedEvents (q.take (i * k))) kept w (p.rounds opened i w) := by
  induction i with
  | zero =>
    simp only [Nat.zero_mul, List.take_zero, List.drop_zero]
    exact ⟨e, [], [], h, hprompted, .nil _, .of_spares (.refl ..)⟩
  | succ i ih =>
    obtain ⟨e₁, kept, dropped, hbacklog, hprompted₁, hreplays, hgains⟩ := ih
    obtain ⟨count, w', hrun⟩ := Runs.total (p.worker opened).runDue (p.rounds opened i w)
    have hw' : p.rounds opened (i + 1) w = w' := by rw [Participant.rounds, hrun.run_eq]
    have hlimit : p.settings.weakPullMax ≠ some 0 := by
      rw [hmax]
      simp only [ne_eq, Option.some.injEq]
      omega
    obtain ⟨e₂, kept', dropped', hbacklog', hprompted', hreplays', hgains'⟩ :=
      hbacklog.round hprompted₁ hd (fun batch hbatch => hq batch (List.mem_of_mem_drop hbatch))
        hlimit hrun
    have hpulled : World.pulledBy p.node (q.drop (i * k)) = (q.drop (i * k)).take k := by
      rw [World.pulledBy, Participant.node, hmax, Option.getD_some]
    have hleft : World.leftBy p.node (q.drop (i * k)) = q.drop ((i + 1) * k) := by
      rw [World.leftBy, Participant.node, hmax, Option.getD_some, List.drop_drop, Nat.succ_mul]
    have hall : q.take ((i + 1) * k) = q.take (i * k) ++ (q.drop (i * k)).take k := by
      rw [Nat.succ_mul, List.take_add]
    rw [hleft] at hbacklog' hprompted'
    rw [hpulled] at hreplays' hgains'
    rw [hw', hall, stagedEvents_append]
    exact ⟨e₂, _, _, hbacklog', hprompted', hreplays.append hreplays', hgains.trans hgains'⟩

end Backlog

/-- What is staged for a stream that can be loaded is a backlog, unless the cached copy of the
stream is behind the log. -/
theorem backlog_of_loaded (hc : w.Consistent) (htidy : (w.agenda p.agenda).Tidy stream others)
    (hfree : w.log.freeze? (stream.key .domain) = none)
    (hcached : ∀ t, (w.cache p.cache)[stream.key .domain]? = some t →
      t.stream = stream ∧ w.log.version (stream.key .domain) ≤ t.version)
    (he : w.loaded p.cache (C.routes kind) stream = .ok e) :
    p.Backlog kind stream others w e (w.queue sharedArea (stream.key .domain)) := by
  obtain ⟨hview, -⟩ := hc.loaded he
  have hcurrent := hc.upToDate (fun t ht => by
    obtain ⟨hkey, hrooted, -⟩ := hc.cached _ _ _ ht
    have hbehind := hrooted.based.version
    rw [hkey] at hbehind
    exact ⟨(hcached t ht).1, Int.le_antisymm hbehind (hcached t ht).2⟩) hview
  refine ⟨hc, htidy, hfree, hcurrent, ?_, rfl⟩
  simpa only [World.loaded, hview, except_mapError_eq_ok] using he

/-- Draining a stream in passes that pull `k` batches each gives the same as draining it at once.
The stream can be loaded, as it could when the batches were staged, nobody holds it, its cached copy
is not behind the log, and the other streams on the agenda are apart from it; states are not
recorded, conflict routes do what handle routes do, and no staged event abandons its batch. -/
theorem drained {k : Nat} (p : Participant C) (opened : Moment) (kind : C.Kind)
    (stream : StreamRef) (w : World) (hk : 1 ≤ k) (hc : w.Consistent)
    (hknown : p.kind? stream.entity = some kind) (hnone : (C.routes kind).snapshots = none)
    (hhandled : (C.routes kind).MergesAsHandled)
    (hstaged : w.queue sharedArea (stream.key .domain) ≠ [])
    (hbatches : ∀ batch ∈ w.queue sharedArea (stream.key .domain),
      MergeableBatch (C.routes kind) batch)
    (hfree : w.log.freeze? (stream.key .domain) = none)
    (hcached : ∀ t, (w.cache p.cache)[stream.key .domain]? = some t →
      t.stream = stream ∧ w.log.version (stream.key .domain) ≤ t.version)
    (hloads : ∃ e, w.loaded p.cache (C.routes kind) stream = .ok e)
    (hdue : stream ∈ w.due p.agenda) (hnodup : ((w.agenda p.agenda).entries.map Prod.fst).Nodup)
    (hothers : ∀ other ∈ (w.agenda p.agenda).entries.map Prod.fst, other ≠ stream →
      other.Apart stream) :
    let key := stream.key .domain
    let passes := ((w.queue sharedArea key).length + k - 1) / k
    let capped := fun i => (p.pulling (some k)).rounds opened i w
    let whole := (p.pulling none).rounds opened 1 w
    (∀ i, (capped i).queue sharedArea key = [] ↔ passes ≤ i) ∧
      (∀ i, stream ∈ (capped i).due p.agenda ↔ i < passes) ∧
      whole.queue sharedArea key = [] ∧ ∀ i, passes ≤ i →
        (∀ item ∈ ((capped i).agenda p.agenda).entries.map Prod.fst,
          ∃ other ∈ (w.agenda p.agenda).entries.map Prod.fst, other ≠ stream ∧
            other.key .domain = item.key .domain) ∧
        ((capped i).log.events key).map Event.body = (whole.log.events key).map Event.body ∧
        ∀ channel, ((capped i).log.events (stream.channelKey channel)).map Event.body =
          (whole.log.events (stream.channelKey channel)).map Event.body := by
  intro key passes capped whole
  let q := w.queue sharedArea key
  -- What is on the agenda besides the stream has one of these keys, now and later.
  let others := (w.agenda p.agenda).Beside stream
  have htidy : (w.agenda p.agenda).Tidy stream others := Agenda.tidy_beside hnodup stream
  have hapart : ∀ item, others (StreamRef.key item .domain) → item.Apart stream :=
    fun _ => Agenda.apart_of_beside hothers
  obtain ⟨e, he⟩ := hloads
  have hdrains : ∀ max, (p.pulling max).Drains kind stream others :=
    fun _ => ⟨hknown, hnone, hhandled, hapart⟩
  have hbacklog : ∀ max, (p.pulling max).Backlog kind stream others w e q :=
    fun _ => backlog_of_loaded hc htidy hfree hcached he
  have hprompted : ∀ max, (p.pulling max).Prompted stream w q := by
    intro max
    rw [Prompted, if_neg hstaged]
    exact (Agenda.mem_takeDue_iff htidy.nodup).1 hdue
  have hempty : ∀ i, q.drop (i * k) = [] ↔ passes ≤ i := by
    intro i
    have hdiv : passes ≤ i ↔ q.length + k - 1 ≤ k * i + (k - 1) :=
      Nat.div_le_iff_le_mul_add_pred hk
    rw [List.drop_eq_nil_iff, hdiv, Nat.mul_comm]
    omega
  have hcapped : ∀ i, ∃ e' kept dropped,
      (p.pulling (some k)).Backlog kind stream others (capped i) e' (q.drop (i * k)) ∧
      (p.pulling (some k)).Prompted stream (capped i) (q.drop (i * k)) ∧
      (C.routes kind).Replays e.state (stagedEvents (q.take (i * k))) e'.state kept dropped ∧
      World.Gains stream (stagedEvents (q.take (i * k))) kept w (capped i) :=
    fun i => (hbacklog (some k)).rounds (hprompted (some k)) (hdrains (some k)) hbatches hk rfl i
  obtain ⟨count, w', hrun⟩ := Runs.total ((p.pulling none).worker opened).runDue w
  obtain ⟨e', kept, dropped, hleft, -, hreplays, hgains⟩ :=
    (hbacklog none).round (hprompted none) (hdrains none) hbatches (by simp [pulling]) hrun
  have hwhole : whole = w' := by
    change (((p.pulling none).worker opened).runDue.run w).2 = w'
    rw [hrun.run_eq]
  rw [← hwhole] at hleft hgains
  have hpulled : World.pulledBy (p.pulling none).node q = q := List.take_length
  rw [hpulled] at hreplays hgains
  refine ⟨fun i => ?emptied, fun i => ?handled, ?whole, fun i hi => ?same⟩
  case emptied =>
    obtain ⟨_, _, _, hleft', -⟩ := hcapped i
    rw [hleft'.queue, hempty]
  case handled =>
    obtain ⟨_, _, _, hleft', hagain, -⟩ := hcapped i
    rw [← Nat.not_le, ← hempty i]
    exact hagain.mem_due_iff hleft'.tidy
  case whole => exact hleft.queue.trans List.drop_length
  case same =>
    obtain ⟨e₁, kept₁, dropped₁, hleft', hagain, hreplays', hgains'⟩ := hcapped i
    have hnil := (hempty i).2 hi
    rw [List.take_of_length_le (List.drop_eq_nil_iff.1 hnil)] at hreplays' hgains'
    -- Both keep the same, since a batch leads to one place only.
    obtain ⟨-, rfl, -⟩ := hreplays.unique hreplays'
    refine ⟨fun item hitem => hleft'.tidy.others item hitem ?_, ?_, fun channel => ?_⟩
    · rintro rfl
      rw [hnil, Prompted, if_pos rfl] at hagain
      exact Agenda.dueTime_eq_none.1 hagain hitem
    · rw [hgains'.domain, hgains.domain]
    · rw [hgains'.channels, hgains.channels]

end Participant

namespace Cluster

def ledgerRoutes : Routes Id Int :=
  Routes.new "sum" 0
    |>.handle World.addend (fun n s => s + n)
    |>.conflict World.addend mergeAddend

def ledgers : Catalog := ⟨Unit, fun _ => Int, fun _ => ledgerRoutes⟩

/-- A participant with a cache and an agenda of its own that stages what meets a newer history. -/
def bookkeeper (i : Nat) : Participant ledgers where
  owner := .numbered i
  bucket := "default"
  settings := { ConflictSettings.standard with strategy := .resolveWeakly }
  cache := i
  agenda := i
  registered := [()]

def post (slot : Nat) (n : Int) : Operation ledgers :=
  .apply slot fun _ => World.addend.move n fun n (s : Int) => s + n

/-- A two is stored. Three numbers that know nothing of it are staged one by one, the second of them
with an out-of-band event, and a minute passes. -/
def lateEntriesOneByOne : List (Operation ledgers) :=
  [.newEntity (bookkeeper 0) () "s-1", .newEntity (bookkeeper 1) () "s-1",
    .newEntity (bookkeeper 1) () "s-1", .newEntity (bookkeeper 1) () "s-1", post 0 2,
    .commit (bookkeeper 0) 0 (.numbered 100) ∅, post 1 3, post 2 0,
    .raise 2 (fun _ => World.addend.move 7 fun _ (s : Int) => s) "audit" false none, post 3 4,
    .commit (bookkeeper 1) 1 (.numbered 101) ∅, .commit (bookkeeper 1) 2 (.numbered 102) ∅,
    .commit (bookkeeper 1) 3 (.numbered 103) ∅, .advance (.ofSeconds 60)]

theorem mergesAsHandled_ledgerRoutes : ledgerRoutes.MergesAsHandled :=
  Routes.MergesAsHandled.conflict (Routes.mergesAsHandled_of_empty rfl)
    Std.ExtTreeMap.getElem?_insert_self mergeAddend_spec

/-- With two batches a pass, two passes do what one pass over everything does. -/
theorem drained_lateEntriesOneByOne :
    let w := ((start .epoch).run .epoch lateEntriesOneByOne).world
    let key := sumStream.key .domain
    let capped := fun i => ((bookkeeper 1).pulling (some 2)).rounds .epoch i w
    let whole := ((bookkeeper 1).pulling none).rounds .epoch 1 w
    (w.queue sharedArea key).length = 3 ∧ (capped 1).queue sharedArea key ≠ [] ∧
      (capped 2).queue sharedArea key = [] ∧ sumStream ∉ (capped 2).due 1 ∧
      ((capped 2).log.events key).map Event.body = (whole.log.events key).map Event.body := by
  obtain ⟨w, hw⟩ : ∃ w, w = ((start .epoch).run .epoch lateEntriesOneByOne).world := ⟨_, rfl⟩
  have hqueue : (w.queue sharedArea (sumStream.key .domain)).length = 3 ∧
      ∀ batch ∈ w.queue sharedArea (sumStream.key .domain), batch.message.events ≠ [] ∧
        ∀ event ∈ batch.message.events, event.kind = World.addend.kind ∧
          event.payload ∈ [Json.int 3, .int 0, .int 7, .int 4] := by
    rw [hw]
    decide +kernel
  have hfree : (w.log.freeze? (sumStream.key .domain)).isNone = true := by
    rw [hw]
    decide +kernel
  have hcached : ∀ t ∈ (w.cache 1)[sumStream.key .domain]?,
      t.stream = sumStream ∧ w.log.version (sumStream.key .domain) ≤ t.version := by
    rw [hw]
    decide +kernel
  have hloads : (w.loaded 1 ledgerRoutes sumStream).toOption.isSome = true := by
    rw [hw]
    decide +kernel
  have hagenda : sumStream ∈ w.due 1 ∧ (w.agenda 1).entries.map Prod.fst = [sumStream] := by
    rw [hw]
    decide +kernel
  have hc : w.Consistent := by
    obtain ⟨rs, hleads⟩ := leads_run .epoch (steady_start .epoch) lateEntriesOneByOne
    rw [hw]
    exact hleads.steady.consistent
  rw [← hw]
  have hmergeable : ∀ batch ∈ w.queue sharedArea (sumStream.key .domain),
      Participant.MergeableBatch ledgerRoutes batch := by
    intro batch hbatch
    refine ⟨(hqueue.2 batch hbatch).1, fun event hevent _ => ?_⟩
    obtain ⟨hkind, hpayload⟩ := (hqueue.2 batch hbatch).2 event hevent
    have hnumber : ∃ n, event.payload = .int n := by
      simp only [List.mem_cons, List.not_mem_nil, or_false] at hpayload
      rcases hpayload with h | h | h | h <;> exact ⟨_, h⟩
    obtain ⟨n, hn⟩ := hnumber
    rw [hkind, hn]
    exact mergeable_addend Std.ExtTreeMap.getElem?_insert_self Std.ExtTreeMap.getElem?_insert_self n
  have hloaded : ∃ e, w.loaded 1 ledgerRoutes sumStream = .ok e := by
    cases hfound : w.loaded 1 ledgerRoutes sumStream with
    | ok e => exact ⟨e, rfl⟩
    | error err => simp [hfound, Except.toOption] at hloads
  have hstaged : w.queue sharedArea (sumStream.key .domain) ≠ [] := by
    rw [← List.length_pos_iff, hqueue.1]
    decide
  obtain ⟨hemptied, hdue, -, hsame⟩ := Participant.drained (bookkeeper 1) .epoch () sumStream w
    (by decide : 1 ≤ 2) hc rfl rfl mergesAsHandled_ledgerRoutes hstaged hmergeable
    (Option.isNone_iff_eq_none.1 hfree) hcached hloaded hagenda.1 (by
      change ((w.agenda 1).entries.map Prod.fst).Nodup
      rw [hagenda.2]
      decide) (by
      change ∀ other ∈ (w.agenda 1).entries.map Prod.fst, _
      simp [hagenda.2])
  rw [hqueue.1] at hemptied hdue hsame
  exact ⟨hqueue.1, fun hnil => absurd ((hemptied 1).1 hnil) (by decide), (hemptied 2).2 (by decide),
    fun hmem => absurd ((hdue 2).1 hmem) (by decide), (hsame 2 (by decide)).2.1⟩

end Cluster

end Chronicle
