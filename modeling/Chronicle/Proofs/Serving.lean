import Chronicle.Proofs.Freezing
import Chronicle.Proofs.Histories

/-!
# Commits that cannot fail

Every event can be merged or discarded, every state can be recorded and read back, every domain key
belongs to one kind of entity, and nobody holds a stream. A commit that meets a newer history then
reloads the entity, merges what is pending and stores it, without any way to fail. What it adds to
the stream are the submitted domain events in their order, without those that were declined.
-/

namespace Chronicle

variable {S : Type}

namespace Routes

variable {m : Type → Type}

/-- An event with this kind and payload is merged into every state or discarded there, never a
reason to give up a batch; and its handle route, if there is one, can read it. -/
structure Mergeable (routes : Routes Id S) (kind : String) (payload : Json) : Prop where
  merges : ∃ route merge, routes.conflicts[kind]? = some route ∧ route payload = .ok merge ∧
    ∀ s, (Id.run (merge s)).1 = .ok () ∨ (Id.run (merge s)).1 = .error .discard
  reads : ∀ route, routes.handlers[kind]? = some route → ∃ apply, route payload = .ok apply

/-- Every state can be recorded, if states are recorded at all, and every record read back. -/
def Records (routes : Routes m S) : Prop :=
  ∀ snapshots ∈ routes.snapshots, ∀ s, ∃ memento s', snapshots.encode s = .ok memento ∧
    snapshots.decode memento = .ok s'

/-- The state that a snapshot records can be read. -/
def Restores (routes : Routes m S) (s : Snapshot) : Prop :=
  ∃ state, routes.decodeSnapshot s.memento = .ok state

theorem restores_congr {routes : Routes m S} {s s' : Snapshot} (h : s.memento = s'.memento) :
    routes.Restores s ↔ routes.Restores s' := by
  rw [Restores, Restores, h]

theorem Records.encodes {routes : Routes m S} (h : routes.Records) :
    ∀ snapshots ∈ routes.snapshots, ∀ s, ∃ memento, snapshots.encode s = .ok memento := by
  intro snapshots hs s
  obtain ⟨memento, s', hm, -⟩ := h snapshots hs s
  exact ⟨memento, hm⟩

theorem Records.restores {routes : Routes m S} (h : routes.Records) {snapshots : SnapshotRoutes S}
    (hs : snapshots ∈ routes.snapshots) {state : S} {s : Snapshot}
    (hencode : snapshots.encode state = .ok s.memento) : routes.Restores s := by
  obtain ⟨memento, s', hm, hd⟩ := h snapshots hs state
  cases hencode.symm.trans hm
  exact ⟨some s', by simp [decodeSnapshot, Option.mem_def.1 hs, hd]⟩

theorem Mergeable.conflictEvent {routes : Routes Id S} {event : Event}
    (h : routes.Mergeable event.kind event.payload) (s : S) :
    ∃ s', routes.conflictEvent s event = (.ok (), s') ∨
      routes.conflictEvent s event = (.error (.signal .discard), s') := by
  obtain ⟨route, merge, hroute, hmerge, hends⟩ := h.merges
  obtain ⟨outcome, s', hs⟩ : ∃ outcome s', Id.run (merge s) = (outcome, s') := ⟨_, _, rfl⟩
  have hc := conflictEvent_eq hroute hmerge hs
  have hend := hends s
  rw [hs] at hend
  refine ⟨s', ?_⟩
  rcases hend with rfl | rfl
  · exact .inl hc
  · exact .inr hc

/-- A batch of mergeable events is replayed to its end. -/
theorem exists_replays {routes : Routes Id S} {events : List Event}
    (h : ∀ event ∈ events, event.lane = .domain → routes.Mergeable event.kind event.payload)
    (s : S) : ∃ s' kept dropped, routes.Replays s events s' kept dropped := by
  induction events generalizing s with
  | nil => exact ⟨s, [], [], .nil s⟩
  | cons event rest ih =>
    have hrest := ih fun other hother => h other (List.mem_cons_of_mem _ hother)
    by_cases hlane : event.lane = .domain
    · obtain ⟨s₁, hroute⟩ := (h event (List.mem_cons_self ..) hlane).conflictEvent s
      obtain ⟨s', kept, dropped, hreplays⟩ := hrest s₁
      rcases hroute with hroute | hroute
      · exact ⟨s', _, _, .merged hlane hroute hreplays⟩
      · exact ⟨s', _, _, .declined hlane hroute hreplays⟩
    · obtain ⟨s', kept, dropped, hreplays⟩ := hrest s
      exact ⟨s', kept, dropped, .passed hlane hreplays⟩

/-- The kept events are the domain events that were not declined, if no event occurs twice. -/
theorem Replays.kept_eq {routes : Routes Id S} {s s' : S} {events kept dropped : List Event}
    (h : routes.Replays s events s' kept dropped)
    (hn : (events.filter fun event => event.lane = .domain).Nodup) :
    kept = events.filter fun event => event.lane = .domain ∧ event ∉ dropped := by
  induction h with
  | nil s => rfl
  | @merged _ _ _ event rest kept dropped hlane hroute hrest ih =>
    rw [List.filter_cons_of_pos (by simpa using hlane), List.nodup_cons] at hn
    have hnew : event ∉ dropped := fun hmem =>
      hn.1 (hrest.perm.subset (List.mem_append_right kept hmem))
    rw [List.filter_cons_of_pos (by simpa using ⟨hlane, hnew⟩), ← ih hn.2]
  | @declined _ _ _ event rest kept dropped hlane hroute hrest ih =>
    rw [List.filter_cons_of_pos (by simpa using hlane), List.nodup_cons] at hn
    rw [List.filter_cons_of_neg (by simp), ih hn.2]
    apply List.filter_congr
    intro other hother
    by_cases hl : other.lane = .domain
    · have hne : other ≠ event := by
        rintro rfl
        exact hn.1 (List.mem_filter.2 ⟨hother, by simpa using hl⟩)
      simp [hne]
    · simp [hl]
  | passed hlane hrest ih =>
    rw [List.filter_cons_of_neg (by simpa using hlane)] at hn
    rw [List.filter_cons_of_neg (by simp [hlane]), ih hn]

end Routes

theorem Timeline.Sound.filter_batch {t : Timeline} (h : t.Sound) :
    t.batch.filter (fun event => event.lane = .domain) = t.pending := by
  have hpending : t.pending.filter (fun event => event.lane = .domain) = t.pending :=
    List.filter_eq_self.2 fun event hevent => by simpa using h.domain event hevent
  have hoobs : t.pendingOobs.filter (fun event => event.lane = .domain) = [] :=
    List.filter_eq_nil_iff.2 fun event hevent => by simp [(h.oobs event hevent).1]
  rw [Timeline.batch, List.filter_append, hpending, hoobs, List.append_nil]

namespace Receipt

/-- The domain events of a commit that were not declined. -/
def stored (r : Receipt) : List Event :=
  r.submitted.filter fun event => event.lane = .domain ∧ event ∉ r.declined

/-- The domain events that were stored under a domain key, commit by commit. -/
def storedUnder (key : String) (receipts : List Receipt) : List Event :=
  receipts.flatMap fun r => if r.key = key then r.stored else []

@[simp] theorem storedUnder_append (key : String) (rs ss : List Receipt) :
    storedUnder key (rs ++ ss) = storedUnder key rs ++ storedUnder key ss :=
  List.flatMap_append

end Receipt

theorem Entity.exists_ofTimeline {m : Type → Type} {routes : Routes m S} {t : Timeline}
    (hs : ∀ s ∈ t.snapshot, routes.Restores s) (hr : ∀ event ∈ t.settled, routes.Reads event) :
    ∃ e, Entity.ofTimeline routes t = .ok e := by
  obtain ⟨first, hfirst⟩ : ∃ first, Entity.startState routes t = .ok first := by
    unfold Entity.startState
    cases hsnap : t.snapshot with
    | none => exact ⟨_, rfl⟩
    | some s =>
      obtain ⟨state, hstate⟩ := hs s hsnap
      exact ⟨state.getD routes.initial, by simp only [hstate, Except.map]⟩
  obtain ⟨state, hstate⟩ := Routes.exists_hydrates hr first
  exact ⟨⟨state, t, 0⟩, Entity.ofTimeline_eq_ok.2 ⟨rfl, rfl, first, hfirst, hstate⟩⟩

variable {C : Catalog} {kindOf : String → C.Kind}

namespace World

/-- Nothing is staged, and what is stored or cached under a key can be read by the routes of the
kind that the key belongs to. -/
structure Readable (w : World) (kindOf : String → C.Kind) : Prop where
  recorded : w.log.Recorded fun s => s.taken.Legible
  readable : ∀ stream : StreamRef, ∀ event ∈ w.log.events (stream.key .domain),
    (C.routes (kindOf (stream.key .domain))).Reads event
  restorable : ∀ stream : StreamRef, ∀ record ∈ w.log.events (stream.key .snapshot), ∃ s : Snapshot,
    record.payload = s.toJson ∧ (C.routes (kindOf (stream.key .domain))).Restores s
  cached : ∀ c key (t : Timeline), (w.cache c)[key]? = some t → ∀ s ∈ t.snapshot,
    (C.routes (kindOf key)).Restores s
  unstaged : ∀ area key, w.queue area key = []

namespace Readable

variable {w w' : World} {t : Timeline}

protected theorem start (wall : Moment) : (World.start wall).Readable kindOf where
  recorded := EventLog.recorded_empty _
  readable := by simp [World.start]
  restorable := by simp [World.start]
  cached c key t h := by simp [World.start, cache] at h
  unstaged area key := by simp [queue, World.start, World.area]

protected theorem idle (h : w.Readable kindOf) (hi : w.Idle w') : w'.Readable kindOf where
  recorded := by
    intro stream record hr
    simp only [EventLog.version, EventLog.events_congr hi.streams] at hr ⊢
    exact h.recorded stream record hr
  readable := by
    intro stream
    rw [EventLog.events_congr hi.streams]
    exact h.readable stream
  restorable := by
    intro stream
    rw [EventLog.events_congr hi.streams]
    exact h.restorable stream
  cached := by
    intro c
    rw [hi.cache]
    exact h.cached c
  unstaged area key := (queue_eq_of_areas hi.areas area key).trans (h.unstaged area key)

protected theorem forget (h : w.Readable kindOf) (c : Nat) (key : String) :
    (w.forget c key).Readable kindOf where
  recorded := h.recorded
  readable := h.readable
  restorable := h.restorable
  cached := by
    intro d k t ht
    rw [getElem?_cache_forget] at ht
    split at ht
    · cases ht
    · exact h.cached d k t ht
  unstaged := h.unstaged

protected theorem remember (h : w.Readable kindOf) (c : Nat) {key : String}
    (ht : ∀ s ∈ t.snapshot, (C.routes (kindOf key)).Restores s) :
    (w.remember c key t).Readable kindOf where
  recorded := h.recorded
  readable := h.readable
  restorable := h.restorable
  cached := by
    intro d k t' ht'
    rw [getElem?_cache_remember] at ht'
    split at ht'
    · rename_i hk
      cases ht'
      rw [hk.2]
      exact ht
    · exact h.cached d k t' ht'
  unstaged := h.unstaged

theorem lastSnapshot (h : w.Readable kindOf) {stream : StreamRef} {s : Snapshot}
    (hs : w.log.lastSnapshot stream = .ok (some s)) :
    (C.routes (kindOf (stream.key .domain))).Restores s := by
  obtain ⟨record, hmem, hd⟩ := EventLog.exists_record hs
  obtain ⟨s', hpay, hrestores⟩ := h.restorable stream record hmem
  rw [hpay] at hd
  exact (Routes.restores_congr (Snapshot.of_decode_toJson hd).2).2 hrestores

theorem view (h : w.Readable kindOf) {c : Nat} {stream : StreamRef} (hv : w.view c stream = .ok t) :
    ∀ s ∈ t.snapshot, (C.routes (kindOf (stream.key .domain))).Restores s := by
  unfold World.view at hv
  cases hc : (w.cache c)[stream.key .domain]? with
  | some t' =>
    simp only [hc, Except.ok.injEq] at hv
    subst hv
    exact h.cached c _ t' hc
  | none =>
    simp only [hc] at hv
    obtain ⟨snapshot, hs, rfl⟩ := except_map_eq_ok.1 hv
    rintro s rfl
    exact h.lastSnapshot hs

protected theorem viewed (h : w.Readable kindOf) (c : Nat) (stream : StreamRef) :
    (w.viewed c stream).Readable kindOf := by
  unfold World.viewed
  split
  · rename_i t hc ht
    have hv : w.view c stream = .ok t := by simp [World.view, hc, ht]
    exact h.remember c (h.view hv)
  · exact h

theorem readable_settled (h : w.Readable kindOf) (ht : t.Based w.log) :
    ∀ event ∈ t.settled, (C.routes (kindOf (t.key .domain))).Reads event := by
  intro event hevent
  obtain ⟨stored, hmem, -, hcontent⟩ := ht.settled event hevent
  exact (Routes.reads_congr hcontent).1 (h.readable t.stream stored hmem)

/-- Every stream can be loaded as an entity of the kind that its key belongs to. -/
theorem exists_loaded (h : w.Readable kindOf) (hc : w.Consistent) (c : Nat) {stream : StreamRef}
    {kind : C.Kind} (hkind : kindOf (stream.key .domain) = kind)
    (hv : w.log.version (stream.key .domain) ≤ 0x7fffffffffffffff) :
    ∃ e, w.loaded c (C.routes kind) stream = .ok e := by
  subst hkind
  obtain ⟨t, ht⟩ : ∃ t, w.view c stream = .ok t := by
    unfold World.view
    cases (w.cache c)[stream.key .domain]? with
    | some t => exact ⟨t, rfl⟩
    | none => exact EventLog.timeline_of_legible h.recorded hv
  obtain ⟨hkey, hrooted, -⟩ := hc.view ht
  have hsettled := h.readable_settled hrooted.based
  rw [hkey] at hsettled
  obtain ⟨e, he⟩ := Entity.exists_ofTimeline (h.view ht) hsettled
  exact ⟨e, by simp only [World.loaded, ht, he, Except.mapError]⟩

protected theorem stored (h : w.Readable kindOf) (hc : w.Consistent) (i : Nat) {log : EventLog}
    {kind : C.Kind} (hs : Stored w.log log t) (ht : t.Rooted w.log)
    (hkind : kindOf (t.key .domain) = kind)
    (hpending : ∀ event ∈ t.pending, (C.routes kind).Reads event)
    (hsnap : ∀ s ∈ t.pendingSnapshot, s.taken.Legible ∧ (C.routes kind).Restores s) :
    (w.logged i log).Readable kindOf where
  recorded := hs.recorded hc.numbered h.recorded ht.sound ht.based.toBehind fun s hmem =>
    (hsnap s hmem).1
  readable := by
    intro stream event hevent
    by_cases hk : stream.key .domain = t.key .domain
    · have hcontents := map_content_of_entry hs.map_entry_domain
      rw [log_logged, hk] at hevent
      have hsaid := List.mem_map_of_mem (f := Event.content) hevent
      rw [hcontents, ← List.map_append] at hsaid
      obtain ⟨other, hother, hsame⟩ := List.mem_map.1 hsaid
      rw [hk, ← Routes.reads_congr hsame]
      rcases List.mem_append.1 hother with hold | hnew
      · exact h.readable t.stream other hold
      · rw [hkind]
        exact hpending other hnew
    · rw [log_logged, hs.others stream .domain (by decide) hk] at hevent
      exact h.readable stream event hevent
  restorable := by
    intro stream record hrecord
    rcases hs.mem_snapshot hrecord with hold | ⟨hk, s, hmem, hpay⟩
    · exact h.restorable stream record hold
    · rw [hk, hkind]
      exact ⟨s, hpay, (hsnap s hmem).2⟩
  cached := h.cached
  unstaged := h.unstaged

end Readable

/-- Everything can be read, nobody holds a stream, and the clock shows a time that can be
recorded. -/
structure Serves (w : World) (kindOf : String → C.Kind) : Prop extends w.Readable kindOf where
  unfrozen : w.Unfrozen
  wall : w.wall.Legible

end World

/-- What is pending in an entity can be merged, and the snapshot that it was built from read
back. -/
structure Entity.Ready (routes : Routes Id S) (e : Entity S) : Prop where
  pending : ∀ event ∈ e.timeline.pending, routes.Mergeable event.kind event.payload
  unstaged : e.timeline.pendingSnapshot = none
  snapshot : ∀ s ∈ e.timeline.snapshot, routes.Restores s

theorem Entity.Ready.batch {routes : Routes Id S} {e : Entity S} (h : e.Ready routes)
    (hs : e.timeline.Sound) :
    ∀ event ∈ e.timeline.batch, event.lane = .domain →
      routes.Mergeable event.kind event.payload := by
  intro event hevent hlane
  rcases List.mem_append.1 hevent with hpending | hoob
  · exact h.pending event hpending
  · simp [(hs.oobs event hoob).1] at hlane

namespace World

/-- The domain stream of a key has grown by what some events say, and the others stay as they
were. -/
structure Adds (w w' : World) (key : String) (added : List Event) : Prop where
  here : (w'.log.events key).map Event.content =
    (w.log.events key).map Event.content ++ added.map Event.content
  elsewhere : ∀ stream : StreamRef, stream.key .domain ≠ key →
    w'.log.events (stream.key .domain) = w.log.events (stream.key .domain)

variable {w w' w₁ : World} {key : String} {n : Node} {opened : Moment} {kind : C.Kind}
  {e e' e₁ d : Entity (C.State kind)} {events : List Event} {commitId : Uuid} {headers : Headers}

theorem Adds.of_idle (h : w.Idle w') (key : String) : w.Adds w' key [] where
  here := by rw [EventLog.events_congr h.streams, List.map_nil, List.append_nil]
  elsewhere stream _ := EventLog.events_congr h.streams _

theorem Adds.stored {t : Timeline} {log : EventLog} {i c : Nat} {added : List Event}
    (h : w.Adds w₁ (t.key .domain) []) (hs : Stored w₁.log log t)
    (hadded : t.pending.map Event.content = added.map Event.content)
    (hi : ((w₁.logged i log).remember c (t.key .domain) t.settle).Idle w') :
    w.Adds w' (t.key .domain) added where
  here := by
    rw [EventLog.events_congr hi.streams, log_remember, log_logged,
      map_content_of_entry hs.map_entry_domain, h.here, List.map_nil, List.append_nil, hadded]
  elsewhere stream hne := by
    rw [EventLog.events_congr hi.streams, log_remember, log_logged,
      hs.others stream .domain (by decide) hne]
    exact h.elsewhere stream hne

/-- After an entity was stored and its settled timeline was cached, everything can be read. -/
private theorem Readable.settled (h : w.Readable kindOf) (hc : w.Consistent)
    (he : e.timeline.Rooted w.log)
    (hkind : kindOf (e.timeline.key .domain) = kind) {i : Nat} {log : EventLog}
    (hs : Stored w.log log e.timeline)
    (hpending : ∀ event ∈ e.timeline.pending, (C.routes kind).Mergeable event.kind event.payload)
    (hsnapshot : ∀ s ∈ e.timeline.snapshot, (C.routes kind).Restores s)
    (hstaged : ∀ s ∈ e.timeline.pendingSnapshot, s.taken.Legible ∧ (C.routes kind).Restores s) :
    ((w.logged i log).remember n.cache (e.timeline.key .domain) e.timeline.settle).Readable kindOf ∧
      e.settle.Ready (C.routes kind) := by
  have hrestores : ∀ s ∈ e.timeline.settle.snapshot, (C.routes kind).Restores s := by
    intro s hs
    change (e.timeline.pendingSnapshot <|> e.timeline.snapshot) = some s at hs
    cases hp : e.timeline.pendingSnapshot with
    | none =>
      rw [hp] at hs
      exact hsnapshot s hs
    | some s' =>
      rw [hp] at hs
      cases hs
      exact (hstaged s hp).2
  refine ⟨?_, by simp [Entity.settle, Timeline.settle], rfl, hrestores⟩
  refine Readable.remember (h.stored hc i hs he hkind (fun event hevent => ?_) hstaged) n.cache ?_
  · exact (hpending event hevent).reads
  · rw [hkind]
    exact hrestores

/-- A merge that succeeds adds what was kept of the batch. -/
theorem Readable.merged (h : w.Readable kindOf) (hc : w.Consistent) (he : e.timeline.Rooted w.log)
    (hclean : e.timeline.dirty = false) (hkind : kindOf (e.timeline.key .domain) = kind)
    (hsnapshot : ∀ s ∈ e.timeline.snapshot, (C.routes kind).Restores s)
    (hrecords : (C.routes kind).Records) (hwall : w.wall.Legible)
    (hevents : ∀ event ∈ events, event.lane = .domain →
      (C.routes kind).Mergeable event.kind event.payload) {resolution : Resolution}
    (hm : Merged n (· = w.wall) (C.routes kind) events e w (.ok resolution) d w') :
    w'.Readable kindOf ∧ d.Ready (C.routes kind) ∧ ∃ s' kept dropped,
      (C.routes kind).Replays e.state events s' kept dropped ∧
        w.Adds w' (e.timeline.key .domain) kept := by
  obtain ⟨hpending, -, hunstaged⟩ := Timeline.dirty_eq_false.1 hclean
  have hkept : ∀ {d : Entity (C.State kind)} {kept dropped : List Event},
      e.Merges (C.routes kind) (· = w.wall) events d kept dropped →
        d.timeline.pending.map Event.content = kept.map Event.content := by
    intro d kept dropped hmerges
    have hcontents := map_content_of_entry hmerges.pending
    rwa [hpending, List.map_nil, List.nil_append] at hcontents
  cases hm with
  | @nothing _ kept dropped _ hmerges hclean' hidle =>
    obtain ⟨hpending', -, hunstaged'⟩ := Timeline.dirty_eq_false.1 hclean'
    -- Nothing is pending, so nothing was kept.
    have hnone := hkept hmerges
    rw [hpending', List.map_nil] at hnone
    refine ⟨h.idle hidle, ⟨by simp [hpending'], hunstaged', ?_⟩, _, kept, dropped,
      hmerges.replays, ?_⟩
    · rw [hmerges.continues.snapshot]
      exact hsnapshot
    · rw [List.map_eq_nil_iff.1 hnone.symm]
      exact .of_idle hidle _
  | @stored d kept dropped i log w₁ _ hbefore hmerges hversion hstored hafter =>
    have hkey : d.timeline.key .domain = e.timeline.key .domain := by
      rw [Timeline.key, Timeline.key, hmerges.continues.stream]
    -- What is pending says what the kept events say, and these were in the batch.
    have hmergeable : ∀ event ∈ d.timeline.pending,
        (C.routes kind).Mergeable event.kind event.payload := by
      intro event hevent
      have hsaid := List.mem_map_of_mem (f := Event.content) hevent
      rw [hkept hmerges] at hsaid
      obtain ⟨other, hother, hsame⟩ := List.mem_map.1 hsaid
      obtain ⟨hk, hp⟩ := Prod.mk.inj hsame
      rw [← hk, ← hp]
      have hin := hmerges.replays.perm.subset (List.mem_append_left dropped hother)
      exact hevents other (List.mem_filter.1 hin).1 (hmerges.replays.lane_of_kept other hother)
    have hstaged : ∀ s ∈ d.timeline.pendingSnapshot, s.taken.Legible ∧
        (C.routes kind).Restores s := by
      intro s hs
      obtain ⟨-, htaken, -, snapshots, hsnap, hencode⟩ := hmerges.staged hunstaged hs
      exact ⟨htaken ▸ hwall, hrecords.restores hsnap hencode⟩
    have hrooted := (Passes.idle hc hbefore 0 "").rooted hc (he.continues hmerges.continues)
    obtain ⟨hreadable, hready⟩ := (h.idle hbefore).settled (hc.idle hbefore) hrooted
      (hkey ▸ hkind) (n := n) (i := i) hstored hmergeable
      (hmerges.continues.snapshot ▸ hsnapshot) hstaged
    refine ⟨hreadable.idle hafter, hready, _, kept, dropped, hmerges.replays, ?_⟩
    rw [← hkey]
    exact (Adds.of_idle hbefore _).stored hstored (hkept hmerges) hafter

/-- A snapshot of the state is staged if one is due, which changes nothing that is pending. -/
private theorem mergeable_staged (h : e.Ready (C.routes kind)) (hrecords : (C.routes kind).Records)
    {time : Moment} (htime : time.Legible)
    (hs : e.staged ((C.routes kind).lift : Routes (StateM World) (C.State kind)) time = .ok e₁) :
    (∀ event ∈ e₁.timeline.pending, (C.routes kind).Mergeable event.kind event.payload) ∧
      (∀ s ∈ e₁.timeline.snapshot, (C.routes kind).Restores s) ∧
      ∀ s ∈ e₁.timeline.pendingSnapshot, s.taken.Legible ∧ (C.routes kind).Restores s := by
  rcases Entity.staged_eq_ok hs with ⟨-, rfl⟩ | ⟨-, snapshots, memento, hsome, hencode, rfl⟩
  · exact ⟨h.pending, h.snapshot, by simp [h.unstaged]⟩
  · refine ⟨h.pending, h.snapshot, ?_⟩
    rintro s ⟨⟩
    exact ⟨htime, hrecords.restores hsome hencode⟩

theorem Receipt.stored_of_unmerged {t : Timeline} (ht : t.Sound) {r : Receipt}
    (hsubmitted : r.submitted = t.batch) (hdeclined : r.declined = []) : r.stored = t.pending := by
  rw [Receipt.stored, hsubmitted, hdeclined, ← ht.filter_batch]
  exact List.filter_congr fun event _ => by simp

/-- Nothing having been staged, what was kept of a batch is what its receipt does not say to be
declined. -/
private theorem stored_commitReceipt_of_replays (h : w.Readable kindOf)
    (he : e.timeline.Rooted w.log)
    (hstrategy : n.settings.strategy = .resolveStrongly) {fresh : Entity (C.State kind)}
    (hload : (w.forget n.cache (e.timeline.key .domain)).loaded n.cache (C.routes kind)
      e.timeline.stream = .ok fresh)
    {resolution : Resolution} (hne : resolution ≠ .deferred) {s' : C.State kind}
    {kept dropped : List Event}
    (hreplays : (C.routes kind).Replays fresh.state e.timeline.batch s' kept dropped) :
    (n.commitReceipt (C.routes kind) e w w' (.ok (.resolved resolution))).stored = kept := by
  have htaken : w.taken w' n.area (e.timeline.key .domain) = [] :=
    taken_eq_nil (by simp [h.unstaged])
  have hall : (CommitOutcome.resolved resolution).merged e.timeline.batch = e.timeline.batch := by
    cases resolution with
    | committed | discarded => rfl
    | deferred => exact absurd rfl hne
  have hdeclined : (n.commitReceipt (C.routes kind) e w w' (.ok (.resolved resolution))).declined =
      dropped := by
    simp only [Node.commitReceipt, hload, htaken, hall, hstrategy, ConflictStrategy.declined,
      List.nil_append]
    exact hreplays.declined_eq
  have hnodup := he.sound.numbered.nodup
  rw [← he.sound.filter_batch] at hnodup
  rw [Receipt.stored, hdeclined, hreplays.kept_eq hnodup]
  rfl

namespace Serves

variable {r : Except CommitError CommitOutcome}

/-- A conflict is resolved by loading the entity anew and merging what was pending. -/
theorem resolveConflict (h : w.Serves kindOf) (hc : w.Consistent) (he : e.timeline.Rooted w.log)
    (hbatch : ∀ event ∈ e.timeline.batch, event.lane = .domain →
      (C.routes kind).Mergeable event.kind event.payload)
    (hkind : kindOf (e.timeline.key .domain) = kind) (hrecords : (C.routes kind).Records)
    (hstrategy : n.settings.strategy = .resolveStrongly)
    (hv : w.log.version (e.timeline.key .domain) ≤ 0x7fffffffffffffff)
    (hrun : Runs ((n.repository (site opened)).resolveConflict (C.routes kind).lift e commitId
      headers) (w.forget n.cache (e.timeline.key .domain)) (r, e') w') :
    (∃ outcome, r = .ok outcome) ∧ w'.Serves kindOf ∧ e'.Ready (C.routes kind) ∧
      e'.timeline.key .domain = e.timeline.key .domain ∧
      w.Adds w' (e.timeline.key .domain) (n.commitReceipt (C.routes kind) e w w' r).stored := by
  -- The cached copy is gone, so that what is loaded is at the version of the log. The write of what
  -- is merged into it therefore passes the check of the version.
  have hforgot := hc.forget n.cache (e.timeline.key .domain)
  have hreadable := h.toReadable.forget n.cache (e.timeline.key .domain)
  obtain ⟨fresh, hload⟩ := hreadable.exists_loaded hforgot n.cache hkind hv
  rcases runs_resolveConflict hrun with
    ⟨err, hfailed, -⟩ | ⟨found, result, d, hfound, hresolves, hend⟩
  · rw [loaded_lift] at hfailed
    cases hload.symm.trans hfailed
  rw [loaded_lift] at hfound
  cases hload.symm.trans hfound
  obtain ⟨hview, hkey, hrooted, hclean⟩ := hforgot.loaded hload
  change fresh.timeline.key .domain = e.timeline.key .domain at hkey
  obtain ⟨-, hversion, -⟩ :=
    EventLog.timeline_spec hc.numbered hc.recorded ((view_forget w n.cache _).symm.trans hview)
  change fresh.timeline.version = w.log.version (e.timeline.key .domain) at hversion
  have hfree : ((w.forget n.cache (e.timeline.key .domain)).viewed n.cache
      e.timeline.stream).Unfrozen := h.unfrozen.congr (by rw [log_viewed, log_forget])
  have hwall := wall_viewed (w.forget n.cache (e.timeline.key .domain)) n.cache e.timeline.stream
  rw [hstrategy] at hresolves
  obtain ⟨hfree', hwall', hok⟩ := settleBatch_of_unfrozen hfree hresolves
  obtain ⟨resolution, rfl⟩ := hok (by rw [log_viewed, log_forget, hkey, hversion])
    hrecords.encodes (Routes.exists_replays hbatch _)
  have hmerged := merged_of_settleBatch hresolves
  obtain ⟨hreadable', hready, s', kept, dropped, hreplays, hadds⟩ :=
    (hreadable.viewed n.cache _).merged (hforgot.viewed n.cache _) (by rwa [log_viewed]) hclean
      (hkey ▸ hkind) (fun s hs => hkind ▸ hreadable.view hview s hs) hrecords (hwall ▸ h.wall)
      hbatch hmerged
  rcases hend with ⟨_, hres, rfl, rfl⟩ | ⟨_, hres, -⟩
  swap
  · cases hres
  cases hres
  refine ⟨⟨_, rfl⟩, ⟨hreadable', hfree', (hwall'.trans hwall) ▸ h.wall⟩, hready, ?_, ?_⟩
  · rw [← hkey, Timeline.key, Timeline.key, hmerged.stream_eq]
  have hstored : (n.commitReceipt (C.routes kind) e w w' (.ok (.resolved resolution))).stored =
      kept :=
    stored_commitReceipt_of_replays h.toReadable he hstrategy hload hmerged.ne_deferred hreplays
  rw [hstored, ← hkey]
  exact ⟨by simpa using hadds.here, by simpa using hadds.elsewhere⟩

/-- A commit succeeds, and adds the submitted domain events that were not declined. -/
theorem commit (h : w.Serves kindOf) (hc : w.Consistent) (he : e.timeline.Rooted w.log)
    (hready : e.Ready (C.routes kind)) (hkind : kindOf (e.timeline.key .domain) = kind)
    (hrecords : (C.routes kind).Records) (hstrategy : n.settings.strategy = .resolveStrongly)
    (hv : w.log.version (e.timeline.key .domain) ≤ 0x7fffffffffffffff)
    (hcommit : Committed n opened (C.routes kind).lift e commitId headers w (r, e') w') :
    (∃ outcome, r = .ok outcome) ∧ w'.Serves kindOf ∧ e'.Ready (C.routes kind) ∧
      e'.timeline.key .domain = e.timeline.key .domain ∧
      w.Adds w' (e.timeline.key .domain) (n.commitReceipt (C.routes kind) e w w' r).stored := by
  cases hcommit with
  | clean hdirty =>
    have hstored : (n.commitReceipt (C.routes kind) e w w (.ok .clean)).stored = [] := by
      simp [Receipt.stored, Node.commitReceipt, Timeline.batch_eq_nil hdirty]
    rw [hstored]
    exact ⟨⟨_, rfl⟩, h, hready, rfl, .of_idle (.refl w) _⟩
  | @unrecorded err hdirty hstaged =>
    -- Every state can be recorded, and nobody holds the stream: two of the five ways are closed.
    obtain ⟨e₁, he₁⟩ := Entity.exists_staged hrecords.encodes e w.wall
    cases hstaged.symm.trans he₁
  | @held e₁ owner hdirty hstaged hheld =>
    rw [holder_eq_none (by simp [h.unfrozen _])] at hheld
    cases hheld
  | @written e₁ v w' hdirty hstaged hwrote =>
    obtain ⟨hcontinues, -⟩ := continues_staged hstaged
    obtain ⟨hmergeable, hsnapshot, hsnap⟩ := mergeable_staged hready hrecords h.wall hstaged
    have hkey : e₁.timeline.key .domain = e.timeline.key .domain := by
      rw [Timeline.key, Timeline.key, hcontinues.stream]
    have hrooted := he.continues hcontinues
    rw [commitReceipt_staged hstaged, ← hkey]
    cases hwrote with
    | @stored i log hversion hstored =>
      obtain ⟨hreadable, hready'⟩ := h.toReadable.settled hc hrooted (hkey ▸ hkind) (n := n)
        (i := i) hstored hmergeable hsnapshot hsnap
      refine ⟨⟨_, rfl⟩, ⟨hreadable, h.unfrozen.congr hstored.metadata, h.wall⟩, hready', rfl, ?_⟩
      have hreceipt : ∀ w' v, w'.areas = w.areas →
          (n.commitReceipt (C.routes kind) e₁ w w' (.ok (.written v))).refused ++
            (n.commitReceipt (C.routes kind) e₁ w w' (.ok (.written v))).declined = [] :=
        fun _ _ hareas => commitReceipt_of_unmerged hareas (by rintro _ ⟨⟩; rfl)
      have hnone := List.append_eq_nil_iff.1 (hreceipt ((w.logged i log).remember n.cache
        (e₁.timeline.key .domain) e₁.timeline.settle) (e₁.timeline.storedVersion w.log) rfl)
      rw [Receipt.stored_of_unmerged hrooted.sound rfl hnone.2]
      exact (Adds.of_idle (.refl w) _).stored hstored rfl (.refl _)
  | @conflict e₁ _ _ hdirty hstaged hpending hversion hresolve =>
    obtain ⟨hcontinues, hbatch⟩ := continues_staged hstaged
    have hkey : e₁.timeline.key .domain = e.timeline.key .domain := by
      rw [Timeline.key, Timeline.key, hcontinues.stream]
    rw [commitReceipt_staged hstaged, ← hkey]
    refine h.resolveConflict hc (he.continues hcontinues) ?_ (hkey ▸ hkind) hrecords hstrategy
      (hkey ▸ hv) hresolve
    rw [hbatch]
    exact hready.batch he.sound

end Serves

end World

end Chronicle
