import Chronicle.Proofs.Freezing
import Chronicle.Proofs.Receipts

/-!
# Logs that tell the same twice

A state can be rebuilt from the whole history of a stream, or from a snapshot and the events after
it. A log tells both the same if every snapshot records a state that the events up to its version
lead to. This is kept by every way of storing an entity whose own state is what its history and its
pending events lead to, and merging keeps entities so if conflict routes do what handle routes do.
-/

namespace Chronicle

variable {S : Type}

namespace Routes

/-- A conflict route that merges an event does what the handle route of the event does, and one that
discards it leaves the state alone. -/
def MergesAsHandled (routes : Routes Id S) : Prop :=
  ∀ s event s',
    (routes.conflictEvent s event = (.ok (), s') →
      ∃ applied, routes.handleEvent s event = .ok (s', applied)) ∧
    (routes.conflictEvent s event = (.error (.signal .discard), s') → s' = s)

theorem mergesAsHandled_of_empty {routes : Routes Id S} (h : routes.conflicts = ∅) :
    routes.MergesAsHandled := by
  intro s event s'
  have hnone : routes.conflictEvent s event = (.error (routes.noConflictRoute event.kind), s) := by
    simp only [conflictEvent, h, Std.ExtTreeMap.getElem?_empty]
    rfl
  rw [hnone]
  constructor <;> rintro ⟨⟩

/-- A conflict route may be added that does what the handle route for its events does, or
nothing. -/
theorem MergesAsHandled.conflict {E : Type} {routes : Routes Id S} {type : EventType E}
    {apply : E → S → S} {merge : E → ConflictRoute Id S} (h : routes.MergesAsHandled)
    (hhandle : routes.handlers[type.kind]? = some fun v => (type.decode v).map apply)
    (hmerge : ∀ e s s', (Id.run (merge e s) = (.ok (), s') → s' = apply e s) ∧
      (Id.run (merge e s) = (.error .discard, s') → s' = s)) :
    (routes.conflict type merge).MergesAsHandled := by
  intro s event s'
  -- Events of other kinds do not meet the new route.
  by_cases hk : type.kind = event.kind
  · have hroute : (routes.conflict type merge).conflicts[event.kind]? =
        some fun v => (type.decode v).map merge := by
      simp [Routes.conflict, hk]
    have hhandled : (routes.conflict type merge).handlers[event.kind]? =
        some fun v => (type.decode v).map apply := hk ▸ hhandle
    cases he : type.decode event.payload with
    | error err =>
      have hunread : (routes.conflict type merge).conflictEvent s event =
          (.error (.route (.decode event.kind err)), s) := by
        simp only [conflictEvent, hroute, he, Except.map]
        rfl
      rw [hunread]
      constructor <;> rintro ⟨⟩
    | ok e =>
      obtain ⟨outcome, next, hnext⟩ : ∃ outcome next, Id.run (merge e s) = (outcome, next) :=
        ⟨_, _, rfl⟩
      obtain ⟨hmerged, hdiscarded⟩ := hmerge e s next
      have hread : ((fun v => (type.decode v).map merge) : Json → _) event.payload =
          .ok (merge e) := by simp [he, Except.map]
      rw [conflictEvent_eq hroute hread hnext]
      rw [hnext] at hmerged hdiscarded
      constructor
      · intro hok
        obtain ⟨hout, rfl⟩ := Prod.mk.inj hok
        have hout' : outcome = .ok () := by cases outcome <;> first | rfl | cases hout
        refine ⟨true, ?_⟩
        simp only [handleEvent, hhandled, he, Except.map, hmerged (by rw [hout'])]
      · intro herror
        obtain ⟨hout, rfl⟩ := Prod.mk.inj herror
        refine hdiscarded ?_
        cases outcome with
        | ok u => cases hout
        | error signal =>
          cases hout
          rfl
  · have hroute : (routes.conflict type merge).conflicts[event.kind]? =
        routes.conflicts[event.kind]? := by
      simp [Routes.conflict, Std.ExtTreeMap.getElem?_insert, hk]
    have hsame :
        (routes.conflict type merge).conflictEvent s event = routes.conflictEvent s event := by
      simp only [conflictEvent, hroute]
      rfl
    rw [hsame]
    exact h s event s'

/-- What is kept of a batch leads where the batch leads. -/
theorem Replays.hydrates {routes : Routes Id S} {s s' : S} {events kept dropped : List Event}
    (h : routes.Replays s events s' kept dropped) (hm : routes.MergesAsHandled) :
    routes.Hydrates s kept s' := by
  induction h with
  | nil s => exact hydrates_nil.2 rfl
  | merged hlane hroute hrest ih =>
    obtain ⟨applied, hhandled⟩ := (hm _ _ _).1 hroute
    exact hydrates_cons.2 ⟨_, applied, hhandled, ih⟩
  | declined hlane hroute hrest ih =>
    rw [(hm _ _ _).2 hroute] at ih
    exact ih
  | passed hlane hrest ih => exact ih

end Routes

namespace EventLog

variable {log log' : EventLog} {key : String} {routes : Routes Id S}

def upTo (log : EventLog) (key : String) (v : Int) : List Event :=
  (log.events key).take (v + 1).toNat

theorem upTo_version (hn : log.Numbered) (key : String) :
    log.upTo key (log.version key) = log.events key := by
  have := hn.version_eq key
  rw [upTo, List.take_of_length_le (by omega)]

theorem upTo_eq_of_prefix (hn : log.Numbered) (hg : log.events key <+: log'.events key) {v : Int}
    (hv : v ≤ log.version key) : log'.upTo key v = log.upTo key v := by
  obtain ⟨added, hadded⟩ := hg
  have := hn.version_eq key
  rw [upTo, upTo, ← hadded, List.take_append_of_le_length (by omega)]

end EventLog

/-- A snapshot of a version that the log has reached records a state that the events up to this
version lead to. -/
structure Snapshot.Faithful (routes : Routes Id S) (log : EventLog) (key : String) (s : Snapshot) :
    Prop where
  floor : 0 ≤ s.version
  reached : s.version ≤ log.version key
  taken : s.taken.Legible
  recorded : ∃ state, routes.encodeSnapshot state = .ok (some s.memento) ∧
    routes.Hydrates routes.initial (log.upTo key s.version) state

/-- Every domain stream leads to a state, and every snapshot is faithful to the stream. -/
structure EventLog.Tells (routes : Routes Id S) (log : EventLog) : Prop where
  history : ∀ stream : StreamRef,
    ∃ s, routes.Hydrates routes.initial (log.events (stream.key .domain)) s
  snapshots : ∀ stream : StreamRef, ∀ record ∈ log.events (stream.key .snapshot), ∃ s : Snapshot,
    record.payload = s.toJson ∧ s.Faithful routes log (stream.key .domain)

/-- The state of the entity is what the events up to its version and the pending ones lead to. -/
def Entity.Tells (routes : Routes Id S) (log : EventLog) (e : Entity S) : Prop :=
  routes.Hydrates routes.initial
    (log.upTo (e.timeline.key .domain) e.timeline.version ++ e.timeline.pending) e.state

theorem Snapshot.Faithful.mono {routes : Routes Id S} {log log' : EventLog} {key : String}
    {s : Snapshot} (h : s.Faithful routes log key) (hn : log.Numbered) (hn' : log'.Numbered)
    (hg : log.events key <+: log'.events key) : s.Faithful routes log' key where
  floor := h.floor
  reached := Int.le_trans h.reached (hn.version_le hn' hg)
  taken := h.taken
  recorded := by
    rw [EventLog.upTo_eq_of_prefix hn hg h.reached]
    exact h.recorded

namespace Routes

variable {routes : Routes Id S}

theorem RecordsFaithfully.decodeSnapshot_eq (h : routes.RecordsFaithfully) {state : S}
    {memento : Json}
    (he : routes.encodeSnapshot state = .ok (some memento)) :
    routes.decodeSnapshot memento = .ok (some state) := by
  unfold encodeSnapshot at he
  unfold decodeSnapshot
  cases hs : routes.snapshots with
  | none => simp [hs] at he
  | some snapshots =>
    simp only [hs] at he
    cases hm : snapshots.encode state with
    | error reason => simp [hm] at he
    | ok recorded =>
      simp only [hm, Except.ok.injEq, Option.some.injEq] at he
      subst he
      simp only [h snapshots hs state recorded hm]

theorem encodeSnapshot_eq {snapshots : SnapshotRoutes S} (hs : snapshots ∈ routes.snapshots)
    {state : S} {memento : Json} (he : snapshots.encode state = .ok memento) :
    routes.encodeSnapshot state = .ok (some memento) := by
  simp [encodeSnapshot, Option.mem_def.1 hs, he]

end Routes

namespace EventLog.Tells

variable {log log' : EventLog} {routes : Routes Id S} {stream : StreamRef} {t : Timeline}

protected theorem empty (routes : Routes Id S) : EventLog.empty.Tells routes where
  history _ := ⟨routes.initial, Routes.hydrates_nil.2 rfl⟩
  snapshots := by simp

theorem congr (h : log.Tells routes) (hs : log'.streams = log.streams) : log'.Tells routes := by
  have hevents := EventLog.events_congr hs
  refine ⟨fun stream => hevents _ ▸ h.history stream, fun stream record hrecord => ?_⟩
  rw [hevents] at hrecord
  obtain ⟨s, hpay, hfloor, hreached, htaken, hrecorded⟩ := h.snapshots stream record hrecord
  refine ⟨s, hpay, hfloor, ?_, htaken, ?_⟩
  · rw [version, hevents]
    exact hreached
  · rw [upTo, hevents]
    exact hrecorded

theorem recorded (h : log.Tells routes) : log.Recorded fun s => s.taken.Legible := by
  intro stream record hrecord
  obtain ⟨s, hpay, hs⟩ := h.snapshots stream record hrecord
  have := hs.floor
  exact ⟨s, hpay, by simp only [newStreamVersion]; omega, hs.reached, hs.taken⟩

/-- The timeline of a stream starts from a state that the events before its first one lead to. -/
theorem startState (h : log.Tells routes) (hn : log.Numbered) (hr : routes.RecordsFaithfully)
    (ht : log.timeline stream = .ok t) : ∃ first before, Entity.startState routes t = .ok first ∧
      routes.Hydrates routes.initial before first ∧
        log.events (stream.key .domain) = before ++ t.settled := by
  obtain ⟨snapshot, hs, rfl⟩ := except_map_eq_ok.1 ht
  have hread : ∀ start : Int, 0 ≤ start → log.read (stream.key .domain) start none =
      (log.events (stream.key .domain)).drop start.toNat := by
    intro start hstart
    have hdrop := (hn (stream.key .domain)).filter_le hstart
    simpa [read] using hdrop
  cases snapshot with
  | none =>
    refine ⟨routes.initial, [], rfl, Routes.hydrates_nil.2 rfl, ?_⟩
    simp [Timeline.ofHistory, hread 0 (Int.le_refl 0)]
  | some s =>
    obtain ⟨record, hmem, hd⟩ := exists_record hs
    obtain ⟨s', hpay, hfaithful⟩ := h.snapshots stream record hmem
    obtain ⟨hversion, hmemento⟩ := Snapshot.of_decode_toJson (hpay ▸ hd)
    obtain ⟨state, hencoded, hhydrates⟩ := hfaithful.recorded
    have hfloor := hfaithful.floor
    refine ⟨state, log.upTo (stream.key .domain) s'.version, ?_, hhydrates, ?_⟩
    · simp [Entity.startState, Timeline.ofHistory, hmemento, hr.decodeSnapshot_eq hencoded,
        Except.map]
    · simp only [Timeline.ofHistory, hversion, upTo, hread (s'.version + 1) (by omega)]
      exact (List.take_append_drop ..).symm

/-- A stream that is loaded without a cache gives the state that its whole history leads to. -/
theorem exists_loaded (h : log.Tells routes) (hn : log.Numbered) (hr : routes.RecordsFaithfully)
    (ht : log.timeline stream = .ok t) : ∃ e, Entity.ofTimeline routes t = .ok e ∧
      routes.Hydrates routes.initial (log.events (stream.key .domain)) e.state := by
  obtain ⟨first, before, hfirst, hbefore, hevents⟩ := h.startState hn hr ht
  obtain ⟨s, hs⟩ := h.history stream
  rw [hevents] at hs ⊢
  obtain ⟨next, -, hrest⟩ := Routes.hydrates_append.1 hs
  have hsettled := hrest.exists first
  exact ⟨⟨_, t, 0⟩, Entity.ofTimeline_eq_ok.2 ⟨rfl, rfl, first, hfirst, hsettled⟩,
    Routes.hydrates_append.2 ⟨first, hbefore, hsettled⟩⟩

theorem loaded (h : log.Tells routes) (hn : log.Numbered) (hr : routes.RecordsFaithfully)
    (ht : log.timeline stream = .ok t) {e : Entity S} (he : Entity.ofTimeline routes t = .ok e) :
    e.Tells routes log := by
  obtain ⟨e', he', hstate⟩ := h.exists_loaded hn hr ht
  cases he.symm.trans he'
  obtain ⟨hstream, hversion, -, hclean, -⟩ := EventLog.timeline_spec hn h.recorded ht
  obtain ⟨hpending, -⟩ := Timeline.dirty_eq_false.1 hclean
  rw [Entity.Tells, Entity.timeline_ofTimeline he, Timeline.key, hstream, hversion, upTo_version hn,
    hpending, List.append_nil]
  exact hstate

end EventLog.Tells

/-- A snapshot that is about to be stored records the state of its entity after what is pending. -/
def Entity.Stages (routes : Routes Id S) (e : Entity S) : Prop :=
  ∀ s ∈ e.timeline.pendingSnapshot, s.version = e.timeline.nextVersion ∧ s.taken.Legible ∧
    e.timeline.pending ≠ [] ∧ routes.encodeSnapshot e.state = .ok (some s.memento)

namespace EventLog.Tells

variable {log log' : EventLog} {routes : Routes Id S} {e : Entity S}

protected theorem stored (h : log.Tells routes) (hn : log.Numbered)
    (hs : Stored log log' e.timeline)
    (he : e.timeline.Rooted log) (ht : e.Tells routes log) (hstages : e.Stages routes)
    (hv : e.timeline.pending ≠ [] → log.version (e.timeline.key .domain) = e.timeline.version) :
    log'.Tells routes := by
  have hcontents := map_content_of_entry hs.map_entry_domain
  rw [← List.map_append] at hcontents
  have hn' := hs.numbered hn
  have hend : e.timeline.pending ≠ [] →
      routes.Hydrates routes.initial (log'.events (e.timeline.key .domain)) e.state := by
    intro hpending
    rw [Entity.Tells, ← hv hpending, upTo_version hn] at ht
    exact (Routes.hydrates_congr hcontents).2 ht
  constructor
  · intro stream
    by_cases hk : stream.key .domain = e.timeline.key .domain
    · rw [hk]
      by_cases hpending : e.timeline.pending = []
      · rw [hpending, List.append_nil] at hcontents
        obtain ⟨s, hhistory⟩ := h.history e.timeline.stream
        exact ⟨s, (Routes.hydrates_congr hcontents).2 hhistory⟩
      · exact ⟨e.state, hend hpending⟩
    · rw [hs.others stream .domain (by decide) hk]
      exact h.history stream
  -- A record is an old one, or that of the snapshot that was pending.
  · intro stream record hrecord
    rcases hs.mem_snapshot hrecord with hold | ⟨hk, s, hmem, hpay⟩
    · obtain ⟨s, hpay, hfaithful⟩ := h.snapshots stream record hold
      exact ⟨s, hpay, hfaithful.mono hn hn' (hs.grows _)⟩
    · obtain ⟨hversion, htaken, hpending, hencoded⟩ := hstages s hmem
      have hreached : log'.version (e.timeline.key .domain) = s.version := by
        have hnext := he.sound.next
        have hnew := hs.version hn
        have hat := hv hpending
        omega
      refine ⟨s, hpay, ?_, ?_, htaken, e.state, hencoded, ?_⟩
      · have hlength := List.length_pos_of_ne_nil hpending
        have hfloor := he.based.floor
        have hnext := he.sound.next
        simp only [newStreamVersion] at hfloor
        omega
      · exact Int.le_of_eq (by rw [hk, hreached])
      · rw [hk, ← hreached, upTo_version hn']
        exact hend hpending

end EventLog.Tells

namespace Entity

variable {log log' : EventLog} {routes : Routes Id S} {e d : Entity S}
  {events kept dropped : List Event}

theorem Tells.of_takes {s : S} (h : e.Tells routes log) (htakes : e.Takes d events kept)
    (hs : routes.Hydrates e.state kept s) :
    ({ d with state := s } : Entity S).Tells routes log := by
  have hkey : d.timeline.key .domain = e.timeline.key .domain := by
    rw [Timeline.key, Timeline.key, htakes.continues.stream]
  have hcontents := map_content_of_entry htakes.pending
  rw [← List.map_append] at hcontents
  have hboth := Routes.hydrates_append.2 ⟨_, h, hs⟩
  rw [List.append_assoc] at hboth
  rw [Tells, hkey, htakes.continues.version]
  refine (Routes.hydrates_congr ?_).2 hboth
  rw [List.map_append, List.map_append, hcontents]

theorem Merges.tells {drawn : Moment → Prop} (hm : e.Merges routes drawn events d kept dropped)
    (hr : routes.MergesAsHandled) (h : e.Tells routes log) : d.Tells routes log := by
  obtain ⟨hreplays, htakes, -, hstaged⟩ := hm
  have htaken := h.of_takes htakes (hreplays.hydrates hr)
  rcases staged_eq_ok hstaged with ⟨-, rfl⟩ | ⟨-, _, memento, -, -, rfl⟩ <;> exact htaken

theorem Merges.stages {drawn : Moment → Prop} (hm : e.Merges routes drawn events d kept dropped)
    (hclean : e.timeline.pendingSnapshot = none) (hdrawn : ∀ time, drawn time → time.Legible) :
    d.Stages routes := by
  intro s hs
  obtain ⟨hversion, htaken, hpending, snapshots, hsnap, hencode⟩ := hm.staged hclean hs
  exact ⟨hversion, hdrawn _ htaken, hpending, Routes.encodeSnapshot_eq hsnap hencode⟩

theorem tells_staged {m : Type → Type} [Monad m] {time : Moment} (h : e.Tells routes log)
    (hclean : e.timeline.pendingSnapshot = none) (htime : time.Legible)
    (hs : e.staged (routes.lift : Routes m S) time = .ok d) :
    d.Tells routes log ∧ d.Stages routes := by
  rcases staged_eq_ok hs with ⟨-, rfl⟩ | ⟨hdue, snapshots, memento, hsome, hencode, rfl⟩
  · exact ⟨h, by simp [Stages, hclean]⟩
  · refine ⟨h, ?_⟩
    rintro s ⟨⟩
    have hpending : e.timeline.pending ≠ [] := by
      intro hnil
      simp [shouldTakeSnapshot, hnil] at hdue
    exact ⟨rfl, htime, hpending, Routes.encodeSnapshot_eq (Option.mem_def.2 hsome) hencode⟩

/-- A log that goes on tells no other story of an entity. -/
theorem Tells.mono (h : e.Tells routes log) (hn : log.Numbered)
    (hg : log.events (e.timeline.key .domain) <+: log'.events (e.timeline.key .domain))
    (he : e.timeline.Based log) : e.Tells routes log' := by
  rw [Tells, EventLog.upTo_eq_of_prefix hn hg he.version]
  exact h

theorem Tells.apply {stamp : Stamp} {move : Move S} (h : e.Tells routes log)
    (hmove : move.Routed routes) (ha : e.apply stamp move = .ok d) : d.Tells routes log := by
  obtain ⟨payload, hpayload, rfl⟩ := apply_eq_ok ha
  rw [Tells, Timeline.pending_add, ← List.append_assoc]
  exact Routes.hydrates_append.2 ⟨e.state, h, hmove.hydrates hpayload rfl rfl e.state⟩

theorem Tells.raise {stamp : Stamp} {move : Move S} {channel : String} {transient : Bool}
    {daysToLive : Option Nat} (h : e.Tells routes log)
    (hr : e.raise stamp move channel transient daysToLive = .ok d) : d.Tells routes log := by
  obtain ⟨payload, headers, rfl⟩ := raise_eq_ok hr
  exact h

end Entity

namespace World

/-- The later log tells the same twice, the time of the day has not changed, and neither have the
other caches. -/
structure Retells (routes : Routes Id S) (cache : Nat) (w w' : World) : Prop where
  tells : w'.log.Tells routes
  wall : w'.wall = w.wall
  caches : ∀ c, c ≠ cache → w'.cache c = w.cache c

variable {n : Node} {opened : Moment} {w w' w₁ w₂ : World} {routes : Routes Id S} {c : Nat}
  {e e' d : Entity S} {events batch : List Event} {commitId : Uuid} {headers : Headers}

namespace Retells

theorem trans (h : w.Retells routes c w₁) (h' : w₁.Retells routes c w₂) :
    w.Retells routes c w₂ where
  tells := h'.tells
  wall := h'.wall.trans h.wall
  caches d hd := (h'.caches d hd).trans (h.caches d hd)

protected theorem idle (h : w.log.Tells routes) (hi : w.Idle w') (hwall : w'.wall = w.wall) :
    w.Retells routes c w' where
  tells := h.congr hi.streams
  wall := hwall
  caches d _ := hi.cache d

theorem refl (h : w.log.Tells routes) : w.Retells routes c w := .idle h (.refl w) rfl

protected theorem forget (h : w.log.Tells routes) (key : String) :
    w.Retells routes c (w.forget c key) where
  tells := h
  wall := rfl
  caches d hd := by simp [World.forget, cache, Std.ExtTreeMap.getD_insert, Ne.symm hd]

protected theorem remember (h : w.log.Tells routes) (key : String) (t : Timeline) :
    w.Retells routes c (w.remember c key t) where
  tells := h
  wall := rfl
  caches d hd := by simp [World.remember, cache, Std.ExtTreeMap.getD_insert, Ne.symm hd]

protected theorem viewed (h : w.log.Tells routes) (stream : StreamRef) :
    w.Retells routes c (w.viewed c stream) := by
  unfold World.viewed
  split
  · exact .remember h _ _
  · exact .refl h

protected theorem restaged (h : w.log.Tells routes) (area : Nat) (key : String)
    (messages : List (Staged ConflictBatch)) :
    w.Retells routes c (w.restaged area key messages) where
  tells := h
  wall := rfl
  caches _ _ := rfl

protected theorem stored (h : w.log.Tells routes) (hc : w.Consistent) (i : Nat) {log : EventLog}
    (hs : Stored w.log log e.timeline) (he : e.timeline.Rooted w.log) (ht : e.Tells routes w.log)
    (hstages : e.Stages routes) (hv : e.timeline.pending ≠ [] →
      w.log.version (e.timeline.key .domain) = e.timeline.version) :
    w.Retells routes c (w.logged i log) where
  tells := h.stored hc.numbered hs he ht hstages hv
  wall := rfl
  caches _ _ := rfl

end Retells

/-- An entity that may be merged into: nothing is pending, and its state is what its history leads
to. -/
structure Loaded (w : World) (routes : Routes Id S) (e : Entity S) : Prop where
  rooted : e.timeline.Rooted w.log
  clean : e.timeline.dirty = false
  tells : e.Tells routes w.log

theorem Loaded.mono (h : w.Loaded routes e) (hc : w.Consistent) (hc' : w'.Consistent)
    (hg : ∀ key, w.log.events key <+: w'.log.events key) : w'.Loaded routes e where
  rooted := h.rooted.mono hc.numbered hc'.numbered hg
  clean := h.clean
  tells := h.tells.mono hc.numbered (hg _) h.rooted.based

protected theorem Loaded.viewed (h : w.Loaded routes e) (c : Nat) (stream : StreamRef) :
    (w.viewed c stream).Loaded routes e where
  rooted := by
    rw [log_viewed]
    exact h.rooted
  clean := h.clean
  tells := by
    rw [log_viewed]
    exact h.tells

theorem Loaded.idle (h : w.Loaded routes e) (hc : w.Consistent) (hi : w.Idle w') :
    w'.Loaded routes e :=
  h.mono hc (hc.idle hi) fun key => EventLog.events_congr hi.streams key ▸ List.prefix_refl _

theorem Merged.retells_of_error {drawn : Moment → Prop} {err : ResolveError}
    (hm : Merged n drawn routes events e w (.error err) e' w') (hwall : w'.wall = w.wall)
    (h : w.log.Tells routes) : w.Retells routes n.cache w' := by
  cases hm with
  | failed _ hidle => exact .idle h hidle hwall
  | outdated _ _ hidle => exact (Retells.forget h _).trans (.idle h hidle hwall)

/-- What a merge stores of an entity is what its history and the batch lead to. -/
theorem Merged.retells {drawn : Moment → Prop} {r : Except ResolveError Resolution}
    (hm : Merged n drawn routes events e w r e' w') (hwall : w'.wall = w.wall)
    (h : w.log.Tells routes) (hroutes : routes.MergesAsHandled) (hc : w.Consistent)
    (he : w.Loaded routes e) (hdrawn : ∀ time, drawn time → time.Legible) :
    w.Retells routes n.cache w' := by
  cases r with
  | error err => exact hm.retells_of_error hwall h
  | ok resolution =>
    cases hm with
    | nothing _ _ hidle => exact .idle h hidle hwall
    | @stored d kept dropped i log w₁ _ hbefore hmerges hversion hstored hafter =>
      have he₁ := he.idle hc hbefore
      have hstages := hmerges.stages (Timeline.dirty_eq_false.1 he.clean).2.2 hdrawn
      have hlog := Retells.stored (c := n.cache) (h.congr hbefore.streams) (hc.idle hbefore) i
        hstored (he₁.rooted.continues hmerges.continues) (hmerges.tells hroutes he₁.tells) hstages
        hversion
      have hcached := hlog.trans (.remember hlog.tells (d.timeline.key .domain) d.timeline.settle)
      refine ⟨hcached.tells.congr hafter.streams, hwall, fun c hne => ?_⟩
      rw [hafter.cache, hcached.caches c hne, hbefore.cache]

theorem retells_of_failed {strategy : ConflictStrategy} {threshold : Nat} {err : ResolveError}
    (hs : Resolves (settleBatch (n.store (site opened)) (surroundings cell) routes.lift events
      commitId headers strategy threshold) e w (.error err) d w')
    (h : w.log.Tells routes) : w.Retells routes n.cache w' :=
  (merged_of_settleBatch hs).retells_of_error (simultaneous_of_settleBatch hs).wall h

/-- A merge in a freeze or without one keeps the log telling the same twice. -/
theorem retells_settleBatch {strategy : ConflictStrategy} {threshold : Nat}
    {r : Except ResolveError Resolution}
    (hs : Resolves (settleBatch (n.store (site opened)) (surroundings cell) routes.lift events
      commitId headers strategy threshold) e w r d w')
    (h : w.log.Tells routes) (hroutes : routes.MergesAsHandled) (hc : w.Consistent)
    (he : w.Loaded routes e) (hwall : w.wall.Legible) : w.Retells routes n.cache w' :=
  (merged_of_settleBatch hs).retells (simultaneous_of_settleBatch hs).wall h hroutes hc he
    fun _ htime => htime ▸ hwall

/-- A batch is stored behind the newer history that the entity was loaded from. -/
theorem retells_ignoring {r : Except ResolveError Resolution}
    (hs : Resolves ((Resolver.ignoring (n.store (site opened)) (surroundings cell)).resolve
      routes.lift batch commitId headers) e w r d w')
    (h : w.log.Tells routes) (hc : w.Consistent) (he : w.Loaded routes e)
    (hversion : e.timeline.version = w.log.version (e.timeline.key .domain)) :
    w.Retells routes n.cache w' := by
  have hidle : ∀ w₁ : World, w₁.unnumbered = w.unnumbered → w.Idle w₁ ∧ w₁.wall = w.wall := by
    intro w₁ hsame
    rw [eq_logged_of_unnumbered hsame]
    exact ⟨.issued w _, rfl⟩
  cases course_of_ignoring unobserved_surroundings hs with
  | stopped hsame =>
    obtain ⟨hi, hwall⟩ := hidle _ hsame
    exact .idle h hi hwall
  | nothing _ _ hsame =>
    obtain ⟨hi, hwall⟩ := hidle _ hsame
    exact .idle h hi hwall
  | @refused d cause w₁ _ hsame happend =>
    obtain ⟨hi, hwall⟩ := hidle _ hsame
    have hissued : w.Retells routes n.cache w₁ := .idle h hi hwall
    cases appended_of_runs happend with
    | held hheld => exact hissued.trans (.forget hissued.tells _)
  | @stored d v w₁ _ htakes hstate hsame happend =>
    obtain ⟨hi, hwall⟩ := hidle _ hsame
    have hissued : w.Retells routes n.cache w₁ := .idle h hi hwall
    have he₁ := he.idle hc hi
    have hkey : d.timeline.key .domain = e.timeline.key .domain := by
      rw [Timeline.key, Timeline.key, htakes.continues.stream]
    have hstages : d.Stages routes := by
      intro s hs
      rw [htakes.unstaged, (Timeline.dirty_eq_false.1 he.clean).2.2] at hs
      cases hs
    cases appended_of_runs happend with
    | @stored i log hstored =>
      have hlog := Retells.stored (c := n.cache) hissued.tells (hc.idle hi) i hstored
        (he₁.rooted.continues htakes.continues) (he₁.tells.of_takes htakes hstate) hstages
        fun _ => by
          rw [hkey, htakes.continues.version, hversion, EventLog.version, EventLog.version,
            EventLog.events_congr hi.streams]
      exact (hissued.trans hlog).trans (.forget hlog.tells _)

private theorem retells_scheduled (h : w.log.Tells routes) {stream : StreamRef} {delay : Span}
    {p : Prop} (hs : p ∧ w' = w ∨ Runs ((n.weak (site opened)).schedule stream delay) w () w') :
    w.Retells routes c w' := by
  rcases hs with ⟨-, rfl⟩ | hs
  · exact .refl h
  · obtain rfl := runs_schedule hs
    exact .idle h ⟨rfl, rfl, rfl⟩ rfl

/-- An attempt to merge pulled batches without another one that comes to nothing stores nothing. -/
private theorem retells_unmerged {pulled : List (Staged ConflictBatch)} {stream : StreamRef}
    (hu : (n.weak (site opened)).Unmerged routes pulled stream w w') (h : w.log.Tells routes) :
    w.Retells routes n.cache w' := by
  cases hu with
  | untried => exact .refl h
  | unloaded hload =>
    obtain ⟨-, rfl⟩ := runs_loadEntity.1 hload
    exact .viewed h stream
  | failed hload hid hmerge =>
    obtain ⟨-, rfl⟩ := runs_loadEntity.1 hload
    obtain ⟨i, rfl⟩ := runs_freshId hid
    have hviewed := Retells.viewed (c := n.cache) h stream
    have hissued := hviewed.trans (.idle hviewed.tells (.issued _ i) rfl)
    exact hissued.trans (retells_of_failed hmerge hissued.tells)

/-- Whatever becomes of staged batches, the log goes on telling the same twice. -/
theorem retells_resolveStaged {current : List Event} {r : Except ResolveError Resolution}
    (hs : Resolves ((n.weak (site opened)).resolveStaged routes.lift current commitId headers) e w
      r e' w') (h : w.log.Tells routes) (hroutes : routes.MergesAsHandled) (hc : w.Consistent)
    (he : w.Loaded routes e) (hwall : w.wall.Legible)
    (hload : current ≠ [] →
      w.loaded n.cache (routes.lift : Routes (StateM World) S) e.timeline.stream = .ok e) :
    w.Retells routes n.cache w' := by
  obtain ⟨waiting, pulled, w₁, w₂, hsize, hpull, hcourse⟩ :=
    WeakResolver.course_of_resolveStaged (granting_weak n opened) hs
  obtain ⟨-, rfl⟩ := runs_size.1 hsize
  obtain ⟨rest, -, rfl, -, hrest⟩ := pulled_of_runs hc hpull
  have hc₂ := hc.restaged n.area (e.timeline.key .domain) hrest
  have he₂ : (w₁.restaged n.area (e.timeline.key .domain) rest).Loaded routes e :=
    ⟨he.rooted, he.clean, he.tells⟩
  refine (Retells.restaged h n.area (e.timeline.key .domain) rest).trans ?_
  cases hcourse with
  | empty => exact .refl h
  | together _ hmerge hscheduled =>
    have hmerged := retells_settleBatch hmerge h hroutes hc₂ he₂ hwall
    exact hmerged.trans (retells_scheduled hmerged.tells hscheduled)
  | @alone resolution err id d fresh _ w₃ w₄ w₅ w₆ _ hmerge hfinal hne hfresh hid hagain
      hscheduled =>
    -- The failed merge has left everything as it was, so that the same entity is loaded again.
    have hmerged := merged_of_settleBatch hmerge
    have hfailed := retells_of_failed hmerge h
    have hidle := hmerged.idle_of_error hfinal
    obtain ⟨hfound, rfl⟩ := runs_loadEntity.1 hfresh
    obtain ⟨i, rfl⟩ := runs_freshId hid
    rw [hmerged.stream_eq, loaded, hidle.view] at hfound
    cases (hload hne).symm.trans hfound.symm
    have hviewed := hfailed.trans (.viewed hfailed.tells d.timeline.stream)
    have hissued := hviewed.trans (.idle hviewed.tells (.issued _ i) rfl)
    have hcviewed := (hc₂.idle hidle).viewed n.cache d.timeline.stream
    have heviewed := (he₂.idle hc₂ hidle).viewed n.cache d.timeline.stream
    have hsettled := retells_settleBatch hagain hissued.tells hroutes (hcviewed.idle (.issued _ i))
      (heviewed.idle hcviewed (.issued _ i)) (hissued.wall ▸ hwall)
    have hdone := hissued.trans hsettled
    exact hdone.trans (retells_scheduled hdone.tells hscheduled)
  | refused _ _ hmerge =>
    exact retells_of_failed hmerge h
  | @returned err d w₃ w₄ w₅ _ _ hmerge halone _ hrequeue hschedule =>
    have hfailed := retells_of_failed hmerge h
    have hunmerged := hfailed.trans (retells_unmerged halone hfailed.tells)
    obtain ⟨-, rfl⟩ := runs_requeue.1 hrequeue
    have hback := Retells.restaged (c := n.cache) hunmerged.tells n.area (e.timeline.key .domain)
      (pulled ++ w₄.queue n.area (e.timeline.key .domain))
    have hgiven := hunmerged.trans hback
    exact hgiven.trans (retells_scheduled (p := True) hgiven.tells (.inr hschedule))

theorem retells_weak {r : Except ResolveError Resolution}
    (hs : Resolves ((n.weak (site opened)).resolve routes.lift batch commitId headers) e w r e' w')
    (h : w.log.Tells routes) (hroutes : routes.MergesAsHandled) (hc : w.Consistent)
    (he : w.Loaded routes e) (hwall : w.wall.Legible)
    (hload : w.loaded n.cache (routes.lift : Routes (StateM World) S) e.timeline.stream = .ok e) :
    w.Retells routes n.cache w' := by
  obtain ⟨age, w₁, hage, hcourse⟩ := WeakResolver.course_of_resolve (granting_weak n opened) hs
  obtain ⟨-, rfl⟩ := runs_age hage
  rcases hcourse with ⟨-, h₁⟩ | ⟨delay, w₂, hadd, hschedule, -, rfl, rfl⟩
  · exact retells_resolveStaged h₁ h hroutes hc he hwall fun _ => hload
  · obtain ⟨-, i, id, received, rfl⟩ := runs_add hadd
    have hissued : w₁.Retells routes n.cache (w₁.logged i w₁.log) := .idle h (.issued w₁ i) rfl
    have hstaged := hissued.trans (.restaged hissued.tells n.area (e'.timeline.key .domain)
      (w₁.queue n.area (e'.timeline.key .domain) ++
        [⟨id, received, ⟨routes.entity, e'.parents, batch⟩⟩]))
    exact hstaged.trans (retells_scheduled (p := True) hstaged.tells (.inr hschedule))

/-- Whatever the strategy, a conflict that is resolved on an entity that is up to date keeps the log
telling the same twice. -/
theorem retells_resolve {strategy : ConflictStrategy} {r : Except ResolveError Resolution}
    (hs : Resolves ((n.resolver (site opened) strategy).resolve routes.lift batch commitId headers)
      e w r e' w')
    (h : w.log.Tells routes) (hroutes : routes.MergesAsHandled) (hc : w.Consistent)
    (he : w.Loaded routes e) (hwall : w.wall.Legible)
    (hload : w.loaded n.cache (routes.lift : Routes (StateM World) S) e.timeline.stream = .ok e)
    (hversion : e.timeline.version = w.log.version (e.timeline.key .domain)) :
    w.Retells routes n.cache w' := by
  cases strategy with
  | throw =>
    obtain ⟨-, -, rfl⟩ := resolves_throw.1 hs
    exact .refl h
  | discard =>
    obtain ⟨-, -, rfl⟩ := resolves_pure.1 hs
    exact .refl h
  | ignore => exact retells_ignoring hs h hc he hversion
  | resolveStrongly => exact retells_settleBatch hs h hroutes hc he hwall
  | resolveWeakly => exact retells_weak hs h hroutes hc he hwall hload

theorem loaded_of_view (h : w.log.Tells routes) (hc : w.Consistent) (hr : routes.RecordsFaithfully)
    {stream : StreamRef} (hview : w.view c stream = w.log.timeline stream)
    (hl : w.loaded c routes stream = .ok e) : w.Loaded routes e ∧
      e.timeline.stream = stream ∧ e.timeline.version = w.log.version (stream.key .domain) := by
  obtain ⟨ht, -, hrooted, hclean⟩ := hc.loaded hl
  rw [hview] at ht
  obtain ⟨hstream, hversion, -⟩ := EventLog.timeline_spec hc.numbered hc.recorded ht
  refine ⟨⟨hrooted, hclean, h.loaded hc.numbered hr ht ?_⟩, hstream, hversion⟩
  rw [loaded, hview, ht] at hl
  exact except_mapError_eq_ok.1 hl

theorem retells_resolveConflict {r : Except CommitError CommitOutcome}
    (hs : Runs ((n.repository (site opened)).resolveConflict routes.lift e commitId headers)
      (w.forget n.cache (e.timeline.key .domain)) (r, e') w')
    (h : w.log.Tells routes) (hroutes : routes.MergesAsHandled) (hr : routes.RecordsFaithfully)
    (hc : w.Consistent) (hwall : w.wall.Legible) : w.Retells routes n.cache w' := by
  have hforgot := Retells.forget (c := n.cache) h (e.timeline.key .domain)
  have hviewed := hforgot.trans (.viewed hforgot.tells e.timeline.stream)
  have hcforgot := hc.forget n.cache (e.timeline.key .domain)
  rcases runs_resolveConflict hs with ⟨err, -, -, -, rfl⟩ | ⟨found, result, d, hload, hresolves, -⟩
  · exact hviewed
  · rw [loaded_lift] at hload
    obtain ⟨hloaded, hstream, hversion⟩ :=
      loaded_of_view hforgot.tells hcforgot hr (view_forget w n.cache e.timeline.stream) hload
    have hagain : ((w.forget n.cache (e.timeline.key .domain)).viewed n.cache
        e.timeline.stream).loaded n.cache (routes.lift : Routes (StateM World) S)
          found.timeline.stream = .ok found := by
      rw [loaded_lift, hstream, loaded, view_viewed]
      exact hload
    refine hviewed.trans (retells_resolve hresolves hviewed.tells hroutes
      (hcforgot.viewed n.cache _) (hloaded.viewed n.cache _) (hviewed.wall ▸ hwall) hagain ?_)
    rw [log_viewed, log_forget, Timeline.key, hstream]
    exact hversion

/-- A commit of an entity that tells what the log tells keeps the log telling the same twice. -/
theorem Committed.retells {r : Except CommitError CommitOutcome}
    (hs : Committed n opened routes.lift e commitId headers w (r, e') w')
    (h : w.log.Tells routes) (hroutes : routes.MergesAsHandled) (hr : routes.RecordsFaithfully)
    (hc : w.Consistent) (hwall : w.wall.Legible) (he : e.timeline.Rooted w.log)
    (ht : e.Tells routes w.log) (hunstaged : e.timeline.pendingSnapshot = none) :
    w.Retells routes n.cache w' := by
  cases hs with
  | clean => exact .refl h
  | unrecorded => exact .refl h
  | held => exact .refl h
  | @written e₁ v _ hdirty hstaged hwrote =>
    have hrooted := he.continues (continues_staged hstaged).1
    obtain ⟨htells, hstages⟩ := Entity.tells_staged ht hunstaged hwall hstaged
    cases hwrote with
    | @stored i log hversion hstored =>
      have hlog := Retells.stored (c := n.cache) h hc i hstored hrooted htells hstages hversion
      exact hlog.trans (.remember hlog.tells _ _)
  | conflict _ _ _ _ hresolve => exact retells_resolveConflict hresolve h hroutes hr hc hwall

theorem retells_handleStaged {stream : StreamRef} {r : Except ResolveError Resolution}
    (hs : Runs ((n.weak (site opened)).handleStaged routes.lift stream) w r w')
    (h : w.log.Tells routes) (hroutes : routes.MergesAsHandled) (hr : routes.RecordsFaithfully)
    (hc : w.Consistent) (hwall : w.wall.Legible)
    (hview : w.view n.cache stream = w.log.timeline stream) : w.Retells routes n.cache w' := by
  have hviewed := Retells.viewed (c := n.cache) h stream
  rcases runs_handleStaged hs with ⟨err, -, -, hscheduled⟩ |
    ⟨e, i, commitId, e', hfound, hresolve⟩
  · exact hviewed.trans (retells_scheduled hviewed.tells hscheduled)
  · obtain ⟨hloaded, -, -⟩ := loaded_of_view h hc hr hview hfound
    have hissued := hviewed.trans (.idle hviewed.tells (.issued _ i) rfl)
    have hcviewed := hc.viewed n.cache stream
    have heviewed := hloaded.viewed n.cache stream
    exact hissued.trans (retells_resolveStaged hresolve hissued.tells hroutes
      (hcviewed.idle (.issued _ i)) (heviewed.idle hcviewed (.issued _ i)) (hissued.wall ▸ hwall)
      fun hne => absurd rfl hne)

end World

end Chronicle
