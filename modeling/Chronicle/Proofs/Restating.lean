import Chronicle.Proofs.Freezing
import Chronicle.Proofs.TornWrites

/-!
# What a merge records, event by event

A merge records the kept domain events of its batch in their order, with the name of the strategy
among their headers, and the out-of-band events as they are. Two merges of one batch into one entity
keep the same events and stage the same snapshot, whatever the time and the identifiers; so a merge
that fails for its batch fails wherever it is tried. What is recorded is stored under the keys of
the stream, and nothing else is stored.
-/

namespace Chronicle

variable {S : Type}

namespace Event

/-- The kind, the payload and the headers of an event, which do not depend on where and when it is
stored. -/
def body (e : Event) : String × Json × Headers := (e.kind, e.payload, e.headers)

/-- The body of an event that was recorded again by a strategy. -/
def restated (strategy : String) (e : Event) : String × Json × Headers :=
  (e.kind, e.payload, Entity.mergedHeaders e strategy)

theorem headers_insert_channel {e : Event} {channel : String} (h : e.channel? = some channel) :
    e.headers.insert Headers.oob channel = e.headers := by
  refine Std.ExtTreeMap.ext_getElem? fun k => ?_
  rw [Std.ExtTreeMap.getElem?_insert]
  split
  · rename_i hk
    rw [← Std.LawfulEqCmp.eq_of_compare hk]
    exact h.symm
  · rfl

end Event

/-- The events of a list that name a channel. -/
def onChannel (channel : String) (events : List Event) : List Event :=
  events.filter fun e => e.channel? == some channel

@[simp] theorem onChannel_nil (channel : String) : onChannel channel [] = [] := rfl

theorem onChannel_append (channel : String) (xs ys : List Event) :
    onChannel channel (xs ++ ys) = onChannel channel xs ++ onChannel channel ys :=
  List.filter_append ..

theorem map_body_onChannel (channel : String) {xs ys zs : List Event}
    (h : xs.map Event.body = ys.map Event.body ++ zs.map Event.body) :
    (onChannel channel xs).map Event.body =
      (onChannel channel ys).map Event.body ++ (onChannel channel zs).map Event.body := by
  have hfilter : ∀ events : List Event, (onChannel channel events).map Event.body =
      (events.map Event.body).filter fun body => body.2.2[Headers.oob]? == some channel := by
    intro events
    rw [List.filter_map]
    rfl
  rw [hfilter, hfilter, hfilter, h, List.filter_append]

namespace EventLog

@[simp] theorem map_body_stamped (version : Int) (time : Moment) (commitHeaders : Headers)
    (ids : List Uuid) (events : List Event) :
    (stamped version time commitHeaders ids events).map Event.body = events.map Event.body := by
  induction events generalizing version ids with
  | nil => rfl
  | cons e rest ih => simp [stamped, ih, Event.body]

/-- The events of some batches that stand under a key. -/
def under (key : String) (batches : List (String × List Event)) : List Event :=
  (batches.filter fun batch => batch.1 = key).flatMap Prod.snd

@[simp] theorem under_nil (key : String) : under key [] = [] := rfl

theorem under_cons (key : String) (batch : String × List Event)
    (batches : List (String × List Event)) :
    under key (batch :: batches) =
      (if batch.1 = key then batch.2 else []) ++ under key batches := by
  by_cases h : batch.1 = key <;> simp [under, h]

theorem under_append (key : String) (xs ys : List (String × List Event)) :
    under key (xs ++ ys) = under key xs ++ under key ys := by
  simp only [under, List.filter_append, List.flatMap_append]

theorem under_eq_nil {key : String} {batches : List (String × List Event)}
    (h : ∀ batch ∈ batches, batch.1 ≠ key) : under key batches = [] := by
  rw [under, List.filter_eq_nil_iff.2 fun batch hbatch => by simpa using h batch hbatch]
  rfl

theorem Appends.map_body {log log' : EventLog} {batches : List (String × List Event)}
    (h : log.Appends batches log') (key : String) :
    (log'.events key).map Event.body =
      (log.events key).map Event.body ++ (under key batches).map Event.body := by
  induction h with
  | none => simp
  | @more log log' other events headers ids time rest hrest ih =>
    rw [ih, under_cons, List.map_append, ← List.append_assoc]
    congr 1
    by_cases hk : other = key
    · rw [if_pos hk, ← hk, events_append_self, List.map_append, map_body_stamped]
    · rw [if_neg hk, events_append_of_ne log (Ne.symm hk)]
      simp

end EventLog

namespace StreamRef

theorem channelKey_injective (r : StreamRef) {channel channel' : String}
    (h : r.channelKey channel = r.channelKey channel') : channel = channel' := by
  simpa only [channelKey, streamKey, String.append_assoc, String.append_right_inj] using h

/-- The key is one of those under which something may be stored for the stream. -/
def Owns (r : StreamRef) (key : String) : Prop :=
  key = r.key .domain ∨ key = r.key .snapshot ∨ ∃ channel, key = r.channelKey channel

end StreamRef

def Snapshot.record (s : Snapshot) : String × Json × Headers :=
  (CachedStore.snapshotKind, s.toJson, ∅)

/-- `log'` holds what `log` held and behind it, under the keys of the stream, what is pending in a
timeline. -/
structure EventLog.Extended (log log' : EventLog) (t : Timeline) : Prop where
  domain : ∃ time headers ids, log'.events (t.key .domain) = log.events (t.key .domain) ++
    EventLog.stamped (log.version (t.key .domain)) time headers ids t.pending
  channels : ∀ channel, (log'.events (t.stream.channelKey channel)).map Event.body =
    (log.events (t.stream.channelKey channel)).map Event.body ++
      (onChannel channel t.pendingOobs).map Event.body
  snapshots : (log'.events (t.key .snapshot)).map Event.body =
    (log.events (t.key .snapshot)).map Event.body ++ t.pendingSnapshot.toList.map Snapshot.record
  elsewhere : ∀ key, ¬ t.stream.Owns key → log'.events key = log.events key

namespace Timeline

variable {t : Timeline}

theorem oobBatches_cons (t : Timeline) (c : Channel) (cs : List Channel) :
    ({ t with channels := c :: cs } : Timeline).oobBatches =
      (if t.oobsOf c.id = [] then [] else [(t.stream.channelKey c.id, t.oobsOf c.id)]) ++
        ({ t with channels := cs } : Timeline).oobBatches := by
  rw [oobBatches, List.filterMap_cons]
  cases ho : t.oobsOf c.id with
  | nil =>
    have ho' : ({ t with channels := c :: cs } : Timeline).oobsOf c.id = [] := ho
    rw [ho', if_pos rfl]
    rfl
  | cons e es =>
    have ho' : ({ t with channels := c :: cs } : Timeline).oobsOf c.id = e :: es := ho
    rw [ho', if_neg (List.cons_ne_nil e es)]
    rfl

theorem under_oobBatches (t : Timeline) (channel : String) {cs : List Channel}
    (hn : (cs.map Channel.id).Nodup) :
    EventLog.under (t.stream.channelKey channel) ({ t with channels := cs } : Timeline).oobBatches =
      if channel ∈ cs.map Channel.id then t.oobsOf channel else [] := by
  induction cs with
  | nil => rfl
  | cons c cs ih =>
    rw [List.map_cons, List.nodup_cons] at hn
    have hkey : t.stream.channelKey c.id = t.stream.channelKey channel ↔ c.id = channel :=
      ⟨t.stream.channelKey_injective, fun hc => hc ▸ rfl⟩
    have hfirst : EventLog.under (t.stream.channelKey channel)
        (if t.oobsOf c.id = [] then [] else [(t.stream.channelKey c.id, t.oobsOf c.id)]) =
          if c.id = channel then t.oobsOf c.id else [] := by
      by_cases ho : t.oobsOf c.id = []
      · simp [ho]
      · simp [ho, EventLog.under_cons, hkey]
    rw [oobBatches_cons, EventLog.under_append, hfirst, ih hn.2]
    by_cases hc : c.id = channel
    · subst hc
      rw [if_pos rfl, if_neg hn.1, if_pos (by simp), List.append_nil]
    · simp [hc, Ne.symm hc]

/-- The events on a channel are stored under the key of the channel. -/
theorem Sound.under_oobBatches (h : t.Sound) (channel : String) :
    EventLog.under (t.stream.channelKey channel) t.oobBatches =
      onChannel channel t.pendingOobs := by
  refine (Timeline.under_oobBatches t channel h.channels).trans ?_
  split
  · rfl
  · rename_i hmem
    refine (List.filter_eq_nil_iff.2 fun e he => ?_).symm
    obtain ⟨-, c, hc, hchannel⟩ := h.oobs e he
    have hne : c.id ≠ channel := fun heq => hmem (heq ▸ List.mem_map_of_mem hc)
    simp [hchannel, hne]

theorem under_recordPart (recordId : Uuid) (key : String) :
    EventLog.under key (t.recordPart recordId) =
      if t.key .snapshot = key then
        t.pendingSnapshot.toList.map fun s => CachedStore.snapshotRecord t s recordId
      else [] := by
  cases hs : t.pendingSnapshot with
  | none => simp [recordPart, hs]
  | some s => simp [recordPart, hs, EventLog.under_cons]

theorem under_domainPart (key : String) :
    EventLog.under key t.domainPart = if t.key .domain = key then t.pending else [] := by
  cases hp : t.pending with
  | nil => simp [domainPart, hp]
  | cons e es => simp [domainPart, hp, EventLog.under_cons]

theorem under_parts_domain (recordId : Uuid) :
    EventLog.under (t.key .domain) (t.parts recordId) = t.pending := by
  rw [parts, EventLog.under_append, under_domainPart, if_pos rfl,
    EventLog.under_eq_nil key_ne_of_mem_rest, List.append_nil]

theorem Sound.under_parts_channelKey (h : t.Sound) (recordId : Uuid) (channel : String) :
    EventLog.under (t.stream.channelKey channel) (t.parts recordId) =
      onChannel channel t.pendingOobs := by
  have hdomain : t.key .domain ≠ t.stream.channelKey channel :=
    StreamRef.key_ne_channelKey _ _ (by decide) _
  have hsnapshot : t.key .snapshot ≠ t.stream.channelKey channel :=
    StreamRef.key_ne_channelKey _ _ (by decide) _
  rw [parts, EventLog.under_append, EventLog.under_append, under_domainPart, under_recordPart,
    if_neg hdomain, if_neg hsnapshot, h.under_oobBatches, List.nil_append, List.append_nil]

theorem under_parts_snapshot (recordId : Uuid) :
    EventLog.under (t.key .snapshot) (t.parts recordId) =
      t.pendingSnapshot.toList.map fun s => CachedStore.snapshotRecord t s recordId := by
  have hdomain : t.key .domain ≠ t.key .snapshot := StreamRef.key_ne_key _ _ (by decide)
  have hoobs : EventLog.under (t.key .snapshot) t.oobBatches = [] := by
    refine EventLog.under_eq_nil fun batch hbatch => ?_
    obtain ⟨-, channel, hchannel⟩ := mem_oobBatches hbatch
    rw [hchannel]
    exact (StreamRef.key_ne_channelKey _ _ (by decide) _).symm
  rw [parts, EventLog.under_append, EventLog.under_append, under_domainPart, under_recordPart,
    if_neg hdomain, if_pos rfl, hoobs, List.nil_append, List.nil_append]

theorem owns_of_mem_parts {recordId : Uuid} :
    ∀ batch ∈ t.parts recordId, t.stream.Owns batch.1 := by
  intro batch hbatch
  rcases List.mem_append.1 hbatch with hdomain | hrest
  · cases hp : t.pending with
    | nil => simp [domainPart, hp] at hdomain
    | cons e es =>
      simp only [domainPart, hp, List.mem_singleton] at hdomain
      rw [hdomain]
      exact .inl rfl
  · rcases List.mem_append.1 hrest with hoobs | hrecord
    · obtain ⟨-, channel, hchannel⟩ := mem_oobBatches hoobs
      exact .inr (.inr ⟨channel, hchannel⟩)
    · cases hs : t.pendingSnapshot with
      | none => simp [recordPart, hs] at hrecord
      | some s =>
        simp only [recordPart, hs, List.mem_singleton] at hrecord
        rw [hrecord]
        exact .inr (.inl rfl)

end Timeline

namespace EventLog

variable {log log' : EventLog} {t : Timeline} {recordId : Uuid}

theorem Appends.elsewhere (h : log.Appends (t.parts recordId) log') {key : String}
    (howns : ¬ t.stream.Owns key) : log'.events key = log.events key :=
  h.frame fun batch hbatch heq => howns (heq ▸ Timeline.owns_of_mem_parts batch hbatch)

/-- A log to which the parts of a timeline were appended is extended by what is pending. -/
theorem Appends.extended (h : log.Appends (t.parts recordId) log') (ht : t.Sound)
    (hdomain : ∃ time headers ids, log'.events (t.key .domain) = log.events (t.key .domain) ++
      stamped (log.version (t.key .domain)) time headers ids t.pending) :
    log.Extended log' t where
  domain := hdomain
  channels channel := by rw [h.map_body, ht.under_parts_channelKey]
  snapshots := by
    rw [h.map_body, Timeline.under_parts_snapshot, List.map_map]
    rfl
  elsewhere _ := h.elsewhere

namespace Extended

theorem of_clean (hclean : t.dirty = false) (hsame : ∀ key, log'.events key = log.events key) :
    log.Extended log' t := by
  obtain ⟨hpending, hoobs, hsnapshot⟩ := Timeline.dirty_eq_false.1 hclean
  refine ⟨⟨.epoch, ∅, [], ?_⟩, fun channel => ?_, ?_, fun key _ => hsame key⟩
  · rw [hsame, hpending, stamped, List.append_nil]
  · rw [hsame, hoobs, onChannel_nil, List.map_nil, List.append_nil]
  · rw [hsame, hsnapshot, Option.toList_none, List.map_nil, List.append_nil]

theorem congr {first last : EventLog} (h : log.Extended log' t)
    (hfirst : ∀ key, log.events key = first.events key)
    (hlast : ∀ key, last.events key = log'.events key) : first.Extended last t where
  domain := by
    obtain ⟨time, headers, ids, hdomain⟩ := h.domain
    exact ⟨time, headers, ids, by rw [hlast, hdomain, hfirst, version, hfirst, ← version]⟩
  channels channel := by rw [hlast, h.channels, hfirst]
  snapshots := by rw [hlast, h.snapshots, hfirst]
  elsewhere key howns := by rw [hlast, h.elsewhere key howns, hfirst]

theorem map_body_domain (h : log.Extended log' t) :
    (log'.events (t.key .domain)).map Event.body =
      (log.events (t.key .domain)).map Event.body ++ t.pending.map Event.body := by
  obtain ⟨time, headers, ids, hdomain⟩ := h.domain
  rw [hdomain, List.map_append, map_body_stamped]

theorem version (h : log.Extended log' t) :
    log'.version (t.key .domain) = log.version (t.key .domain) + t.pending.length := by
  obtain ⟨time, headers, ids, hdomain⟩ := h.domain
  by_cases hp : t.pending = []
  · rw [hp, stamped, List.append_nil] at hdomain
    rw [version_congr hdomain]
    simp [hp]
  · have hne : stamped (log.version (t.key .domain)) time headers ids t.pending ≠ [] := by
      rw [← List.length_pos_iff, length_stamped]
      exact List.length_pos_iff.2 hp
    have hlast := List.getLast?_eq_some_getLast hne
    rw [EventLog.version, hdomain, List.getLast?_append, hlast]
    exact version_of_getLast?_stamped hlast

end Extended

end EventLog

/-- The kept domain events of a batch were recorded again by a strategy, and the out-of-band events
as they are. -/
structure Entity.Restates (strategy : String) (e d : Entity S) (events kept : List Event) :
    Prop where
  pending : d.timeline.pending.map Event.body =
    e.timeline.pending.map Event.body ++ kept.map (Event.restated strategy)
  oobs : d.timeline.pendingOobs.map Event.body =
    e.timeline.pendingOobs.map Event.body ++ (raised events).map Event.body

namespace Entity.Restates

variable {strategy : String} {e d d' : Entity S} {event : Event} {rest kept kept' : List Event}

theorem refl (strategy : String) (e : Entity S) : e.Restates strategy e [] [] :=
  ⟨(List.append_nil _).symm, (List.append_nil _).symm⟩

theorem cons (h : e.Restates strategy d [event] kept) (h' : d.Restates strategy d' rest kept') :
    e.Restates strategy d' (event :: rest) (kept ++ kept') where
  pending := by rw [h'.pending, h.pending, List.map_append, List.append_assoc]
  oobs := by
    rw [h'.oobs, h.oobs, List.append_assoc, ← List.map_append, raised, raised, raised,
      ← List.filter_append]
    rfl

theorem record (e : Entity S) (s : S) (conflicts : Nat) (stamp : Stamp) (strategy : String)
    (hlane : event.lane = .domain) :
    e.Restates strategy ({ e with state := s, conflicts }.record stamp event strategy) [event]
      [event] where
  pending := by
    rw [Entity.record, Timeline.pending_add, List.map_append]
    rfl
  oobs := by simp [Entity.record, Timeline.add, raised, hlane]

theorem decline (e : Entity S) (s : S) (conflicts : Nat) (strategy : String)
    (hlane : event.lane = .domain) :
    e.Restates strategy { e with state := s, conflicts } [event] [] :=
  ⟨by simp, by simp [raised, hlane]⟩

/-- An out-of-band event names its channel already, so that its headers stay the same. -/
theorem reraise (e : Entity S) (stamp : Stamp) (strategy : String) (hlane : event.lane = .oob) :
    e.Restates strategy (e.reraise stamp event).2 [event] [] := by
  cases hc : event.channel? with
  | none =>
    have he : (e.reraise stamp event).2 = e := by simp [Entity.reraise, hc]
    rw [he]
    exact ⟨by simp, by simp [raised, hc]⟩
  | some channel =>
    have he : (e.reraise stamp event).2.timeline =
        e.timeline.addOob stamp event.kind event.payload channel event.headers := by
      simp [Entity.reraise, hc]
    refine ⟨by simp [he], ?_⟩
    rw [he, Timeline.addOob, List.map_append]
    simp [Timeline.draft, Event.body, Event.headers_insert_channel hc, raised, hlane, hc]

theorem skip (e : Entity S) (strategy : String) (ho : event.lane ≠ .oob) :
    e.Restates strategy e [event] [] :=
  ⟨by simp, by simp [raised, ho]⟩

end Entity.Restates

section Steps

variable {σ α : Type} {observe : σ → α} {draw : StateM σ Stamp} {routes : Routes Id S}
  {event : Event} {events : List Event} {e d : Entity S} {w w' : σ} {strategy : ConflictStrategy}
  {n : Nat}

theorem restates_of_replayEvent
    (h : Resolves (replayEvent routes.lift draw strategy event) e w (.ok n) d w') :
    ∃ kept dropped, routes.Replays e.state [event] d.state kept dropped ∧
      e.Restates strategy.name d [event] kept := by
  unfold replayEvent at h
  cases hlane : event.lane with
  | domain =>
    simp only [hlane, resolves_entity_bind, resolves_ask_bind, resolves_setEntity_bind] at h
    obtain ⟨⟨outcome, d₁⟩, w₁, hc, h⟩ := h
    -- What is drawn does not matter here, so that nothing has to be observed of it.
    have hdraw : ∀ w stamp w', Runs draw w stamp w' → (fun _ : σ => ()) w' = () :=
      fun _ _ _ _ => rfl
    obtain ⟨-, s, conflicts, hroute, hok, herror⟩ := Entity.runs_conflict hdraw hc
    cases outcome with
    | ok u =>
      obtain ⟨stamp, rfl⟩ := hok rfl
      obtain ⟨-, rfl, rfl⟩ := resolves_pure.1 h
      exact ⟨[event], [], .merged hlane hroute (.nil s), .record e s conflicts stamp _ hlane⟩
    | error err =>
      have he := herror err rfl
      by_cases hd : err = .signal .discard
      · subst hd
        obtain ⟨-, rfl, rfl⟩ := resolves_pure.1 h
        rw [he]
        exact ⟨[], [event], .declined hlane hroute (.nil s), .decline e s conflicts _ hlane⟩
      · have hnone :
            (.ok n : Except ResolveError Nat) = .error (.ofConflict routes.entity err) := by
          cases err with
          | route error => exact (resolves_throw.1 h).1
          | signal signal =>
            cases signal with
            | discard => exact absurd rfl hd
            | abandon reason => exact (resolves_throw.1 h).1
        cases hnone
  | oob =>
    simp only [hlane, resolves_entity_bind, resolves_ask_bind, resolves_setEntity_bind,
      resolves_pure] at h
    obtain ⟨stamp, w₁, hstamp, -, rfl, rfl⟩ := h
    have hstate : (e.reraise stamp event).2.state = e.state := by
      unfold Entity.reraise
      split <;> rfl
    refine ⟨[], [], ?_, .reraise e stamp _ hlane⟩
    rw [hstate]
    exact .passed (by simp [hlane]) (.nil _)
  | delayed | snapshot | plain =>
    rw [hlane] at h
    obtain ⟨-, rfl, rfl⟩ := resolves_pure.1 h
    exact ⟨[], [], .passed (by simp [hlane]) (.nil _), .skip _ _ (by simp [hlane])⟩

theorem restates_of_replay
    (h : Resolves (replay routes.lift draw strategy events) e w (.ok n) d w') :
    ∃ kept dropped, routes.Replays e.state events d.state kept dropped ∧
      e.Restates strategy.name d events kept := by
  induction events generalizing e w n with
  | nil =>
    obtain ⟨-, rfl, rfl⟩ := resolves_pure.1 h
    exact ⟨[], [], .nil _, .refl ..⟩
  | cons event rest ih =>
    rw [replay, resolves_bind] at h
    rcases h with ⟨err, -, hr⟩ | ⟨a, d₁, w₁, hfirst, h⟩
    · cases hr
    · rw [resolves_bind] at h
      rcases h with ⟨err, -, hr⟩ | ⟨b, d₂, w₂, hrest, h⟩
      · cases hr
      · obtain ⟨-, rfl, rfl⟩ := resolves_pure.1 h
        obtain ⟨kept, dropped, hhead, hrestates⟩ := restates_of_replayEvent hfirst
        obtain ⟨kept', dropped', htail, hrestates'⟩ := ih hrest
        exact ⟨_, _, hhead.append htail, hrestates.cons hrestates'⟩

end Steps

/-- The version and the record of the state, which do not depend on when the snapshot was taken. -/
def Snapshot.content (s : Snapshot) : Int × Json := (s.version, s.memento)

namespace Entity

variable {routes : Routes Id S} {e d d' : Entity S}
  {events kept kept' dropped dropped' : List Event} {drawn drawn' : Moment → Prop}
  {time : Moment}

theorem Takes.nextVersion_eq (hsound : e.timeline.Sound) (h : e.Takes d events kept)
    (h' : e.Takes d' events kept) :
    d.timeline.pending.length = d'.timeline.pending.length ∧
      d.timeline.nextVersion = d'.timeline.nextVersion := by
  have hlength : d.timeline.pending.length = d'.timeline.pending.length := by
    simpa using congrArg List.length (h.pending.trans h'.pending.symm)
  refine ⟨hlength, ?_⟩
  rw [(h.continues.sound hsound).next, (h'.continues.sound hsound).next, h.continues.version,
    h'.continues.version, hlength]

theorem Takes.shouldTakeSnapshot_eq (hsound : e.timeline.Sound) (h : e.Takes d events kept)
    (h' : e.Takes d' events kept) :
    d.shouldTakeSnapshot routes = d'.shouldTakeSnapshot routes := by
  obtain ⟨hlength, hnext⟩ := h.nextVersion_eq hsound h'
  have hempty : d.timeline.pending.isEmpty = d'.timeline.pending.isEmpty := by
    rw [Bool.eq_iff_iff, List.isEmpty_iff_length_eq_zero, List.isEmpty_iff_length_eq_zero, hlength]
  simp only [shouldTakeSnapshot, Timeline.sinceSnapshot, h.continues.snapshot,
    h'.continues.snapshot, hnext, hempty]

/-- If a snapshot can be staged after a batch was taken in, it can be at any other time, and
records the same. -/
theorem Takes.exists_staged (hsound : e.timeline.Sound) (h : e.Takes d events kept)
    (h' : e.Takes d' events kept) (hstate : d.state = d'.state) {m : Entity S}
    (hstaged : d.staged routes time = .ok m) (time' : Moment) :
    ∃ m', d'.staged routes time' = .ok m' ∧
      m.timeline.pendingSnapshot.map Snapshot.content =
        m'.timeline.pendingSnapshot.map Snapshot.content := by
  have hdue : d.shouldTakeSnapshot routes = d'.shouldTakeSnapshot routes :=
    h.shouldTakeSnapshot_eq hsound h'
  rcases staged_eq_ok hstaged with ⟨hnot, rfl⟩ | ⟨hdue', snapshots, memento, hsome, hencode, rfl⟩
  · refine ⟨d', ?_, by rw [h.unstaged, h'.unstaged]⟩
    rw [staged, ← hdue, hnot]
    rfl
  · refine ⟨{ d' with timeline := d'.timeline.addSnapshot time' memento }, ?_, ?_⟩
    · rw [hstate] at hencode
      simp [staged, ← hdue, hdue', takeSnapshot, Routes.encodeSnapshot, hsome, hencode, Except.map]
    · simp [Timeline.addSnapshot, Snapshot.content, (h.nextVersion_eq hsound h').2]

/-- Two merges of one batch into one entity keep the same events, lead to the same state and stage
the same snapshot. -/
theorem Merges.agree (hsound : e.timeline.Sound)
    (h : e.Merges routes drawn events d kept dropped)
    (h' : e.Merges routes drawn' events d' kept' dropped') :
    kept = kept' ∧ d.state = d'.state ∧
      d.timeline.pendingSnapshot.map Snapshot.content =
        d'.timeline.pendingSnapshot.map Snapshot.content := by
  obtain ⟨hstate, rfl, -⟩ := h.replays.unique h'.replays
  refine ⟨rfl, hstate, ?_⟩
  obtain @⟨taken, _, _, _, _, hreplays, htakes, -, hstaged⟩ := h
  obtain @⟨taken', _, time', _, _, hreplays', htakes', -, hstaged'⟩ := h'
  have hsame := (hreplays.unique hreplays').1
  obtain ⟨m, hm, hcontent⟩ := htakes.exists_staged hsound htakes' hsame hstaged time'
  cases hm.symm.trans hstaged'
  exact hcontent

end Entity

section Courses

variable {σ α : Type} {observe : σ → α} {store : StreamStore (StateM σ)}
  {supply : Surroundings (StateM σ)} {routes : Routes Id S} {events : List Event}
  {commitId : Uuid} {headers : Headers} {strategy : ConflictStrategy} {e d : Entity S} {w w' : σ}

/-- What is left of a merge once the batch was replayed and a snapshot staged if one is due: what is
pending is stored, if anything is. -/
inductive Entity.Settles (store : StreamStore (StateM σ)) (commitId : Uuid) (headers : Headers)
    (m : Entity S) (w : σ) : Except ResolveError Resolution → Entity S → σ → Prop where
  | nothing (hclean : m.timeline.dirty = false) :
      Settles store commitId headers m w (.ok .discarded) m w
  | refused {cause : StoreError} {w' : σ}
      (hwrite : Runs (store.write commitId m.timeline headers) w (.error cause) w') :
      Settles store commitId headers m w (.error (.ofStore cause)) m w'
  | stored {v : Int} {w' : σ} (hdirty : m.timeline.dirty = true)
      (hwrite : Runs (store.write commitId m.timeline headers) w (.ok v) w') :
      Settles store commitId headers m w (.ok .committed) m.settle w'

theorem settles_of_write {m : Entity S} {r : Except ResolveError Resolution}
    (h : Resolves (do
      let e ← Resolving.entity
      if e.timeline.dirty then
        discard (Resolving.store (store.write commitId e.timeline headers))
        Resolving.setEntity e.settle
        pure .committed
      else pure .discarded) m w r d w') : m.Settles store commitId headers w r d w' := by
  rw [resolves_entity_bind] at h
  split at h
  · rename_i hdirty
    rw [resolves_discard_store_bind] at h
    rcases h with ⟨cause, hwrite, rfl, rfl⟩ | ⟨v, w₂, hwrite, h⟩
    · exact .refused hwrite
    · rw [resolves_setEntity_bind, resolves_pure] at h
      obtain ⟨rfl, rfl, rfl⟩ := h
      exact .stored hdirty hwrite
  · rename_i hdirty
    obtain ⟨rfl, rfl, rfl⟩ := resolves_pure.1 h
    exact .nothing (by simpa using hdirty)

/-- A batch that cannot be merged into an entity now cannot be at any time. Another one is recorded
event by event, and what is pending is stored. -/
theorem restates_of_mergeAndWrite {r : Except ResolveError Resolution}
    (hsupply : supply.Unobserved observe) (hsound : e.timeline.Sound)
    (h : Resolves (mergeAndWrite store supply routes.lift events commitId headers strategy) e w
      r d w') :
    ((∃ err, r = .error err) ∧ observe w' = observe w ∧ e.timeline.Continues d.timeline ∧
      ∀ drawn m kept dropped, ¬ e.Merges routes drawn events m kept dropped) ∨
    ∃ m kept dropped w₁, e.Merges routes (supply.Shows observe w) events m kept dropped ∧
      e.Restates strategy.name m events kept ∧ observe w₁ = observe w ∧
      m.Settles store commitId headers w₁ r d w' := by
  rw [mergeAndWrite, resolves_discard_bind] at h
  rcases h with ⟨err, hreplay, rfl⟩ | ⟨count, taken, w₁, hreplay, h⟩
  · obtain ⟨hsame, hended⟩ := resolves_replay hsupply.stamp hreplay
    cases hended with
    | stopped hfinal hcontinues hnever =>
      exact .inl ⟨⟨err, rfl⟩, hsame, hcontinues, fun _ m kept dropped hmerges =>
        hnever m.state kept dropped hmerges.replays⟩
  obtain ⟨hsame, hended⟩ := resolves_replay hsupply.stamp hreplay
  cases hended with
  | @taken n _ kept dropped hreplays htakes =>
    -- Both accounts of the replay name the kept events; a batch leads to one place only.
    obtain ⟨kept', dropped', hreplays', hrestates⟩ := restates_of_replay hreplay
    obtain ⟨-, rfl, rfl⟩ := hreplays.unique hreplays'
    rw [resolves_entity_bind] at h
    split at h
    · rename_i hdue
      rw [resolves_ask_bind] at h
      obtain ⟨time, w₂, hnow, h⟩ := h
      have hsame' := (hsupply.now _ _ _ hnow).trans hsame
      have hlift := Entity.staged_lift (m := StateM σ) taken routes time
      rw [Entity.staged, if_pos hdue] at hlift
      cases hsnap : taken.takeSnapshot (routes.lift : Routes (StateM σ) S) time with
      | error err =>
        simp only [hsnap, resolves_bind, resolves_throw] at h
        rcases h with ⟨_, ⟨hthrown, rfl, rfl⟩, rfl⟩ | ⟨_, _, _, ⟨hthrown, -⟩, -⟩
        · refine .inl ⟨⟨_, rfl⟩, hsame', htakes.continues, ?_⟩
          -- Whether a state can be recorded does not depend on the time.
          rintro drawn m kept' dropped' @⟨taken', _, time', _, _, hreplays', htakes', -, hstaged⟩
          obtain ⟨hstate, rfl, -⟩ := hreplays'.unique hreplays
          obtain ⟨m', hm', -⟩ :=
            htakes'.exists_staged hsound htakes hstate hstaged time
          cases (hsnap.symm.trans hlift).trans hm'
        · cases hthrown
      | ok m =>
        simp only [hsnap, resolves_setEntity_bind] at h
        have hstaged : taken.staged routes time = .ok m := hlift.symm.trans hsnap
        refine .inr ⟨m, kept, dropped, w₂, .intro hreplays htakes
          (fun _ => ⟨w₁, w₂, hsame, hnow⟩) hstaged, ?_, hsame', settles_of_write h⟩
        rcases Entity.staged_eq_ok hstaged with ⟨-, rfl⟩ | ⟨-, _, memento, -, -, rfl⟩ <;>
          exact ⟨hrestates.pending, hrestates.oobs⟩
    · rename_i hdue
      have hstaged : taken.staged routes .epoch = .ok taken := if_neg hdue
      exact .inr ⟨taken, kept, dropped, w₁, .intro hreplays htakes
        (fun hdue' => absurd hdue' hdue) hstaged, hrestates, hsame, settles_of_write h⟩

end Courses

namespace World

variable {n : Node} {opened : Moment} {routes : Routes Id S} {events : List Event}
  {commitId : Uuid} {headers : Headers} {strategy : ConflictStrategy} {e d : Entity S}
  {w w' : World} {r : Except ResolveError Resolution}

theorem fallible_cached (n : Node) (opened : Moment) :
    (n.cached (site opened)).Fallible World.log where
  events := EventLog.fallible_store logs_cell _
  supply := unobserved_surroundings.comp World.log
  cache := by
    intro f a u b h
    rw [runs_cache_modify.1 h]

/-- A write that is granted stores what is pending, and nothing else. -/
theorem extended_of_write {t : Timeline} {v : Int} (ht : t.Sound)
    (h : Runs ((n.store (site opened)).write commitId t headers) w (.ok v) w') :
    w.log.Extended w'.log t := by
  change Runs ((n.cached (site opened)).write commitId t headers).run w (.ok v) w' at h
  rcases CachedStore.begun_of_write (fallible_cached n opened) h with ⟨⟨err, hr⟩, -⟩ | hbegun
  · cases hr
  · obtain ⟨recordId, stored, hfirst, hreached⟩ := hbegun.course
    cases hreached with
    | all happends => exact (hfirst.append happends).extended ht hbegun.domain

/-- How a merge ends into an entity that is up to date, of a stream that nobody else holds. -/
inductive Enacted (n : Node) (routes : Routes Id S) (strategy : String) (events : List Event)
    (e : Entity S) (w : World) : Except ResolveError Resolution → Entity S → World → Prop where
  | failed {err : ResolveError} {d : Entity S} {w' : World}
      (hnever : ∀ drawn m kept dropped, ¬ e.Merges routes drawn events m kept dropped)
      (hidle : w.Idle w') : Enacted n routes strategy events e w (.error err) d w'
  | discarded {m : Entity S} {kept dropped : List Event} {w' : World}
      (hmerges : e.Merges routes (· = w.wall) events m kept dropped)
      (hrestates : e.Restates strategy m events kept) (hclean : m.timeline.dirty = false)
      (hidle : w.Idle w') : Enacted n routes strategy events e w (.ok .discarded) m w'
  | committed {m : Entity S} {kept dropped : List Event} {w' : World}
      (hmerges : e.Merges routes (· = w.wall) events m kept dropped)
      (hrestates : e.Restates strategy m events kept)
      (hextended : w.log.Extended w'.log m.timeline)
      (hcaches : w'.caches = (w.remember n.cache (m.timeline.key .domain) m.timeline.settle).caches)
      (hareas : w'.areas = w.areas) :
      Enacted n routes strategy events e w (.ok .committed) m.settle w'

private theorem Enacted.annotated {strategy : String} {data data'}
    (h : Enacted n routes strategy events e (w.annotated data) r d w') :
    Enacted n routes strategy events e w r d (w'.annotated data') := by
  have hbefore := Idle.annotated w data
  have hafter := Idle.annotated w' data'
  cases h with
  | failed hnever hidle => exact .failed hnever ((hbefore.trans hidle).trans hafter)
  | discarded hmerges hrestates hclean hidle =>
    exact .discarded hmerges hrestates hclean ((hbefore.trans hidle).trans hafter)
  | committed hmerges hrestates hextended hcaches hareas =>
    refine .committed hmerges hrestates (hextended.congr ?_ ?_) hcaches hareas
    · exact EventLog.events_congr hbefore.streams
    · exact EventLog.events_congr hafter.streams

private theorem enacted_of_mergeAndWrite
    (howner : ∀ f, w.log.freeze? (e.timeline.key .domain) = some f → f.owner = n.owner)
    (hversion : w.log.version (e.timeline.key .domain) = e.timeline.version)
    (hsound : e.timeline.Sound)
    (h : Resolves (mergeAndWrite (n.store (site opened)) (surroundings cell) routes.lift events
      commitId headers strategy) e w r d w') :
    Enacted n routes strategy.name events e w r d w' ∧ w'.log.metadata = w.log.metadata ∧
      d.timeline.key .domain = e.timeline.key .domain := by
  have hkey : ∀ {m : Entity S}, e.timeline.Continues m.timeline →
      m.timeline.key .domain = e.timeline.key .domain := by
    intro m hcontinues
    rw [Timeline.key, Timeline.key, hcontinues.stream]
  rcases restates_of_mergeAndWrite unobserved_surroundings hsound h with
    ⟨⟨err, rfl⟩, hsame, hcontinues, hnever⟩ |
      ⟨m, kept, dropped, w₁, hmerges, hrestates, hsame, hsettles⟩
  · rw [eq_logged_of_unnumbered hsame]
    exact ⟨.failed hnever (.issued ..), rfl, hkey hcontinues⟩
  · obtain ⟨i, rfl⟩ : ∃ i, w₁ = w.logged i w.log := ⟨_, eq_logged_of_unnumbered hsame⟩
    have hmerges' := hmerges.mono fun _ => shows_surroundings
    have hcontinues := hmerges.continues
    cases hsettles with
    | nothing hclean =>
      exact ⟨.discarded hmerges' hrestates hclean (.issued ..), rfl, hkey hcontinues⟩
    | refused hwrite =>
      -- The stream is held by nobody else and the entity is at its version, so the store does not
      -- refuse what is pending.
      cases wrote_of_runs hwrite with
      | held hheld =>
        rw [holder_eq_none] at hheld
        · cases hheld
        · rw [hkey hcontinues]
          exact howner
      | conflict _ hconflict =>
        rw [hkey hcontinues, hcontinues.version] at hconflict
        exact absurd hversion hconflict
    | stored _ hwrite =>
      have hextended := extended_of_write (hcontinues.sound hsound) hwrite
      have hkept := hkey hcontinues
      cases wrote_of_runs hwrite with
      | stored _ hstored =>
        exact ⟨.committed hmerges' hrestates hextended rfl rfl, hstored.metadata, hkept⟩

/-- A merge into an entity that is up to date fails only if its batch cannot be merged into the
entity at all, and leaves nobody holding the stream where nobody held it. -/
theorem enacted_of_settleBatch {threshold : Nat}
    (hfree : w.log.freeze? (e.timeline.key .domain) = none)
    (hversion : w.log.version (e.timeline.key .domain) = e.timeline.version)
    (hsound : e.timeline.Sound)
    (h : Resolves (settleBatch (n.store (site opened)) (surroundings cell) routes.lift events
      commitId headers strategy threshold) e w r d w') :
    Enacted n routes strategy.name events e w r d w' ∧
      ∀ key, w'.log.freeze? key = w.log.freeze? key := by
  unfold settleBatch at h
  split at h
  · rw [resolves_entity_bind, resolves_store_bind] at h
    rcases h with ⟨err, hfreeze, -, -⟩ | ⟨⟨⟩, w₁, hfreeze, h⟩
    · cases (runs_freeze_of_none hfree hfreeze).1
    · rw [resolves_outcome_bind] at h
      obtain ⟨result, m, w₂, hmerge, h⟩ := h
      rw [resolves_entity_bind, resolves_outcome_bind] at h
      obtain ⟨released, m', w₃, hrelease, h⟩ := h
      obtain ⟨b, hunfreeze, rfl, rfl⟩ := resolves_store.1 hrelease
      obtain ⟨-, data, rfl, hclaimed⟩ := runs_freeze_of_none hfree hfreeze
      have howner : ∀ f, (w.annotated data).log.freeze? (e.timeline.key .domain) = some f →
          f.owner = n.owner := by
        intro f hf
        rw [hclaimed, if_pos rfl] at hf
        cases hf
        rfl
      obtain ⟨henacted, hmetadata, hkey⟩ := enacted_of_mergeAndWrite howner hversion hsound hmerge
      obtain ⟨rfl, data', rfl, hreleased⟩ := runs_unfreeze_of_owner (fun f hf => howner f (by
        rwa [hkey, EventLog.freeze?_congr hmetadata] at hf)) hunfreeze
      have hend : r = result ∧ d = m' ∧ w' = w₂.annotated data' := by
        cases result with
        | ok resolution => exact resolves_pure.1 h
        | error err => exact resolves_throw.1 h
      obtain ⟨rfl, rfl, rfl⟩ := hend
      refine ⟨henacted.annotated, fun key => ?_⟩
      rw [hreleased, hkey]
      split
      · rename_i hk
        rw [hk, hfree]
      · rename_i hk
        rw [EventLog.freeze?_congr hmetadata, hclaimed, if_neg hk]
  · obtain ⟨henacted, hmetadata, -⟩ :=
      enacted_of_mergeAndWrite (fun f hf => by rw [hfree] at hf; cases hf) hversion hsound h
    exact ⟨henacted, EventLog.freeze?_congr hmetadata⟩

end World

end Chronicle
