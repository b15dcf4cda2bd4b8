import Chronicle.Proofs.Bystanders

/-!
# What does not depend on fresh identifiers

Without the identifiers of events and commits, two runs that draw different ones leave the same.
Nothing that is computed of an event, a timeline or an entity depends on these names: timelines and
entities that are the same but for names stay so, whatever is done to both.
-/

namespace Chronicle

variable {S : Type}

@[simp] theorem Headers.erase_erase (h : Headers) (key : String) :
    (h.erase key).erase key = h.erase key := by
  refine Std.ExtTreeMap.ext_getElem? fun k => ?_
  simp only [Std.ExtTreeMap.getElem?_erase]
  split <;> rfl

theorem Headers.erase_insert (h : Headers) (key value value' : String) :
    (h.insert key value).erase key = (h.insert key value').erase key := by
  refine Std.ExtTreeMap.ext_getElem? fun k => ?_
  simp only [Std.ExtTreeMap.getElem?_erase, Std.ExtTreeMap.getElem?_insert]
  split <;> rfl

namespace Event

/-- The event without its identifier and without that of the commit that stored it. -/
def nameless (e : Event) : Event :=
  { e with id := none, commitHeaders := e.commitHeaders.erase Headers.commitId }

@[simp] theorem version_nameless (e : Event) : e.nameless.version = e.version := rfl

@[simp] theorem payload_nameless (e : Event) : e.nameless.payload = e.payload := rfl

@[simp] theorem nameless_nameless (e : Event) : e.nameless.nameless = e.nameless := by
  simp only [nameless, Headers.erase_erase]

end Event

namespace EventLog

theorem map_nameless_stamped {xs ys : List Event} {headers headers' : Headers}
    (h : xs.map Event.nameless = ys.map Event.nameless)
    (hh : headers.erase Headers.commitId = headers'.erase Headers.commitId)
    (version : Int) (time : Moment) (ids ids' : List Uuid) :
    (stamped version time headers ids xs).map Event.nameless =
      (stamped version time headers' ids' ys).map Event.nameless := by
  induction xs generalizing version ids ids' ys with
  | nil =>
    rw [List.map_nil, eq_comm, List.map_eq_nil_iff] at h
    rw [h]
    rfl
  | cons x xs ih =>
    cases ys with
    | nil => simp at h
    | cons y ys =>
      simp only [List.map_cons, List.cons.injEq] at h
      obtain ⟨hhead, htail⟩ := h
      rw [stamped, stamped, List.map_cons, List.map_cons, ih htail (version + 1) ids.tail ids'.tail]
      simp only [Event.nameless, Event.mk.injEq, Descriptor.mk.injEq, true_and] at hhead
      obtain ⟨⟨hstream, hlane, -, -, hheaders, -⟩, hkind, hpayload⟩ := hhead
      simp only [Event.nameless, hstream, hlane, hheaders, hkind, hpayload, hh]

theorem version_congr_nameless {log log' : EventLog} {key : String}
    (h : (log.events key).map Event.nameless = (log'.events key).map Event.nameless) :
    log.version key = log'.version key := by
  have hlast := congrArg List.getLast? h
  rw [List.getLast?_map, List.getLast?_map] at hlast
  unfold version
  cases hx : (log.events key).getLast? <;> cases hy : (log'.events key).getLast? <;>
    simp only [hx, hy, Option.map_some, Option.map_none, reduceCtorEq, Option.some.injEq] at hlast ⊢
  exact congrArg (fun e => e.version) hlast

theorem lastSnapshot_congr_nameless {log log' : EventLog} {stream : StreamRef}
    (h : (log.events (stream.key .snapshot)).map Event.nameless =
      (log'.events (stream.key .snapshot)).map Event.nameless) :
    log.lastSnapshot stream = log'.lastSnapshot stream := by
  have hrecord : (log.readBack (stream.key .snapshot) 1).map Event.nameless =
      (log'.readBack (stream.key .snapshot) 1).map Event.nameless := by
    simp only [readBack, List.map_take, List.map_reverse, h]
  unfold lastSnapshot
  cases hx : log.readBack (stream.key .snapshot) 1 with
  | nil =>
    rw [hx, List.map_nil, eq_comm, List.map_eq_nil_iff] at hrecord
    rw [hrecord]
  | cons record rest =>
    cases hy : log'.readBack (stream.key .snapshot) 1 with
    | nil => simp [hx, hy] at hrecord
    | cons record' rest' =>
      simp only [hx, hy, List.map_cons, List.cons.injEq] at hrecord
      have hpayload := congrArg Event.payload hrecord.1
      simp only [Event.payload_nameless] at hpayload
      simp only [hpayload]

end EventLog

namespace Timeline

def nameless (t : Timeline) : Timeline :=
  { t with
    settled := t.settled.map Event.nameless
    pending := t.pending.map Event.nameless
    pendingOobs := t.pendingOobs.map Event.nameless }

@[simp] theorem dirty_nameless (t : Timeline) : t.nameless.dirty = t.dirty := by
  simp [dirty, nameless]

theorem nameless_settle (t : Timeline) : t.settle.nameless = t.nameless.settle := by
  simp [nameless, settle]

theorem nameless_addSnapshot (t : Timeline) (time : Moment) (memento : Json) :
    (t.addSnapshot time memento).nameless = t.nameless.addSnapshot time memento := rfl

theorem nameless_add (t : Timeline) {stamp stamp' : Stamp} (h : stamp.time = stamp'.time)
    (kind : String) (payload : Json) (headers : Headers) :
    (t.add stamp kind payload headers).nameless =
      (t.nameless.add stamp' kind payload headers).nameless := by
  simp [nameless, add, draft, Event.nameless, h]

theorem nameless_addOob (t : Timeline) {stamp stamp' : Stamp} (h : stamp.time = stamp'.time)
    (kind : String) (payload : Json) (channel : String) (headers : Headers) :
    (t.addOob stamp kind payload channel headers).nameless =
      (t.nameless.addOob stamp' kind payload channel headers).nameless := by
  simp [nameless, addOob, draft, Event.nameless, h]

theorem oobBatches_nameless (t : Timeline) :
    t.nameless.oobBatches = t.oobBatches.map fun b => (b.1, b.2.map Event.nameless) := by
  have hone : ∀ id, t.nameless.oobsOf id = (t.oobsOf id).map Event.nameless := by
    intro id
    simp only [oobsOf, nameless, List.filter_map]
    rfl
  simp only [oobBatches, List.map_filterMap]
  refine List.filterMap_congr fun c _ => ?_
  rw [hone]
  cases t.oobsOf c.id <;> rfl

theorem nameless_ofHistory {stream : StreamRef} {xs ys : List Event} {snapshot : Option Snapshot}
    (h : xs.map Event.nameless = ys.map Event.nameless) :
    (ofHistory stream xs snapshot).nameless = (ofHistory stream ys snapshot).nameless := by
  have hlast : xs.getLast?.map Event.nameless = ys.getLast?.map Event.nameless := by
    rw [← List.getLast?_map, ← List.getLast?_map, h]
  cases hx : xs.getLast? <;> cases hy : ys.getLast? <;>
    simp only [hx, hy, Option.map_some, Option.map_none, reduceCtorEq, Option.some.injEq] at hlast
  · simp only [ofHistory, nameless, hx, hy, h]
  · have hversion := congrArg (fun e => e.version) hlast
    simp only [Event.version_nameless] at hversion
    simp only [ofHistory, nameless, hx, hy, h, hversion]

end Timeline

theorem Routes.hydrate_nameless {m : Type → Type} (routes : Routes m S) (s : S)
    (events : List Event) :
    routes.hydrate s (events.map Event.nameless) = routes.hydrate s events := by
  induction events generalizing s with
  | nil => rfl
  | cons e rest ih =>
    simp only [List.map_cons, hydrate, ih]
    rfl

section Results

variable {ε δ α β : Type} {q : α → β → Prop}

/-- Both results are failures, and the same, or neither is one and they are related. -/
def Agree (q : α → β → Prop) : Except ε α → Except ε β → Prop
  | .ok a, .ok b => q a b
  | .error err, .error err' => err = err'
  | _, _ => False

@[simp] theorem agree_eq {a b : Except ε α} : Agree Eq a b ↔ a = b := by
  cases a <;> cases b <;> simp [Agree]

theorem Agree.mapError {a : Except ε α} {b : Except ε β} (h : Agree q a b) (f : ε → δ) :
    Agree q (a.mapError f) (b.mapError f) := by
  cases a <;> cases b
  · exact congrArg f h
  · exact h
  · exact h
  · exact h

theorem Agree.discard {a : Except ε α} {b : Except ε β} (h : Agree q a b) :
    Agree Eq (a.map fun _ => PUnit.unit) (b.map fun _ => PUnit.unit) := by
  cases a <;> cases b
  · exact h
  · cases h
  · cases h
  · rfl

end Results

/-- The timelines are the same but for names, and have the keys of a stream. -/
structure Timeline.Akin (r : StreamRef) (t t' : Timeline) : Prop where
  same : t.nameless = t'.nameless
  key : t.key .domain = r.key .domain

namespace Timeline.Akin

variable {r : StreamRef} {t t' : Timeline}

theorem stream (h : t.Akin r t') : t.stream = t'.stream :=
  (congrArg Timeline.stream h.same : t.nameless.stream = t'.nameless.stream)

theorem version (h : t.Akin r t') : t.version = t'.version :=
  (congrArg Timeline.version h.same : t.nameless.version = t'.nameless.version)

theorem pending (h : t.Akin r t') :
    t.pending.map Event.nameless = t'.pending.map Event.nameless :=
  congrArg Timeline.pending h.same

theorem pendingSnapshot (h : t.Akin r t') : t.pendingSnapshot = t'.pendingSnapshot :=
  (congrArg Timeline.pendingSnapshot h.same :
    t.nameless.pendingSnapshot = t'.nameless.pendingSnapshot)

theorem dirty (h : t.Akin r t') : t.dirty = t'.dirty := by
  rw [← dirty_nameless, h.same, dirty_nameless]

theorem oobBatches (h : t.Akin r t') :
    (t.oobBatches.map fun b => (b.1, b.2.map Event.nameless)) =
      t'.oobBatches.map fun b => (b.1, b.2.map Event.nameless) := by
  rw [← oobBatches_nameless, h.same, oobBatches_nameless]

theorem settle (h : t.Akin r t') : t.settle.Akin r t'.settle := by
  refine ⟨?_, h.key⟩
  rw [nameless_settle, nameless_settle, h.same]

theorem settled (h : t.Akin r t') :
    t.settled.map Event.nameless = t'.settled.map Event.nameless :=
  congrArg Timeline.settled h.same

theorem sinceSnapshot (h : t.Akin r t') : t.sinceSnapshot = t'.sinceSnapshot :=
  (congrArg Timeline.sinceSnapshot h.same :
    t.nameless.sinceSnapshot = t'.nameless.sinceSnapshot)

theorem snapshot (h : t.Akin r t') : t.snapshot = t'.snapshot :=
  (congrArg Timeline.snapshot h.same : t.nameless.snapshot = t'.nameless.snapshot)

theorem key' (h : t.Akin r t') : t'.key .domain = r.key .domain := by
  rw [Timeline.key, ← h.stream]
  exact h.key

theorem owns (h : t.Akin r t') {key : String} (howns : t.stream.Owns key) : r.Owns key :=
  (StreamRef.owns_congr h.key key).1 howns

theorem add (h : t.Akin r t') {stamp stamp' : Stamp} (htime : stamp.time = stamp'.time)
    (kind : String) (payload : Json) (headers : Headers) :
    (t.add stamp kind payload headers).Akin r (t'.add stamp' kind payload headers) := by
  refine ⟨?_, h.key⟩
  rw [nameless_add t htime, h.same, ← nameless_add t' rfl]

theorem addOob (h : t.Akin r t') {stamp stamp' : Stamp} (htime : stamp.time = stamp'.time)
    (kind : String) (payload : Json) (channel : String) (headers : Headers) :
    (t.addOob stamp kind payload channel headers).Akin r
      (t'.addOob stamp' kind payload channel headers) := by
  refine ⟨?_, h.key⟩
  rw [nameless_addOob t htime, h.same, ← nameless_addOob t' rfl]

theorem addSnapshot (h : t.Akin r t') (time : Moment) (memento : Json) :
    (t.addSnapshot time memento).Akin r (t'.addSnapshot time memento) := by
  refine ⟨?_, h.key⟩
  rw [nameless_addSnapshot, nameless_addSnapshot, h.same]

end Timeline.Akin

theorem EventLog.akin_timeline {log log' : EventLog} {r : StreamRef}
    (h : ∀ key, r.Owns key →
      (log.events key).map Event.nameless = (log'.events key).map Event.nameless) :
    Agree (Timeline.Akin r) (log.timeline r) (log'.timeline r) := by
  have hread : ∀ start, (log.read (r.key .domain) start none).map Event.nameless =
      (log'.read (r.key .domain) start none).map Event.nameless := by
    intro start
    have hfilter : ∀ events : List Event,
        (events.filter fun e => decide (start ≤ e.version)).map Event.nameless =
          (events.map Event.nameless).filter fun e => decide (start ≤ e.version) := by
      intro events
      rw [List.filter_map]
      rfl
    simp only [read, hfilter, h _ (.inl rfl)]
  unfold timeline
  rw [lastSnapshot_congr_nameless (h _ (.inr (.inl rfl)))]
  cases log'.lastSnapshot r with
  | error err => exact rfl
  | ok snapshot => exact ⟨Timeline.nameless_ofHistory (hread _), rfl⟩

/-- The entities are the same but for names, and their timelines have the keys of a stream. -/
structure Entity.Akin (r : StreamRef) (e e' : Entity S) : Prop where
  state : e.state = e'.state
  timeline : e.timeline.Akin r e'.timeline
  conflicts : e.conflicts = e'.conflicts

namespace Entity.Akin

variable {m : Type → Type} {routes : Routes m S} {r : StreamRef} {e e' : Entity S}

theorem record (h : e.Akin r e') {stamp stamp' : Stamp} (htime : stamp.time = stamp'.time)
    (event : Event) (strategy : String) :
    (e.record stamp event strategy).Akin r (e'.record stamp' event strategy) :=
  ⟨h.state, h.timeline.add htime .., h.conflicts⟩

theorem reraise (h : e.Akin r e') {stamp stamp' : Stamp} (htime : stamp.time = stamp'.time)
    (event : Event) : (e.reraise stamp event).2.Akin r (e'.reraise stamp' event).2 := by
  unfold Entity.reraise
  cases event.channel? with
  | none => exact h
  | some channel => exact ⟨h.state, h.timeline.addOob htime .., h.conflicts⟩

theorem settle (h : e.Akin r e') : e.settle.Akin r e'.settle :=
  ⟨h.state, h.timeline.settle, h.conflicts⟩

theorem shouldTakeSnapshot (h : e.Akin r e') :
    e.shouldTakeSnapshot routes = e'.shouldTakeSnapshot routes := by
  have hempty : e.timeline.pending.isEmpty = e'.timeline.pending.isEmpty := by
    rw [← List.isEmpty_map, h.timeline.pending, List.isEmpty_map]
  rw [Entity.shouldTakeSnapshot, Entity.shouldTakeSnapshot, hempty, h.timeline.sinceSnapshot]

theorem takeSnapshot (h : e.Akin r e') (time : Moment) :
    Agree (Akin r) (e.takeSnapshot routes time) (e'.takeSnapshot routes time) := by
  unfold Entity.takeSnapshot
  rw [h.state]
  cases routes.encodeSnapshot e'.state with
  | error err => exact rfl
  | ok memento =>
    cases memento with
    | none => exact h
    | some memento => exact ⟨rfl, h.timeline.addSnapshot time memento, h.conflicts⟩

theorem ofTimeline {t t' : Timeline} (h : t.Akin r t') :
    Agree (Akin r) (ofTimeline routes t) (ofTimeline routes t') := by
  have hstart : startState routes t = startState routes t' := by
    rw [startState, startState, h.snapshot]
  unfold Entity.ofTimeline
  rw [hstart]
  cases startState routes t' with
  | error err => exact rfl
  | ok start =>
    simp only [bind, Except.bind]
    rw [← Routes.hydrate_nameless, h.settled, Routes.hydrate_nameless]
    cases routes.hydrate start t'.settled with
    | mk count state =>
      cases count with
      | error err => exact rfl
      | ok count => exact ⟨rfl, h, rfl⟩

end Entity.Akin

end Chronicle
