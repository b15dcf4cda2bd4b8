import Chronicle.Cluster.World
import Chronicle.Proofs.Numbering
import Chronicle.Proofs.Runs

/-!
# Nodes of a world that nobody watches

The requests of a node, run on a world as the state: what each of them answers, and what it
leaves of the world. A request that changes nothing but the supply of identifiers is said to
leave `w.logged i w.log` for some `i`.
-/

namespace Chronicle

def EventLog.lastSnapshot (log : EventLog) (stream : StreamRef) :
    Except StoreError (Option Snapshot) :=
  match log.readBack (stream.key .snapshot) 1 with
  | [] => .ok none
  | record :: _ =>
    match Snapshot.decode record.payload with
    | .ok snapshot => .ok (some snapshot)
    | .error err => .error (.codec err)

/-- The timeline that a log holds for a stream: its last snapshot and the events after it. -/
def EventLog.timeline (log : EventLog) (stream : StreamRef) : Except StoreError Timeline :=
  (log.lastSnapshot stream).map fun snapshot =>
    let start :=
      match snapshot with
      | some s => s.version + 1
      | none => 0
    .ofHistory stream (log.read (stream.key .domain) start none) snapshot

namespace World

def cell : Cell (StateM World) World where
  get := get
  set := set

/-- The surroundings of nodes that nobody watches. -/
def site (opened : Moment) : Site (StateM World) where
  world := cell
  watch := .nobody
  opened

def forget (w : World) (cache : Nat) (key : String) : World :=
  { w with caches := w.caches.insert cache ((w.cache cache).erase key) }

def remember (w : World) (cache : Nat) (key : String) (t : Timeline) : World :=
  { w with caches := w.caches.insert cache ((w.cache cache).insert key t) }

def logged (w : World) (issued : Nat) (log : EventLog) : World := { w with issued, log }

def annotated (w : World) (data : Std.ExtTreeMap String (Int × StreamMetadata)) : World :=
  { w with log := { w.log with metadata := data } }

def claimed (w : World) (key : String) (frozen : Option Freeze) : World :=
  w.annotated (w.log.metadata.insert key
    ((w.log.metadataOf key).1 + 1, { (w.log.metadataOf key).2 with frozen }))

/-- What a node with a cache is given for a stream. -/
def view (w : World) (cache : Nat) (stream : StreamRef) : Except StoreError Timeline :=
  match (w.cache cache)[stream.key .domain]? with
  | some t => .ok t
  | none => w.log.timeline stream

def viewed (w : World) (cache : Nat) (stream : StreamRef) : World :=
  match (w.cache cache)[stream.key .domain]?, w.log.timeline stream with
  | none, .ok t => w.remember cache (stream.key .domain) t
  | _, _ => w

/-- The other instance that keeps `owner` from writing under a key. -/
def holder (w : World) (owner : Uuid) (timeout : Span) (key : String) : Option Uuid :=
  match (w.log.metadataOf key).2.frozen with
  | none => none
  | some f =>
    if f.owner = owner ∨ CachedStore.isStale timeout w.wall f then none else some f.owner

@[simp] theorem log_logged (w : World) (i : Nat) (log : EventLog) : (w.logged i log).log = log :=
  rfl

@[simp] theorem log_remember (w : World) (c : Nat) (key : String) (t : Timeline) :
    (w.remember c key t).log = w.log := rfl

@[simp] theorem log_forget (w : World) (c : Nat) (key : String) :
    (w.forget c key).log = w.log := rfl

@[simp] theorem log_viewed (w : World) (c : Nat) (stream : StreamRef) :
    (w.viewed c stream).log = w.log := by
  unfold viewed
  split <;> rfl

@[simp] theorem wall_viewed (w : World) (c : Nat) (stream : StreamRef) :
    (w.viewed c stream).wall = w.wall := by
  unfold viewed
  split <;> rfl

@[simp] theorem areas_viewed (w : World) (c : Nat) (stream : StreamRef) :
    (w.viewed c stream).areas = w.areas := by
  unfold viewed
  split <;> rfl

/-- A claim changes the metadata of its key only, and there nothing but the claim. -/
theorem metadataOf_claimed (w : World) (key other : String) (frozen : Option Freeze) :
    (w.claimed key frozen).log.metadataOf other =
      if other = key then ((w.log.metadataOf key).1 + 1, { (w.log.metadataOf key).2 with frozen })
      else w.log.metadataOf other := by
  by_cases hk : other = key
  · simp [claimed, annotated, EventLog.metadataOf, hk]
  · simp [claimed, annotated, EventLog.metadataOf, Std.ExtTreeMap.getD_insert, Ne.symm hk, hk]

theorem getElem?_cache_remember (w : World) (c d : Nat) (key other : String) (t : Timeline) :
    ((w.remember c key t).cache d)[other]? =
      if d = c ∧ other = key then some t else (w.cache d)[other]? := by
  by_cases hd : d = c
  · subst hd
    by_cases hk : other = key
    · subst hk
      simp [remember, cache]
    · simp [remember, cache, Std.ExtTreeMap.getElem?_insert, Ne.symm hk, hk]
  · simp [remember, cache, Std.ExtTreeMap.getD_insert, Ne.symm hd, hd]

theorem getElem?_cache_forget (w : World) (c d : Nat) (key other : String) :
    ((w.forget c key).cache d)[other]? =
      if d = c ∧ other = key then none else (w.cache d)[other]? := by
  by_cases hd : d = c
  · subst hd
    by_cases hk : other = key
    · subst hk
      simp [forget, cache]
    · simp [forget, cache, Std.ExtTreeMap.getElem?_erase, Ne.symm hk, hk]
  · simp [forget, cache, Std.ExtTreeMap.getD_insert, Ne.symm hd, hd]

section Supplies

variable {w w' : World}

theorem runs_freshId {id : Uuid} (h : Runs (surroundings cell).freshId w id w') :
    ∃ i, w' = w.logged i w.log := by
  simp only [surroundings, cell, runs_bind, runs_get, runs_set, runs_pure] at h
  obtain ⟨_, _, ⟨rfl, rfl⟩, _, _, rfl, rfl, rfl⟩ := h
  exact ⟨_, rfl⟩

theorem runs_freshIds {n : Nat} {ids : List Uuid}
    (h : Runs ((surroundings cell).freshIds n) w ids w') : ∃ i, w' = w.logged i w.log := by
  induction n generalizing w ids with
  | zero => exact ⟨w.issued, (runs_pure.1 h).2⟩
  | succ n ih =>
    simp only [Surroundings.freshIds, runs_bind, runs_pure] at h
    obtain ⟨id, w₁, hid, rest, w₂, hrest, rfl, rfl⟩ := h
    obtain ⟨i, rfl⟩ := runs_freshId hid
    obtain ⟨j, rfl⟩ := ih hrest
    exact ⟨j, rfl⟩

@[simp] theorem runs_now {time : Moment} :
    Runs (surroundings cell).now w time w' ↔ time = w.wall ∧ w' = w := by
  simp [surroundings, cell, runs_map, and_comm]

@[simp] theorem runs_elapsed {span : Span} :
    Runs (surroundings cell).elapsed w span w' ↔ span = w.elapsed ∧ w' = w := by
  simp [surroundings, cell, runs_map, and_comm]

theorem runs_stamp {stamp : Stamp} (h : Runs (surroundings cell).stamp w stamp w') :
    ∃ i, w' = w.logged i w.log := by
  simp only [Surroundings.stamp, runs_bind, runs_now, runs_pure] at h
  obtain ⟨id, w₁, hid, _, _, ⟨rfl, rfl⟩, rfl, rfl⟩ := h
  exact runs_freshId hid

@[simp] theorem runs_log_get {log : EventLog} :
    Runs (logCell cell).get w log w' ↔ log = w.log ∧ w' = w := by
  simp [logCell, Cell.focus, cell, runs_map, and_comm]

@[simp] theorem runs_log_set {log : EventLog} {a : Unit} :
    Runs ((logCell cell).set log) w a w' ↔ w' = { w with log } := by
  simp [logCell, Cell.focus, Cell.modify, cell, runs_bind]

@[simp] theorem runs_cache_get {c : Nat} {timelines : TimelineCache} :
    Runs (cacheCell cell c).get w timelines w' ↔ timelines = w.cache c ∧ w' = w := by
  simp [cacheCell, Cell.focus, cell, runs_map, and_comm]

@[simp] theorem runs_cache_modify {c : Nat} {f : TimelineCache → TimelineCache} {a : Unit} :
    Runs ((cacheCell cell c).modify f) w a w' ↔
      w' = { w with caches := w.caches.insert c (f (w.cache c)) } := by
  simp [cacheCell, Cell.focus, Cell.modify, cell, runs_bind]

@[simp] theorem runs_agenda_get {n : Nat} {a : Agenda StreamRef} :
    Runs (agendaCell cell n).get w a w' ↔ a = w.agenda n ∧ w' = w := by
  simp [agendaCell, Cell.focus, cell, runs_map, and_comm]

@[simp] theorem runs_agenda_set {n : Nat} {agenda : Agenda StreamRef} {a : Unit} :
    Runs ((agendaCell cell n).set agenda) w a w' ↔
      w' = { w with agendas := w.agendas.insert n agenda } := by
  simp [agendaCell, Cell.focus, Cell.modify, cell, runs_bind]

@[simp] theorem runs_agenda_modify {n : Nat} {f : Agenda StreamRef → Agenda StreamRef}
    {a : Unit} : Runs ((agendaCell cell n).modify f) w a w' ↔
      w' = { w with agendas := w.agendas.insert n (f (w.agenda n)) } := by
  simp [agendaCell, Cell.focus, Cell.modify, cell, runs_bind]

@[simp] theorem runs_area_get {n : Nat} {a : StagingArea ConflictBatch} :
    Runs (areaCell cell n).get w a w' ↔ a = w.area n ∧ w' = w := by
  simp [areaCell, Cell.focus, cell, runs_map, and_comm]

@[simp] theorem runs_area_set {n : Nat} {area : StagingArea ConflictBatch} {a : Unit} :
    Runs ((areaCell cell n).set area) w a w' ↔ w' = { w with areas := w.areas.insert n area } := by
  simp [areaCell, Cell.focus, Cell.modify, cell, runs_bind]

@[simp] theorem runs_area_modify {n : Nat}
    {f : StagingArea ConflictBatch → StagingArea ConflictBatch} {a : Unit} :
    Runs ((areaCell cell n).modify f) w a w' ↔
      w' = { w with areas := w.areas.insert n (f (w.area n)) } := by
  simp [areaCell, Cell.focus, Cell.modify, cell, runs_bind]

end Supplies

section Events

variable {opened : Moment} {w w' : World} {key : String}

@[simp] theorem runs_read {start : Int} {count : Option Nat}
    {r : Except StoreError (List Event)} :
    Runs (ExceptT.run ((site opened).events.read key start count)) w r w' ↔
      r = .ok (w.log.read key start count) ∧ w' = w := by
  simp [site, Site.events, Watch.nobody, EventLog.store, ExceptT.run, runs_map, and_comm]

@[simp] theorem runs_readBack {count : Nat} {r : Except StoreError (List Event)} :
    Runs (ExceptT.run ((site opened).events.readBack key count)) w r w' ↔
      r = .ok (w.log.readBack key count) ∧ w' = w := by
  simp [site, Site.events, Watch.nobody, EventLog.store, ExceptT.run, runs_map, and_comm]

@[simp] theorem runs_verify {expected : Int} {r : Except StoreError Unit} :
    Runs ((site opened).events.verify key expected) w r w' ↔
      r = w.log.verify key expected ∧ w' = w := by
  simp [site, Site.events, Watch.nobody, EventLog.store, runs_map, and_comm]

@[simp] theorem runs_metadata {r : Except StoreError (Int × StreamMetadata)} :
    Runs (ExceptT.run ((site opened).events.metadata key)) w r w' ↔
      r = .ok (w.log.metadataOf key) ∧ w' = w := by
  simp [site, Site.events, Watch.nobody, EventLog.store, ExceptT.run, runs_map, and_comm]

theorem runs_write {events : NonEmptyList Event} {headers : Headers} {expected : Option Int}
    {r : Except StoreError Int}
    (h : Runs (ExceptT.run ((site opened).events.write key events headers expected)) w r w') :
    (∃ err, w.log.check key expected = .error err ∧ r = .error err ∧ w' = w) ∨
      (w.log.check key expected = .ok () ∧
        ∃ i ids, r = .ok (w.log.append key events headers ids w.wall).1 ∧
          w' = w.logged i (w.log.append key events headers ids w.wall).2) := by
  simp only [site, Site.events, Watch.nobody, EventLog.store, ExceptT.run, id, runs_bind,
    runs_log_get, and_assoc, exists_and_left, exists_eq_left] at h
  cases hc : w.log.check key expected with
  | error err =>
    rw [hc] at h
    obtain ⟨rfl, rfl⟩ := runs_pure.1 h
    exact .inl ⟨err, rfl, rfl, rfl⟩
  | ok u =>
    rw [hc] at h
    simp only [runs_bind, Site.surroundings] at h
    obtain ⟨ids, w₁, hids, time, w₂, hnow, _, _, hset, hp⟩ := h
    obtain ⟨i, rfl⟩ := runs_freshIds hids
    obtain ⟨rfl, rfl⟩ := runs_now.1 hnow
    rw [runs_log_set.1 hset] at hp
    obtain ⟨rfl, rfl⟩ := runs_pure.1 hp
    exact .inr ⟨rfl, i, ids, rfl, rfl⟩

/-- Metadata that is written at its own revision is replaced, and its revision moves on. -/
theorem runs_writeMetadata {frozen : Option Freeze} {r : Except StoreError Int} :
    Runs (ExceptT.run ((site opened).events.writeMetadata key
      { (w.log.metadataOf key).2 with frozen } (w.log.metadataOf key).1)) w r w' ↔
      r = .ok ((w.log.metadataOf key).1 + 1) ∧ w' = w.claimed key frozen := by
  simp only [site, Site.events, Watch.nobody, EventLog.store, ExceptT.run, id, runs_bind,
    runs_log_get, and_assoc, exists_and_left, exists_eq_left, EventLog.writeMetadata, if_true,
    runs_log_set, runs_pure]
  constructor
  · rintro ⟨rfl, -, rfl⟩
    exact ⟨rfl, rfl⟩
  · rintro ⟨rfl, rfl⟩
    exact ⟨rfl, ⟨⟩, rfl⟩

theorem runs_writeMetadata_of_ne {metadata : StreamMetadata} {expected : Int}
    (hne : (w.log.metadataOf key).1 ≠ expected) :
    Runs (ExceptT.run ((site opened).events.writeMetadata key metadata expected)) w
      (.error (.version ⟨key, expected, (w.log.metadataOf key).1⟩)) w := by
  simp only [site, Site.events, Watch.nobody, EventLog.store, ExceptT.run, id, runs_bind,
    runs_log_get, and_assoc, exists_and_left, exists_eq_left, EventLog.writeMetadata, if_neg hne,
    runs_pure]
  trivial

end Events

end World

end Chronicle
