import Chronicle.Cluster.Probe
import Chronicle.Proofs.Requeueing

/-!
# Writes that stop on the way

A write is a sequence of appends: the domain events, the out-of-band events channel by channel, and
the record of a snapshot. Any request to the event store may fail for the storage, and such a
failure changes nothing. A write that fails leaves behind a part of the sequence from its start.

If that is nothing the log is as before. Otherwise the pending domain events are stored although the
write failed: the log has moved on for a caller that keeps them, and who writes them once more meets
them as a version conflict.
-/

namespace Chronicle

variable {σ : Type}

namespace EventLog

/-- `log'` is `log` with batches of events appended under their keys, one after the other. -/
inductive Appends : EventLog → List (String × List Event) → EventLog → Prop where
  | none (log : EventLog) : Appends log [] log
  | more {log log' : EventLog} {key : String} {events : NonEmptyList Event} {headers : Headers}
      {ids : List Uuid} {time : Moment} {rest : List (String × List Event)}
      (hrest : Appends (log.append key events headers ids time).2 rest log') :
      Appends log ((key, events.1) :: rest) log'

namespace Appends

variable {log log' log'' : EventLog} {done more : List (String × List Event)}

theorem append (h : log.Appends done log') (h' : log'.Appends more log'') :
    log.Appends (done ++ more) log'' := by
  induction h with
  | none => exact h'
  | more _ ih => exact .more (ih h')

theorem eq_of_nil (h : log.Appends [] log') : log' = log := by
  cases h
  rfl

theorem frame (h : log.Appends done log') {key : String} (hkey : ∀ batch ∈ done, batch.1 ≠ key) :
    log'.events key = log.events key := by
  induction h with
  | none => rfl
  | more _ ih =>
    rw [ih fun batch hbatch => hkey batch (List.mem_cons_of_mem _ hbatch)]
    exact events_append_of_ne _ (hkey _ (List.mem_cons_self ..)).symm ..

end Appends

/-- The last of some stamped events has the version that many after the one before them. -/
theorem version_of_getLast?_stamped {version : Int} {time : Moment} {headers : Headers}
    {ids : List Uuid} {events : List Event} {e : Event}
    (h : (stamped version time headers ids events).getLast? = some e) :
    e.version = version + events.length := by
  have hnumbered := numbered_stamped version time headers ids events
  have hversion := hnumbered.getLast?_version h
  rw [length_stamped] at hversion
  omega

theorem version_append (log : EventLog) (key : String) (events : NonEmptyList Event)
    (headers : Headers) (ids : List Uuid) (time : Moment) :
    (log.append key events headers ids time).2.version key =
      log.version key + events.1.length := by
  have hne : stamped (log.version key) time headers ids events.1 ≠ [] := by
    rw [← List.length_pos_iff, length_stamped]
    exact List.length_pos_iff.2 events.2
  have hlast := List.getLast?_eq_some_getLast hne
  rw [version, events_append_self, List.getLast?_append, hlast]
  exact version_of_getLast?_stamped hlast

theorem version_congr {log log' : EventLog} {key : String} (h : log'.events key = log.events key) :
    log'.version key = log.version key := by
  rw [version, version, h]

end EventLog

namespace Timeline

variable {t : Timeline}

def domainPart (t : Timeline) : List (String × List Event) :=
  match t.pending with
  | [] => []
  | events => [(t.key .domain, events)]

def recordPart (t : Timeline) (recordId : Uuid) : List (String × List Event) :=
  match t.pendingSnapshot with
  | some s => [(t.key .snapshot, [CachedStore.snapshotRecord t s recordId])]
  | none => []

/-- What is to be stored, batch by batch in order. -/
def parts (t : Timeline) (recordId : Uuid) : List (String × List Event) :=
  t.domainPart ++ (t.oobBatches ++ t.recordPart recordId)

theorem key_ne_of_mem_rest {recordId : Uuid} :
    ∀ batch ∈ t.oobBatches ++ t.recordPart recordId, batch.1 ≠ t.key .domain := by
  intro batch h
  rcases List.mem_append.1 h with hoob | hrecord
  · obtain ⟨-, channel, hchannel⟩ := mem_oobBatches hoob
    rw [hchannel]
    exact (StreamRef.key_ne_channelKey _ _ (by decide) _).symm
  · cases hs : t.pendingSnapshot with
    | none => simp [recordPart, hs] at hrecord
    | some s =>
      simp only [recordPart, hs, List.mem_singleton] at hrecord
      rw [hrecord]
      exact StreamRef.key_ne_key _ _ (by decide)

end Timeline

/-- An event store any of whose requests may fail for the storage. A request that fails so changes
nothing in the log, and the others do what they do on the log as a value. -/
structure EventStore.Fallible (store : EventStore (StateM σ)) (log : σ → EventLog) : Prop where
  metadata : ∀ key a r b, Runs (store.metadata key) a r b →
    log b = log a ∧ (r = .ok ((log a).metadataOf key) ∨ ∃ cause, r = .error (.backend cause))
  write : ∀ key events headers expected a r b,
    Runs (store.write key events headers expected) a r b →
      log b = log a ∧ (∃ cause, r = .error (.backend cause)) ∨
      ∃ ids time, match (log a).write key events headers expected ids time with
        | .error err => r = .error err ∧ log b = log a
        | .ok (version, log') => r = .ok version ∧ log b = log'

/-- A cell that holds a log. -/
structure Cell.Logs (cell : Cell (StateM σ) EventLog) (log : σ → EventLog) : Prop where
  get : ∀ a l b, Runs cell.get a l b → l = log a ∧ log b = log a
  set : ∀ l a u b, Runs (cell.set l) a u b → log b = l

theorem EventLog.runs_write_store {cell : Cell (StateM σ) EventLog} {log : σ → EventLog}
    (hcell : cell.Logs log) {supply : Surroundings (StateM σ)} {key : String}
    {events : NonEmptyList Event} {headers : Headers} {expected : Option Int} {a b : σ}
    {r : Except StoreError Int}
    (h : Runs ((EventLog.store cell supply).write key events headers expected) a r b) :
    ∃ ids time, match (log a).write key events headers expected ids time with
      | .error err => r = .error err ∧ log b = log a
      | .ok (version, log') => r = .ok version ∧ log b = log' := by
  simp only [EventLog.store, runs_bind] at h
  obtain ⟨l, a₁, hget, h⟩ := h
  obtain ⟨rfl, hsame⟩ := hcell.get _ _ _ hget
  cases hc : (log a).check key expected with
  | error err =>
    rw [hc] at h
    obtain ⟨rfl, rfl⟩ := runs_pure.1 h
    exact ⟨[], .epoch, by simp [EventLog.write, hc, Except.map, hsame]⟩
  | ok u =>
    rw [hc] at h
    simp only [runs_bind, runs_pure] at h
    obtain ⟨ids, a₂, -, time, a₃, -, u, a₄, hset, rfl, rfl⟩ := h
    have hlog := hcell.set _ _ _ _ hset
    exact ⟨ids, time, by simp [EventLog.write, hc, Except.map, hlog]⟩

/-- A log in memory is an event store that never fails. -/
theorem EventLog.fallible_store {cell : Cell (StateM σ) EventLog} {log : σ → EventLog}
    (hcell : cell.Logs log) (supply : Surroundings (StateM σ)) :
    (EventLog.store cell supply).Fallible log where
  metadata := by
    intro key a r b h
    simp only [EventLog.store, runs_bind_pure] at h
    obtain ⟨l, hget, rfl⟩ := h
    obtain ⟨rfl, hsame⟩ := hcell.get _ _ _ hget
    exact ⟨hsame, .inl rfl⟩
  write _ _ _ _ _ _ _ h := .inr (runs_write_store hcell h)

/-- A probe that lets requests pass or fail, and leaves the log alone. -/
structure Probe.Failing (probe : Probe (StateM σ)) (log : σ → EventLog) : Prop where
  note : ∀ entry a u b, Runs (probe.note entry) a u b → log b = log a
  strike : ∀ target a mode b, Runs (probe.strike target) a mode b →
    log b = log a ∧ (mode = none ∨ mode = some .error)

theorem Probe.Failing.fallible {probe : Probe (StateM σ)} {log : σ → EventLog}
    {store : EventStore (StateM σ)} (hprobe : probe.Failing log) (hstore : store.Fallible log) :
    (probe.events store).Fallible log where
  metadata := by
    intro key a r b h
    simp only [Probe.events, Probe.request, runs_bind] at h
    obtain ⟨_, a₁, hnote, mode, a₂, hstrike, h⟩ := h
    have hnoted := hprobe.note _ _ _ _ hnote
    obtain ⟨hstruck, rfl | rfl⟩ := hprobe.strike _ _ _ _ hstrike
    · have hdone := hstore.metadata _ _ _ _ h
      rw [hstruck, hnoted] at hdone
      exact hdone
    · simp only [runs_bind, runs_pure] at h
      obtain ⟨_, _, hfault, rfl, rfl⟩ := h
      exact ⟨(hprobe.note _ _ _ _ hfault).trans (hstruck.trans hnoted), .inr ⟨_, rfl⟩⟩
  write := by
    intro key events headers expected a r b h
    simp only [Probe.events, Probe.requestWrite, runs_bind] at h
    obtain ⟨_, a₁, hnote, mode, a₂, hstrike, h⟩ := h
    have hnoted := hprobe.note _ _ _ _ hnote
    obtain ⟨hstruck, rfl | rfl⟩ := hprobe.strike _ _ _ _ hstrike
    · have hdone := hstore.write _ _ _ _ _ _ _ h
      rw [hstruck, hnoted] at hdone
      exact hdone
    · simp only [runs_bind, runs_pure] at h
      obtain ⟨_, _, hfault, rfl, rfl⟩ := h
      exact .inl ⟨(hprobe.note _ _ _ _ hfault).trans (hstruck.trans hnoted), _, rfl⟩

namespace CachedStore

/-- A stream store over an event store that may fail. What else it asks for is no part of the
log. -/
structure Fallible (st : CachedStore (StateM σ)) (log : σ → EventLog) : Prop where
  events : st.events.Fallible log
  supply : st.surroundings.Unobserved log
  cache : ∀ f a u b, Runs (st.cache.modify f) a u b → log b = log a

variable {st : CachedStore (StateM σ)} {log : σ → EventLog} {a b : σ} {t : Timeline}
  {headers : Headers} {commitId : Uuid} {expected : Option Int}

/-- Batches are appended in order, up to the first request that fails for the storage. -/
inductive Reached (log log' : EventLog) (batches : List (String × List Event)) {α : Type} :
    Except StoreError α → Prop where
  | all {v : α} (happends : log.Appends batches log') : Reached log log' batches (.ok v)
  | some {done rest : List (String × List Event)} {cause : String} (hsplit : batches = done ++ rest)
      (hrest : rest ≠ []) (happends : log.Appends done log') :
      Reached log log' batches (.error (.backend cause))

namespace Reached

variable {log log' log'' : EventLog} {batches more : List (String × List Event)} {α β : Type}

theorem widen {err : StoreError} (h : Reached log log' batches (.error err : Except StoreError α)) :
    Reached log log' (batches ++ more) (.error err : Except StoreError β) := by
  cases h with
  | some hsplit hrest happends =>
    refine .some ?_ (List.append_ne_nil_of_left_ne_nil hrest more) happends
    rw [hsplit, List.append_assoc]

theorem after {r : Except StoreError α} (h : log.Appends batches log')
    (h' : Reached log' log'' more r) : Reached log log'' (batches ++ more) r := by
  cases h' with
  | all happends => exact .all (h.append happends)
  | some hsplit hrest happends =>
    refine .some ?_ hrest (h.append happends)
    rw [hsplit, List.append_assoc]

end Reached

theorem reached_write {key : String} {events : NonEmptyList Event} {r : Except StoreError Int}
    (hst : st.Fallible log)
    (h : Runs (st.events.write key events headers none : ExceptT StoreError (StateM σ) Int).run
      a r b) : Reached (log a) (log b) [(key, events.1)] r := by
  rcases hst.events.write _ _ _ _ _ _ _ h with ⟨hsame, cause, rfl⟩ | ⟨ids, time, hdone⟩
  · rw [hsame]
    exact .some (List.nil_append _).symm (by simp) (.none _)
  · rw [EventLog.write_none] at hdone
    obtain ⟨rfl, hlog⟩ := hdone
    rw [hlog]
    exact .all (.more (.none _))

theorem reached_writeOobs {batches : List (String × List Event)} {r : Except StoreError Unit}
    (hst : st.Fallible log) (hne : ∀ batch ∈ batches, batch.2 ≠ [])
    (h : Runs (st.writeOobs headers batches).run a r b) :
    Reached (log a) (log b) batches r := by
  induction batches generalizing a with
  | nil =>
    obtain ⟨rfl, rfl⟩ := runs_except_pure.1 h
    exact .all (.none _)
  | cons batch rest ih =>
    obtain ⟨key, events⟩ := batch
    simp only [CachedStore.writeOobs] at h
    cases events with
    | nil => exact absurd rfl (hne _ (List.mem_cons_self ..))
    | cons e es =>
      simp only [NonEmptyList.ofList?, runs_except_discard_bind] at h
      rcases h with ⟨err, hw, rfl⟩ | ⟨v, a₁, hw, h⟩
      · exact (reached_write hst hw).widen
      · cases reached_write hst hw with
        | all hfirst => exact .after hfirst (ih (fun b hb => hne b (List.mem_cons_of_mem _ hb)) h)

/-- The parts of a write after the domain events are appended up to the first that fails. -/
private theorem reached_storeRest {version : Int} {r : Except StoreError Int}
    (hst : st.Fallible log)
    (h : Runs (st.storeRest t headers version).run a r b) :
    ∃ recordId, Reached (log a) (log b) (t.oobBatches ++ t.recordPart recordId) r := by
  rw [storeRest, runs_except_bind] at h
  have hne : ∀ batch ∈ t.oobBatches, batch.2 ≠ [] := fun _ hb => (Timeline.mem_oobBatches hb).1
  rcases h with ⟨err, hoobs, rfl⟩ | ⟨⟨⟩, a₁, hoobs, h⟩
  · exact ⟨.numbered 0, (reached_writeOobs hst hne hoobs).widen⟩
  · cases reached_writeOobs hst hne hoobs with
    | all happends =>
      cases hs : t.pendingSnapshot with
      | none =>
        rw [hs] at h
        obtain ⟨rfl, rfl⟩ := runs_except_pure.1 h
        exact ⟨.numbered 0,
          .after happends (by simpa [Timeline.recordPart, hs] using .all (.none _))⟩
      | some s =>
        rw [hs] at h
        simp only [runs_except_monadLift_bind, runs_except_discard_bind] at h
        obtain ⟨recordId, a₂, hid, h⟩ := h
        rw [← hst.supply.freshId _ _ _ hid] at happends
        refine ⟨recordId, .after happends ?_⟩
        simp only [Timeline.recordPart, hs]
        rcases h with ⟨err, hw, rfl⟩ | ⟨v, a₃, hw, h⟩
        · rw [← List.append_nil [_]]
          exact (reached_write hst hw).widen
        · obtain ⟨rfl, rfl⟩ := runs_except_pure.1 h
          cases reached_write hst hw with
          | all hrecord => exact .all hrecord

theorem same_of_ensureWritable {key : String} {r : Except StoreError Unit} (hst : st.Fallible log)
    (h : Runs (st.ensureWritable key).run a r b) : log b = log a := by
  simp only [CachedStore.ensureWritable, runs_except_bind] at h
  rcases h with ⟨err, hm, -⟩ | ⟨⟨revision, metadata⟩, a₁, hm, h⟩
  · exact (hst.events.metadata _ _ _ _ hm).1
  · refine Eq.trans ?_ (hst.events.metadata _ _ _ _ hm).1
    cases hf : metadata.frozen with
    | none =>
      simp only [hf] at h
      rw [(runs_except_pure.1 h).2]
    | some f =>
      simp only [hf, runs_except_monadLift_bind] at h
      obtain ⟨now, a₂, hnow, h⟩ := h
      refine Eq.trans ?_ (hst.supply.now _ _ _ hnow)
      split at h
      · rw [(runs_except_pure.1 h).2]
      · rw [(runs_throw.1 h).2]

/-- The domain events are stored, and after them the other parts up to the first that fails. -/
structure Begun (log log' : EventLog) (t : Timeline) (expected : Option Int)
    (r : Except StoreError Int) : Prop where
  checked : t.pending ≠ [] → log.check (t.key .domain) expected = .ok ()
  course : ∃ recordId stored, log.Appends t.domainPart stored ∧
    Reached stored log' (t.oobBatches ++ t.recordPart recordId) r
  domain : ∃ time headers ids, log'.events (t.key .domain) = log.events (t.key .domain) ++
    EventLog.stamped (log.version (t.key .domain)) time headers ids t.pending
  version : log'.version (t.key .domain) = log.version (t.key .domain) + t.pending.length

theorem same_of_refused {key : String} {events : NonEmptyList Event} {err : StoreError}
    (hst : st.Fallible log)
    (h : Runs (st.events.write key events headers expected) a (.error err) b) : log b = log a := by
  rcases hst.events.write _ _ _ _ _ _ _ h with ⟨hsame, -⟩ | ⟨ids, time, hdone⟩
  · exact hsame
  · split at hdone
    · exact hdone.2
    · cases hdone.1

theorem appended_of_granted {key : String} {events : NonEmptyList Event} {version : Int}
    (hst : st.Fallible log)
    (h : Runs (st.events.write key events headers expected) a (.ok version) b) :
    ∃ ids time, (log a).check key expected = .ok () ∧
      log b = ((log a).append key events headers ids time).2 := by
  rcases hst.events.write _ _ _ _ _ _ _ h with ⟨-, cause, hr⟩ | ⟨ids, time, hdone⟩
  · cases hr
  · split at hdone
    · cases hdone.1
    · rename_i hwrite
      obtain ⟨u, hchecked, hpair⟩ := except_map_eq_ok.1 hwrite
      rw [hdone.2]
      exact ⟨ids, time, hchecked, congrArg Prod.snd hpair⟩

theorem Reached.frame {log log' : EventLog} {recordId : Uuid} {α : Type} {r : Except StoreError α}
    (h : Reached log log' (t.oobBatches ++ t.recordPart recordId) r) :
    log'.events (t.key .domain) = log.events (t.key .domain) := by
  have hother : ∀ batch ∈ t.oobBatches ++ t.recordPart recordId, batch.1 ≠ t.key .domain :=
    Timeline.key_ne_of_mem_rest
  cases h with
  | all happends => exact happends.frame hother
  | some hsplit hrest happends =>
    rw [hsplit] at hother
    exact happends.frame fun batch hbatch => hother batch (List.mem_append_left _ hbatch)

/-- Once domain events are stored the version is another one than they were checked against. -/
theorem Begun.moved {log log' : EventLog} {version : Int} {r : Except StoreError Int}
    (h : Begun log log' t (some version) r) (hpending : t.pending ≠ []) :
    log'.check (t.key .domain) (some version) ≠ .ok () := by
  have hlength : 0 < t.pending.length := List.length_pos_iff.2 hpending
  have hbefore : log.version (t.key .domain) = version := by
    have hchecked := h.checked hpending
    simp only [EventLog.check, EventLog.verify] at hchecked
    by_contra hne
    simp [hne] at hchecked
  have hafter : log'.version (t.key .domain) ≠ version := by
    rw [h.version, hbefore]
    omega
  simp [EventLog.check, EventLog.verify, hafter]

/-- A write leaves the log as it was, or it begins with all domain events. -/
theorem begun_of_store {r : Except StoreError Int} (hst : st.Fallible log)
    (h : Runs (st.store commitId t headers expected).run a r b) :
    ((∃ err, r = .error err) ∧ log b = log a) ∨ Begun (log a) (log b) t expected r := by
  rw [store_eq, runs_except_bind] at h
  rcases h with ⟨err, hwritable, rfl⟩ | ⟨⟨⟩, a₁, hwritable, h⟩
  · exact .inl ⟨⟨err, rfl⟩, same_of_ensureWritable hst hwritable⟩
  · have hsame := same_of_ensureWritable hst hwritable
    cases hp : t.pending with
    | nil =>
      simp only [hp, NonEmptyList.ofList?, pure_bind] at h
      obtain ⟨recordId, hreached⟩ := reached_storeRest hst h
      rw [hsame] at hreached
      have hframe := hreached.frame
      refine .inr ⟨fun hne => absurd hp hne, ⟨recordId, log a, ?_, hreached⟩, ?_, ?_⟩
      · simpa [Timeline.domainPart, hp] using .none _
      · exact ⟨.epoch, ∅, [], by simp [hp, EventLog.stamped, hframe]⟩
      · simp [EventLog.version_congr hframe, hp]
    | cons e es =>
      simp only [hp, NonEmptyList.ofList?] at h
      rw [runs_except_bind] at h
      rcases h with ⟨err, hw, rfl⟩ | ⟨version, a₂, hw, h⟩
      · exact .inl ⟨⟨err, rfl⟩, (same_of_refused hst hw).trans hsame⟩
      · obtain ⟨ids, time, hchecked, hstored⟩ := appended_of_granted hst hw
        rw [hsame] at hchecked hstored
        obtain ⟨recordId, hreached⟩ := reached_storeRest hst h
        rw [hstored] at hreached
        have hframe := hreached.frame
        refine .inr ⟨fun _ => hchecked, ⟨recordId, _, ?_, hreached⟩, ?_, ?_⟩
        · rw [Timeline.domainPart, hp]
          exact @EventLog.Appends.more _ _ _ ⟨e :: es, List.cons_ne_nil e es⟩ _ _ _ _ (.none _)
        · exact ⟨time, _, ids, hframe.trans (by rw [EventLog.events_append_self, hp])⟩
        · rw [EventLog.version_congr hframe, EventLog.version_append, hp]

/-- A checked write leaves the log as it was, or it begins with all domain events. -/
theorem begun_of_write {r : Except StoreError Int} (hst : st.Fallible log)
    (h : Runs (st.write commitId t headers).run a r b) :
    ((∃ err, r = .error err) ∧ log b = log a) ∨ Begun (log a) (log b) t (some t.version) r := by
  obtain ⟨c, hstore, rfl | ⟨f, u, hcache⟩⟩ := store_of_write h
  · exact begun_of_store hst hstore
  · rw [hst.cache _ _ _ _ hcache]
    exact begun_of_store hst hstore

/-- What is left of a write that stopped on the way: the parts of the timeline up to some point are
stored, all domain events among them, and the rest is not. -/
structure Torn (log log' : EventLog) (t : Timeline) : Prop where
  parts : ∃ recordId done rest, t.parts recordId = done ++ rest ∧ done ≠ [] ∧ rest ≠ [] ∧
    log.Appends done log'
  domain : ∃ time headers ids, log'.events (t.key .domain) = log.events (t.key .domain) ++
    EventLog.stamped (log.version (t.key .domain)) time headers ids t.pending

/-- A checked write that fails leaves the log as it was, unless its first part was stored and the
storage failed after that. Then the domain events are stored, and a caller that keeps them cannot
write them again, since the version has moved on. -/
theorem intact_or_torn {err : StoreError} (hst : st.Fallible log)
    (h : Runs (st.write commitId t headers).run a (.error err) b) :
    log b = log a ∨
      (∃ cause, err = .backend cause) ∧ Torn (log a) (log b) t ∧
      (t.pending ≠ [] → ∀ commitId headers c r c', log c = log b →
        Runs (st.write commitId t headers).run c r c' →
          (∃ err, r = .error err) ∧ log c' = log b) := by
  rcases begun_of_write hst h with ⟨-, hsame⟩ | hbegun
  · exact .inl hsame
  · obtain ⟨recordId, stored, hfirst, hreached⟩ := hbegun.course
    cases hreached with
    | @some done rest cause hsplit hrest happends =>
      have hall := hfirst.append happends
      by_cases hdone : t.domainPart ++ done = []
      · rw [hdone] at hall
        exact .inl hall.eq_of_nil
      · refine .inr ⟨⟨cause, rfl⟩, ⟨⟨recordId, _, rest, ?_, hdone, hrest, hall⟩, hbegun.domain⟩, ?_⟩
        · rw [Timeline.parts, hsplit, List.append_assoc]
        · intro hpending commitId headers c r c' hc hagain
          rcases begun_of_write hst hagain with ⟨herr, hsame⟩ | hagain
          · exact ⟨herr, hsame.trans hc⟩
          · have hthen := hagain.checked hpending
            rw [hc] at hthen
            exact absurd hthen (hbegun.moved hpending)

end CachedStore

namespace World

abbrev Planned := World × FaultPlan

def plannedCell : Cell (StateM Planned) World where
  get := do pure (← get).1
  set w := modify fun s => (w, s.2)

def plannedProbe : Probe (StateM Planned) where
  note _ := pure ()
  strike target := modifyGet fun s =>
    let (mode, plan) := s.2.strike target
    (mode.map fun _ => .error, (s.1, plan))

/-- The surroundings of nodes whose requests to the event store fail as planned. -/
def plannedSite (opened : Moment) : Site (StateM Planned) where
  world := plannedCell
  watch := ⟨plannedProbe.events, id, id⟩
  opened

def plannedLog (s : Planned) : EventLog := s.1.log

theorem failing_plannedProbe : plannedProbe.Failing plannedLog where
  note := by
    intro entry a u b h
    obtain ⟨-, rfl⟩ := runs_pure.1 h
    rfl
  strike := by
    intro target a mode b h
    cases h
    have hmode : ∀ mode : Option FaultMode,
        mode.map (fun _ => FaultMode.error) = none ∨
          mode.map (fun _ => FaultMode.error) = some .error := by
      rintro (_ | mode) <;> simp
    exact ⟨rfl, hmode _⟩

theorem logs_cell : (logCell cell).Logs World.log where
  get := by
    intro a l b h
    obtain ⟨rfl, rfl⟩ := runs_log_get.1 h
    exact ⟨rfl, rfl⟩
  set := by
    intro l a u b h
    rw [runs_log_set.1 h]

theorem logs_plannedCell : (logCell plannedCell).Logs plannedLog where
  get := by
    intro a l b h
    cases h
    exact ⟨rfl, rfl⟩
  set := by
    intro l a u b h
    cases h
    rfl

/-- The stream store of a node whose requests to the event store fail as planned. -/
theorem fallible_planned (n : Node) (opened : Moment) :
    (n.cached (plannedSite opened)).Fallible plannedLog where
  events := failing_plannedProbe.fallible (EventLog.fallible_store logs_plannedCell _)
  supply := by
    constructor
    · intro a id b h
      cases h
      rfl
    · intro a time b h
      cases h
      rfl
  cache := by
    intro f a u b h
    cases h
    rfl

def clerk : Node :=
  ⟨.numbered 0, "default", { ConflictSettings.standard with strategy := .resolveStrongly }, 0, 0, 0,
    none, none⟩

def noted : Except RouteError (Entity Samples.Tally) := do
  let tally ← Entity.ofTimeline Cluster.tallyRoutes (.empty Cluster.tallyStream)
  let tally ← tally.apply ⟨.numbered 100, .epoch⟩ (Samples.Step.type.move ⟨1⟩ Samples.Tally.step)
  tally.raise ⟨.numbered 101, .epoch⟩ (Samples.Noted.type.move ⟨"late"⟩ fun _ state => state)
    "audit" true none

/-- The second write of events fails, and no other one. -/
def secondWriteFails : FaultPlan := (∅ : FaultPlan).insert "write_events" ⟨.error, 1, 1⟩

/-- The note cannot be stored after the step was. The write fails, and the step is stored all the
same; when the entity is committed once more the step meets itself as a conflict and is stored a
second time. -/
theorem doubled_noted :
    let store := clerk.cached (plannedSite .epoch)
    let repository := clerk.repository (plannedSite .epoch)
    let routes := Cluster.tallyRoutes.lift
    let key := Cluster.tallyStream.key .domain
    let s := (start .epoch, secondWriteFails)
    let step := ("tally.step", Json.ofFields [("n", .int 1)])
    ∃ e s', noted = .ok e ∧
      Runs (store.write (.numbered 102) e.timeline ∅).run s
        (.error (.backend Probe.unavailable)) s' ∧
      CachedStore.Torn s.1.log s'.1.log e.timeline ∧
      ∃ e₁ s₁ e₂ s₂,
        Runs (repository.commit routes e (.numbered 102) ∅) s
          (.error (.store (.backend Probe.unavailable)), e₁) s₁ ∧
        e₁.timeline.batch = e.timeline.batch ∧
        (s₁.1.log.events key).map Event.content = [step] ∧
        Runs (repository.commit routes e₁ (.numbered 103) ∅) s₁
          (.ok (.resolved .committed), e₂) s₂ ∧
        (s₂.1.log.events key).map Event.content = [step, step] := by
  intro store repository routes key s step
  have hfacts : noted.toOption.any (fun e =>
      let write := (store.write (.numbered 102) e.timeline ∅).run.run s
      let first := (repository.commit routes e (.numbered 102) ∅).run s
      let second := (repository.commit routes first.1.2 (.numbered 103) ∅).run first.2
      decide (write.1 = .error (.backend Probe.unavailable) ∧ write.2.1.log ≠ s.1.log ∧
        first.1.1 = .error (.store (.backend Probe.unavailable)) ∧
        first.1.2.timeline.batch = e.timeline.batch ∧
        (first.2.1.log.events key).map Event.content = [step] ∧
        second.1.1 = .ok (.resolved .committed) ∧
        (second.2.1.log.events key).map Event.content = [step, step])) = true := by
    decide +kernel
  obtain ⟨e, hfound, hfacts⟩ := (Option.any_eq_true ..).1 hfacts
  have he : noted = .ok e := except_toOption_eq_some.1 hfound
  obtain ⟨r, s', hwrite⟩ := Runs.total (store.write (.numbered 102) e.timeline ∅).run s
  obtain ⟨⟨r₁, e₁⟩, s₁, hfirst⟩ := Runs.total (repository.commit routes e (.numbered 102) ∅) s
  obtain ⟨⟨r₂, e₂⟩, s₂, hsecond⟩ :=
    Runs.total (repository.commit routes e₁ (.numbered 103) ∅) s₁
  simp only [hwrite.run_eq, hfirst.run_eq, hsecond.run_eq, decide_eq_true_eq] at hfacts
  obtain ⟨rfl, hchanged, rfl, hbatch, hstored, rfl, htwice⟩ := hfacts
  have htorn : CachedStore.Torn s.1.log s'.1.log e.timeline := by
    rcases CachedStore.intact_or_torn (fallible_planned clerk .epoch) hwrite with hsame | htorn
    · exact absurd hsame hchanged
    · exact htorn.2.1
  exact ⟨e, s', he, hwrite, htorn, e₁, s₁, e₂, s₂, hfirst, hbatch, hstored, hsecond, htwice⟩

end World

end Chronicle
