import Chronicle.Proofs.Posting
import Chronicle.Proofs.Restating

/-!
# What a write files

A write of a timeline is a sequence of appends, and over a log in memory it is all or nothing even
so. Only a freeze and the check of the version can refuse it, and both come before the first append;
what is appended without a check is never refused.

What was pending is filed under the keys of the stream then: the domain events under one key, the
events on a channel under the key of the channel, and the record of a snapshot under a third. These
keys are all different, and all other keys and the metadata are left alone.
-/

namespace Chronicle

variable {σ : Type}

namespace Timeline

/-- The timelines that recording, settling and reverting make of a history, in any order. -/
inductive Built : Timeline → Prop
  | ofHistory (stream : StreamRef) (settled : List Event) (snapshot : Option Snapshot) :
      Built (.ofHistory stream settled snapshot)
  | add {t : Timeline} (h : Built t) (stamp : Stamp) (kind : String) (payload : Json)
      (headers : Headers) : Built (t.add stamp kind payload headers)
  | addOob {t : Timeline} (h : Built t) (stamp : Stamp) (kind : String) (payload : Json)
      (channel : String) (headers : Headers) : Built (t.addOob stamp kind payload channel headers)
  | addSnapshot {t : Timeline} (h : Built t) (time : Moment) (memento : Json) :
      Built (t.addSnapshot time memento)
  | settle {t : Timeline} (h : Built t) : Built t.settle
  | revert {t : Timeline} (h : Built t) : Built t.revert

theorem Built.sound {t : Timeline} (h : t.Built) : t.Sound := by
  induction h with
  | ofHistory stream settled snapshot => exact sound_ofHistory stream settled snapshot
  | add h stamp kind payload headers ih => exact ih.add stamp kind payload headers
  | addOob h stamp kind payload channel headers ih =>
    exact ih.addOob stamp kind payload channel headers
  | addSnapshot h time memento ih => exact ih.addSnapshot time memento
  | settle h ih => exact ih.settle
  | revert h ih => exact ih.revert

/-- `log'` is `log` with what is pending in the timeline filed under the keys of its stream, each
part behind what its key held before. -/
structure Filed (t : Timeline) (log log' : EventLog) : Prop where
  domain : log.Continued log' (t.key .domain) t.pending
  channels : ∀ channel,
    log.Continued log' (t.stream.channelKey channel) (onChannel channel t.pendingOobs)
  snapshot : ∃ recordId, log.Continued log' (t.key .snapshot)
    (t.pendingSnapshot.toList.map fun s => CachedStore.snapshotRecord t s recordId)
  elsewhere : ∀ key, ¬ t.stream.Owns key → log'.events key = log.events key
  metadata : log'.metadata = log.metadata
  complete : ∀ e ∈ t.pendingOobs, ∃ channel, e ∈ onChannel channel t.pendingOobs

/-- What is pending is filed, or the log stays as it is. -/
inductive AllOrNothing (t : Timeline) (log log' : EventLog) : Except StoreError Int → Prop
  | all {version : Int} (hfiled : t.Filed log log') : AllOrNothing t log log' (.ok version)
  | nothing {err : StoreError} (hsame : log' = log) : AllOrNothing t log log' (.error err)

end Timeline

namespace EventLog.Appends

variable {log log' : EventLog} {batches : List (String × List Event)} {t : Timeline}
  {recordId : Uuid}

/-- Appended batches continue their keys, and a key without a batch is left alone. -/
theorem continued (h : log.Appends batches log') (key : String) :
    log.Continued log' key (under key batches) := by
  induction h with
  | none => exact .of_eq rfl
  | @more log log' other events headers ids time rest hrest ih =>
    rw [under_cons]
    by_cases hk : other = key
    · rw [if_pos hk, ← hk]
      rw [← hk] at ih
      exact (Continued.append log other events headers ids time).trans ih
    · rw [if_neg hk]
      exact (Continued.of_eq (events_append_of_ne log (Ne.symm hk) ..)).trans ih

theorem metadata (h : log.Appends batches log') : log'.metadata = log.metadata := by
  induction h with
  | none => rfl
  | more hrest ih => exact ih

theorem filed (h : log.Appends (t.parts recordId) log') (ht : t.Sound) : t.Filed log log' where
  domain := by
    have hdomain := h.continued (t.key .domain)
    rwa [Timeline.under_parts_domain] at hdomain
  channels channel := by
    have hchannel := h.continued (t.stream.channelKey channel)
    rwa [ht.under_parts_channelKey] at hchannel
  snapshot := by
    have hsnapshot := h.continued (t.key .snapshot)
    rw [Timeline.under_parts_snapshot] at hsnapshot
    exact ⟨recordId, hsnapshot⟩
  elsewhere _ := h.elsewhere
  metadata := h.metadata
  complete e he := by
    obtain ⟨-, c, -, hchannel⟩ := ht.oobs e he
    exact ⟨c.id, List.mem_filter.2 ⟨he, by simp [hchannel]⟩⟩

end EventLog.Appends

namespace CachedStore

/-- A stream store over a log in memory. Identifiers, the time and the cache are no part of it. -/
structure InMemory (st : CachedStore (StateM σ)) (log : σ → EventLog) : Prop where
  events : ∃ cell, cell.Logs log ∧ st.events = EventLog.store cell st.surroundings
  supply : st.surroundings.Unobserved log
  cache : ∀ f a u b, Runs (st.cache.modify f) a u b → log b = log a

namespace InMemory

variable {st : CachedStore (StateM σ)} {log : σ → EventLog} {a b : σ} {t : Timeline}
  {headers : Headers} {commitId : Uuid} {expected : Option Int}

theorem fallible (hst : st.InMemory log) : st.Fallible log where
  events := by
    obtain ⟨cell, hcell, hevents⟩ := hst.events
    rw [hevents]
    exact EventLog.fallible_store hcell _
  supply := hst.supply
  cache := hst.cache

theorem granted_write {key : String} {events : NonEmptyList Event} {r : Except StoreError Int}
    (hst : st.InMemory log) (h : Runs (st.events.write key events headers none) a r b) :
    ∃ version, r = .ok version := by
  obtain ⟨cell, hcell, hevents⟩ := hst.events
  rw [hevents] at h
  obtain ⟨ids, time, hdone⟩ := EventLog.runs_write_store hcell h
  rw [EventLog.write_none] at hdone
  exact ⟨_, hdone.1⟩

theorem granted_writeOobs {batches : List (String × List Event)} {r : Except StoreError Unit}
    (hst : st.InMemory log) (h : Runs (st.writeOobs headers batches).run a r b) : r = .ok () := by
  induction batches generalizing a with
  | nil => exact (runs_except_pure.1 h).1
  | cons batch rest ih =>
    obtain ⟨key, events⟩ := batch
    simp only [CachedStore.writeOobs] at h
    cases events with
    | nil => exact ih (by simpa [NonEmptyList.ofList?] using h)
    | cons e es =>
      simp only [NonEmptyList.ofList?, runs_except_discard_bind] at h
      rcases h with ⟨err, hw, -⟩ | ⟨v, a₁, hw, h⟩
      · obtain ⟨version, hr⟩ := hst.granted_write hw
        cases hr
      · exact ih h

theorem granted_storeRest {version : Int} {r : Except StoreError Int} (hst : st.InMemory log)
    (h : Runs (st.storeRest t headers version).run a r b) : r = .ok version := by
  rw [storeRest, runs_except_bind] at h
  rcases h with ⟨err, hoobs, -⟩ | ⟨⟨⟩, a₁, hoobs, h⟩
  · cases hst.granted_writeOobs hoobs
  · cases hs : t.pendingSnapshot with
    | none =>
      rw [hs] at h
      exact (runs_except_pure.1 h).1
    | some s =>
      rw [hs] at h
      simp only [runs_except_monadLift_bind, runs_except_discard_bind] at h
      obtain ⟨recordId, a₂, hid, ⟨err, hw, -⟩ | ⟨v, a₃, hw, h⟩⟩ := h
      · obtain ⟨version, hr⟩ := hst.granted_write hw
        cases hr
      · exact (runs_except_pure.1 h).1

theorem same_of_store {err : StoreError} (hst : st.InMemory log)
    (h : Runs (st.store commitId t headers expected).run a (.error err) b) : log b = log a := by
  rw [store_eq, runs_except_bind] at h
  rcases h with ⟨err, hwritable, -⟩ | ⟨⟨⟩, a₁, hwritable, h⟩
  · exact same_of_ensureWritable hst.fallible hwritable
  · have hsame := same_of_ensureWritable hst.fallible hwritable
    cases hp : t.pending with
    | nil =>
      simp only [hp, NonEmptyList.ofList?, pure_bind] at h
      cases hst.granted_storeRest h
    | cons e es =>
      simp only [hp, NonEmptyList.ofList?] at h
      rw [runs_except_bind] at h
      rcases h with ⟨err, hw, -⟩ | ⟨version, a₂, hw, h⟩
      · exact (same_of_refused hst.fallible hw).trans hsame
      · cases hst.granted_storeRest h

/-- Storing files what is pending, or leaves the log as it was. -/
theorem allOrNothing_of_store {r : Except StoreError Int} (hst : st.InMemory log) (ht : t.Sound)
    (h : Runs (st.store commitId t headers expected).run a r b) :
    t.AllOrNothing (log a) (log b) r := by
  cases r with
  | error err => exact .nothing (hst.same_of_store h)
  | ok version =>
    rcases begun_of_store hst.fallible h with ⟨⟨err, hr⟩, -⟩ | hbegun
    · cases hr
    · obtain ⟨recordId, stored, hfirst, hreached⟩ := hbegun.course
      cases hreached with
      | all happends => exact .all ((hfirst.append happends).filed ht)

end InMemory

/-- A write of a timeline over a log in memory, checked or not, files what is pending in it under
the keys of its stream and changes nothing else; or it is refused, and the whole log is as
before. -/
theorem allOrNothing_of_streams {st : CachedStore (StateM σ)} {log : σ → EventLog} {a b : σ}
    {t : Timeline} {headers : Headers} {commitId : Uuid} {r : Except StoreError Int}
    (hst : st.InMemory log) (ht : t.Built)
    (h : Runs (st.streams.write commitId t headers) a r b ∨
      Runs (st.streams.append commitId t headers) a r b) :
    t.AllOrNothing (log a) (log b) r := by
  obtain ⟨c, expected, hstore, hsame⟩ : ∃ c expected,
      Runs (st.store commitId t headers expected).run a r c ∧ log b = log c := by
    rcases h with h | h
    · obtain ⟨c, hstore, rfl | ⟨f, u, hcache⟩⟩ := store_of_write h
      · exact ⟨b, _, hstore, rfl⟩
      · exact ⟨c, _, hstore, hst.cache _ _ _ _ hcache⟩
    · obtain ⟨c, hstore, f, u, hcache⟩ := store_of_append h
      exact ⟨c, _, hstore, hst.cache _ _ _ _ hcache⟩
  rw [hsame]
  exact hst.allOrNothing_of_store ht.sound hstore

end CachedStore

namespace World

/-- The stream store of a node that nobody watches is one over a log in memory. -/
theorem inMemory_cached (n : Node) (opened : Moment) :
    (n.cached (site opened)).InMemory World.log where
  events := ⟨_, logs_cell, rfl⟩
  supply := (fallible_cached n opened).supply
  cache := (fallible_cached n opened).cache

def page : Timeline :=
  (((Timeline.empty Cluster.tallyStream).add ⟨.numbered 100, .epoch⟩ "tally.step" .null ∅).addOob
    ⟨.numbered 101, .epoch⟩ "tally.noted" .null "audit" ∅).addSnapshot .epoch .null

theorem built_page : page.Built :=
  (((Timeline.Built.ofHistory _ [] none).add ..).addOob ..).addSnapshot ..

/-- The page is filed once. Whoever writes it again meets a new version, and changes nothing. -/
theorem allOrNothing_page :
    let store := (clerk.cached (site .epoch)).streams
    let conflict := StoreError.version ⟨Cluster.tallyStream.key .domain, newStreamVersion, 0⟩
    ∃ w₁ w₂, Runs (store.write (.numbered 102) page ∅) (start .epoch) (.ok 0) w₁ ∧
      page.AllOrNothing (start .epoch).log w₁.log (.ok 0) ∧
      Runs (store.write (.numbered 103) page ∅) w₁ (.error conflict) w₂ ∧
      page.AllOrNothing w₁.log w₂.log (.error conflict) := by
  intro store conflict
  obtain ⟨r₁, w₁, hfirst⟩ := Runs.total (store.write (.numbered 102) page ∅) (start .epoch)
  obtain ⟨r₂, w₂, hsecond⟩ := Runs.total (store.write (.numbered 103) page ∅) w₁
  have hfacts : (let first := (store.write (.numbered 102) page ∅).run (start .epoch)
      let second := (store.write (.numbered 103) page ∅).run first.2
      first.1 = .ok 0 ∧ second.1 = .error conflict) := by
    decide +kernel
  simp only [hfirst.run_eq, hsecond.run_eq] at hfacts
  obtain ⟨rfl, rfl⟩ := hfacts
  have hmemory := inMemory_cached clerk .epoch
  exact ⟨w₁, w₂, hfirst, CachedStore.allOrNothing_of_streams hmemory built_page (.inl hfirst),
    hsecond, CachedStore.allOrNothing_of_streams hmemory built_page (.inl hsecond)⟩

end World

end Chronicle
