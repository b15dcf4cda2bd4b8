import Chronicle.Proofs.Growth
import Chronicle.Proofs.PlainSite
import Chronicle.Proofs.WorkingCopies

/-!
# What the requests of a stream store do

Each request of a node's stream store is summed up once: what it answers and what it leaves of
the world. A fetch answers with the view of the node and caches it. A write ends in one of the
three ways of `Wrote`, an append in one of the two of `Appended`; what both store is `Stored`.
-/

namespace Chronicle

/-- `log'` is `log` after what is pending in `t` was stored. -/
structure Stored (log log' : EventLog) (t : Timeline) : Prop where
  domain : ∃ time headers ids, log'.events (t.key .domain) = log.events (t.key .domain) ++
    EventLog.stamped (log.version (t.key .domain)) time headers ids t.pending
  snapshot :
    match t.pendingSnapshot with
    | none => log'.events (t.key .snapshot) = log.events (t.key .snapshot)
    | some s => ∃ record, record.payload = s.toJson ∧
        log'.events (t.key .snapshot) = log.events (t.key .snapshot) ++ [record]
  others : ∀ (stream : StreamRef) (lane : Lane), lane ≠ .oob → stream.key lane ≠ t.key lane →
    log'.events (stream.key lane) = log.events (stream.key lane)
  numbered : log.Numbered → log'.Numbered
  metadata : log'.metadata = log.metadata
  grows : ∀ key, log.events key <+: log'.events key
  all : t.Sound → ∀ x : Lane × String × Json, x.1 ≠ .snapshot →
    occurrences x log'.all = occurrences x log.all + occurrences x t.batch

def Timeline.storedVersion (t : Timeline) (log : EventLog) : Int :=
  if t.pending = [] then t.version else log.version (t.key .domain) + t.pending.length

namespace CachedStore

section Parts

variable {m : Type → Type} [Monad m]

theorem record_ne_nil (record : Event) : [record] ≠ [] := List.cons_ne_nil record []

/-- What a write stores behind the domain events: the out-of-band events, then the snapshot. -/
def storeRest (st : CachedStore m) (t : Timeline) (headers : Headers) (version : Int) :
    ExceptT StoreError m Int := do
  st.writeOobs headers t.oobBatches
  match t.pendingSnapshot with
  | some s =>
    let record := snapshotRecord t s (← st.surroundings.freshId)
    discard (st.events.write (t.key .snapshot) ⟨[record], record_ne_nil record⟩ headers none :
      ExceptT StoreError m _)
  | none => pure ()
  pure version

theorem store_eq (st : CachedStore m) (commitId : Uuid) (t : Timeline) (headers : Headers)
    (expected : Option Int) :
    st.store commitId t headers expected = (do
      st.ensureWritable (t.key .domain)
      let version ←
        match NonEmptyList.ofList? t.pending with
        | some events => (st.events.write (t.key .domain) events
            (headers.insert Headers.commitId commitId.text) expected : ExceptT StoreError m _)
        | none => pure t.version
      st.storeRest t (headers.insert Headers.commitId commitId.text) version) :=
  rfl

end Parts

variable {σ : Type} {st : CachedStore (StateM σ)} {a b : σ} {commitId : Uuid} {t : Timeline}
  {headers : Headers} {r : Except StoreError Int}

/-- A checked write answers as the storing does; after that only the cache may change. -/
theorem store_of_write (h : Runs (st.write commitId t headers).run a r b) :
    ∃ c, Runs (st.store commitId t headers (some t.version)).run a r c ∧
      (b = c ∨ ∃ f u, Runs (st.cache.modify f) c u b) := by
  simp only [CachedStore.write, runs_except_lift_bind] at h
  obtain ⟨result, c, hstore, h⟩ := h
  cases result with
  | ok version =>
    simp only [CachedStore.remember, runs_except_monadLift_bind, runs_except_pure] at h
    obtain ⟨u, _, hcache, rfl, rfl⟩ := h
    exact ⟨c, hstore, .inr ⟨_, u, hcache⟩⟩
  | error err =>
    by_cases hversion : err.versionConflict?.isSome
    · simp only [hversion, if_true, CachedStore.evict, runs_except_monadLift_bind,
        runs_throw] at h
      obtain ⟨u, _, hcache, rfl, rfl⟩ := h
      exact ⟨c, hstore, .inr ⟨_, u, hcache⟩⟩
    · rw [Bool.not_eq_true] at hversion
      simp only [hversion, Bool.false_eq_true, if_false, runs_throw] at h
      obtain ⟨rfl, rfl⟩ := h
      exact ⟨b, hstore, .inl rfl⟩

/-- An unchecked write answers as the storing does; after that the cache changes. -/
theorem store_of_append (h : Runs (st.append commitId t headers).run a r b) :
    ∃ c, Runs (st.store commitId t headers none).run a r c ∧
      ∃ f u, Runs (st.cache.modify f) c u b := by
  simp only [CachedStore.append, CachedStore.evict, runs_except_lift_bind,
    runs_except_monadLift_bind] at h
  obtain ⟨result, c, hstore, u, _, hcache, h⟩ := h
  cases result with
  | ok version =>
    obtain ⟨rfl, rfl⟩ := runs_except_pure.1 h
    exact ⟨c, hstore, _, u, hcache⟩
  | error err =>
    obtain ⟨rfl, rfl⟩ := runs_throw.1 h
    exact ⟨c, hstore, _, u, hcache⟩

end CachedStore

/-- An instance of a stream store on a world: its identity, how long freezes count for it, and the
number of its cache. -/
structure Instance where
  owner : Uuid
  freezeTimeout : Span
  cache : Nat
deriving DecidableEq

namespace Instance

open World

def cached (k : Instance) (opened : Moment) : CachedStore (StateM World) where
  events := (site opened).events
  cache := cacheCell cell k.cache
  surroundings := surroundings cell
  owner := k.owner
  freezeTimeout := k.freezeTimeout

def store (k : Instance) (opened : Moment) : StreamStore (StateM World) :=
  (k.cached opened).streams

@[simp] theorem events_cached (k : Instance) (opened : Moment) :
    (k.cached opened).events = (site opened).events := rfl

@[simp] theorem cache_cached (k : Instance) (opened : Moment) :
    (k.cached opened).cache = cacheCell cell k.cache := rfl

@[simp] theorem surroundings_cached (k : Instance) (opened : Moment) :
    (k.cached opened).surroundings = surroundings cell := rfl

@[simp] theorem owner_cached (k : Instance) (opened : Moment) :
    (k.cached opened).owner = k.owner := rfl

@[simp] theorem freezeTimeout_cached (k : Instance) (opened : Moment) :
    (k.cached opened).freezeTimeout = k.freezeTimeout := rfl

variable {k : Instance} {opened : Moment} {w w' : World}

theorem runs_readSnapshot {stream : StreamRef} {r : Except StoreError (Option Snapshot)} :
    Runs ((k.cached opened).readSnapshot stream).run w r w' ↔
      r = w.log.lastSnapshot stream ∧ w' = w := by
  simp only [CachedStore.readSnapshot, events_cached, runs_except_bind, runs_readBack,
    reduceCtorEq, false_and, exists_false, false_or, Except.ok.injEq, and_assoc,
    exists_and_left, exists_eq_left, EventLog.lastSnapshot]
  cases w.log.readBack (stream.key .snapshot) 1 with
  | nil => simp
  | cons record rest => cases hd : Snapshot.decode record.payload <;> simp [hd]

theorem runs_load {stream : StreamRef} {r : Except StoreError Timeline} :
    Runs ((k.cached opened).load stream).run w r w' ↔
      r = w.log.timeline stream ∧ w' = w := by
  simp only [CachedStore.load, events_cached, runs_except_bind, runs_readSnapshot, runs_read,
    EventLog.timeline]
  cases w.log.lastSnapshot stream with
  | error err => simp [Except.map, and_comm]
  | ok s => cases s <;> simp [Except.map]

theorem runs_fetch {stream : StreamRef} {r : Except StoreError Timeline} :
    Runs ((k.store opened).fetch stream) w r w' ↔
      r = w.view k.cache stream ∧ w' = w.viewed k.cache stream := by
  change Runs ((k.cached opened).fetch stream).run w r w' ↔ _
  simp only [CachedStore.fetch, cache_cached, runs_except_monadLift_bind, runs_cache_get,
    and_assoc, exists_and_left, exists_eq_left]
  cases hc : (w.cache k.cache)[stream.key .domain]? with
  | some t => simp [view, viewed, hc]
  | none =>
    simp only [runs_except_bind, runs_load, view, viewed, hc]
    cases w.log.timeline stream with
    | error err => simp [and_comm]
    | ok t =>
      simp only [CachedStore.remember, cache_cached, runs_except_monadLift, runs_cache_modify,
        runs_except_pure, remember]
      simp [and_comm]

theorem runs_ensureWritable {key : String} {r : Except StoreError Unit} :
    Runs ((k.cached opened).ensureWritable key).run w r w' ↔
      r = (match w.holder k.owner k.freezeTimeout key with
        | some owner => .error (.frozen key owner)
        | none => .ok ()) ∧ w' = w := by
  simp only [CachedStore.ensureWritable, events_cached, runs_except_bind, runs_metadata, holder,
    reduceCtorEq, false_and, exists_false, false_or, Except.ok.injEq, and_assoc,
    exists_and_left, exists_eq_left]
  cases (w.log.metadataOf key).2.frozen with
  | none => simp
  | some f =>
    simp only [surroundings_cached, runs_except_monadLift_bind, runs_now, and_assoc,
      exists_and_left, exists_eq_left, owner_cached, freezeTimeout_cached]
    by_cases hf : f.owner = k.owner ∨ CachedStore.isStale k.freezeTimeout w.wall f
    · simp [hf]
    · simp [hf]

private theorem keys_batch {batch : String × List Event} {rest : List (String × List Event)}
    {p : String → Prop} (h : ∀ b ∈ batch :: rest, p b.1) : p batch.1 ∧ ∀ b ∈ rest, p b.1 :=
  ⟨h _ (List.mem_cons_self ..), fun b hb => h b (List.mem_cons_of_mem _ hb)⟩

theorem runs_writeOobs {headers : Headers} {batches : List (String × List Event)}
    {p : String → Prop} (hk : ∀ b ∈ batches, p b.1) {r : Except StoreError Unit}
    (h : Runs ((k.cached opened).writeOobs headers batches).run w r w') :
    r = .ok () ∧ ∃ i log, w' = w.logged i log ∧
      EventLog.Grown w.log log p (batches.flatMap Prod.snd) := by
  induction batches generalizing w with
  | nil =>
    obtain ⟨rfl, rfl⟩ := runs_except_pure.1 h
    exact ⟨rfl, _, _, rfl, .refl _ _⟩
  | cons batch rest ih =>
    obtain ⟨key, events⟩ := batch
    obtain ⟨hkey, hrest⟩ := keys_batch hk
    simp only [CachedStore.writeOobs, events_cached] at h
    cases events with
    | nil =>
      simp only [NonEmptyList.ofList?] at h
      simpa using ih hrest h
    | cons e es =>
      simp only [NonEmptyList.ofList?, runs_except_discard_bind] at h
      rcases h with ⟨err, hw, -⟩ | ⟨v, t, hw, h⟩
      · rcases runs_write hw with ⟨_, hc, -⟩ | ⟨-, _, _, hr, -⟩
        · cases hc
        · cases hr
      · rcases runs_write hw with ⟨_, hc, -⟩ | ⟨-, i, ids, -, rfl⟩
        · cases hc
        · obtain ⟨rfl, j, log, rfl, hg⟩ := ih hrest h
          refine ⟨rfl, j, log, rfl, ?_⟩
          exact ((EventLog.Grown.append _ key ⟨e :: es, _⟩ _ _ _).trans hg).mono (by
            rintro other (rfl | hother)
            · exact hkey
            · exact hother)

/-- After the domain events, the out-of-band events and the snapshot are stored. -/
private theorem runs_storeRest {t : Timeline} {headers : Headers} {v : Int}
    {r : Except StoreError Int}
    (h : Runs ((k.cached opened).storeRest t headers v).run w r w') :
    r = .ok v ∧ ∃ i log added, w' = w.logged i log ∧ (∀ e ∈ added, e.lane = .snapshot) ∧
      EventLog.Grown w.log log
        (fun key => (∃ channel, key = t.stream.channelKey channel) ∨ key = t.key .snapshot)
        (t.oobBatches.flatMap Prod.snd ++ added) ∧
      match t.pendingSnapshot with
      | none => log.events (t.key .snapshot) = w.log.events (t.key .snapshot)
      | some s => ∃ record, record.payload = s.toJson ∧
          log.events (t.key .snapshot) = w.log.events (t.key .snapshot) ++ [record] := by
  let p := fun key => ∃ channel, key = t.stream.channelKey channel
  have hk : ∀ b ∈ t.oobBatches, p b.1 := fun b hb => (Timeline.mem_oobBatches hb).2
  rw [CachedStore.storeRest, runs_except_bind] at h
  rcases h with ⟨err, ho, -⟩ | ⟨⟨⟩, w₁, ho, h⟩
  · obtain ⟨he, -⟩ := runs_writeOobs (p := p) hk ho
    cases he
  · obtain ⟨-, i, log, rfl, hg⟩ := runs_writeOobs (p := p) hk ho
    have hsnap : log.events (t.key .snapshot) = w.log.events (t.key .snapshot) :=
      hg.frame _ fun ⟨channel, hc⟩ => StreamRef.key_ne_channelKey _ _ (by decide) _ hc
    cases hs : t.pendingSnapshot with
    | none =>
      rw [hs] at h
      obtain ⟨rfl, rfl⟩ := runs_except_pure.1 h
      refine ⟨rfl, i, log, [], rfl, by simp, ?_, hsnap⟩
      simpa using hg.mono fun key => Or.inl
    | some s =>
      rw [hs] at h
      simp only [surroundings_cached, events_cached, runs_except_monadLift_bind,
        runs_except_discard_bind] at h
      obtain ⟨id, w₂, hid, h⟩ := h
      obtain ⟨j, rfl⟩ := runs_freshId hid
      rcases h with ⟨err, hw, -⟩ | ⟨_, _, hw, h⟩
      · rcases runs_write hw with ⟨_, hc, -⟩ | ⟨-, _, _, hr, -⟩
        · cases hc
        · cases hr
      · rcases runs_write hw with ⟨_, hc, -⟩ | ⟨-, j, ids, -, rfl⟩
        · cases hc
        · obtain ⟨rfl, rfl⟩ := runs_except_pure.1 h
          refine ⟨rfl, j, _, _, rfl, ?_, hg.trans (.append ..), ?_⟩
          · simp [CachedStore.snapshotRecord]
          · have ha := EventLog.events_append_self log (t.key .snapshot)
              ⟨[CachedStore.snapshotRecord t s id], by simp⟩ headers ids w.wall
            rw [hsnap] at ha
            exact ⟨_, rfl, ha⟩

private theorem stored_of_grown {log log₁ log₂ : EventLog} {t : Timeline} {added : List Event}
    (hd : EventLog.Grown log log₁ (· = t.key .domain) t.pending)
    (hdomain : ∃ time headers ids, log₁.events (t.key .domain) = log.events (t.key .domain) ++
      EventLog.stamped (log.version (t.key .domain)) time headers ids t.pending)
    (hl : ∀ e ∈ added, e.lane = .snapshot)
    (hr : EventLog.Grown log₁ log₂
      (fun key => (∃ channel, key = t.stream.channelKey channel) ∨ key = t.key .snapshot)
      (t.oobBatches.flatMap Prod.snd ++ added))
    (hsnap : match t.pendingSnapshot with
      | none => log₂.events (t.key .snapshot) = log₁.events (t.key .snapshot)
      | some s => ∃ record, record.payload = s.toJson ∧
          log₂.events (t.key .snapshot) = log₁.events (t.key .snapshot) ++ [record]) :
    Stored log log₂ t where
  domain := by
    obtain ⟨time, headers, ids, he⟩ := hdomain
    refine ⟨time, headers, ids, ?_⟩
    rw [hr.frame _ ?_, he]
    rintro (⟨channel, hc⟩ | hs)
    · exact StreamRef.key_ne_channelKey _ _ (by decide) _ hc
    · exact StreamRef.key_ne_key _ _ (by decide) hs
  snapshot := by
    rw [← hd.frame (t.key .snapshot) (StreamRef.key_ne_key _ _ (by decide))]
    exact hsnap
  others := by
    intro stream lane hlane hne
    have key_ne : ∀ b : Lane, stream.key lane ≠ t.key b := by
      rintro b hb
      by_cases hlb : lane = b
      · exact hne (hlb ▸ hb)
      · exact StreamRef.key_ne_key _ _ hlb hb
    rw [hr.frame, hd.frame _ (key_ne .domain)]
    rintro (⟨channel, hc⟩ | hs)
    · exact StreamRef.key_ne_channelKey _ _ hlane _ hc
    · exact key_ne .snapshot hs
  numbered := hr.numbered ∘ hd.numbered
  metadata := hr.metadata.trans hd.metadata
  grows key := (hd.grows key).trans (hr.grows key)
  all := by
    intro hs x hx
    have hadded : occurrences x added = 0 :=
      occurrences_eq_zero fun e he => by simp [hl e he, hx.symm]
    rw [hr.all, hd.all, occurrences_append, occurrences_perm x hs.oobBatches_perm, hadded,
      Timeline.batch, occurrences_append]
    omega

/-- What is pending is stored, unless the stream is held or the check of the version fails. -/
theorem runs_store {commitId : Uuid} {t : Timeline} {headers : Headers} {expected : Option Int}
    {r : Except StoreError Int}
    (h : Runs ((k.cached opened).store commitId t headers expected).run w r w') :
    (∃ owner, w.holder k.owner k.freezeTimeout (t.key .domain) = some owner ∧
      r = .error (.frozen (t.key .domain) owner) ∧ w' = w) ∨
    w.holder k.owner k.freezeTimeout (t.key .domain) = none ∧
      ((t.pending ≠ [] ∧ ∃ err, w.log.check (t.key .domain) expected = .error err ∧
        r = .error err ∧ w' = w) ∨
      ((t.pending ≠ [] → w.log.check (t.key .domain) expected = .ok ()) ∧
        r = .ok (t.storedVersion w.log) ∧ ∃ i log, w' = w.logged i log ∧ Stored w.log log t)) := by
  rw [CachedStore.store_eq, runs_except_bind] at h
  rcases h with ⟨err, he, rfl⟩ | ⟨⟨⟩, w₁, he, h⟩
  · obtain ⟨he, rfl⟩ := runs_ensureWritable.1 he
    cases ho : w'.holder k.owner k.freezeTimeout (t.key .domain) with
    | none => simp [ho] at he
    | some owner =>
      simp only [ho, Except.error.injEq] at he
      exact .inl ⟨owner, rfl, by rw [he], rfl⟩
  · obtain ⟨he, rfl⟩ := runs_ensureWritable.1 he
    have hfree : w₁.holder k.owner k.freezeTimeout (t.key .domain) = none := by
      cases ho : w₁.holder k.owner k.freezeTimeout (t.key .domain) with
      | none => rfl
      | some owner => simp [ho] at he
    refine .inr ⟨hfree, ?_⟩
    cases hp : t.pending with
    | nil =>
      simp only [hp, NonEmptyList.ofList?, pure_bind] at h
      obtain ⟨rfl, i, log, added, rfl, hl, hg, hsnap⟩ := runs_storeRest h
      -- Without domain events no version is checked.
      refine .inr ⟨fun hne => absurd rfl hne, by simp [Timeline.storedVersion, hp], i, log, rfl,
        stored_of_grown (hp ▸ .refl _ _) ?_ hl hg hsnap⟩
      exact ⟨w₁.wall, headers, [], by simp [hp, EventLog.stamped]⟩
    | cons e es =>
      simp only [hp, NonEmptyList.ofList?, events_cached] at h
      rw [runs_except_bind] at h
      rcases h with ⟨err, hw, rfl⟩ | ⟨v, w₂, hw, h⟩
      · rcases runs_write hw with ⟨_, hc, hr, rfl⟩ | ⟨-, _, _, hr, -⟩
        · cases hr
          exact .inl ⟨by simp, err, hc, rfl, rfl⟩
        · cases hr
      · rcases runs_write hw with ⟨_, -, hr, -⟩ | ⟨hc, i, ids, hv, rfl⟩
        · cases hr
        · cases hv
          obtain ⟨rfl, j, log, added, rfl, hl, hg, hsnap⟩ := runs_storeRest h
          refine .inr ⟨fun _ => hc, by simp [Timeline.storedVersion, hp, EventLog.append], j, log,
            rfl, stored_of_grown ?_ ?_ hl hg hsnap⟩
          · rw [hp]
            exact .append ..
          · rw [hp]
            exact ⟨_, _, _, EventLog.events_append_self ..⟩

/-- A checked write is refused for a claim or for its version, or stores and caches what was
stored. -/
theorem runs_writeTimeline {commitId : Uuid} {t : Timeline} {headers : Headers}
    {r : Except StoreError Int}
    (h : Runs ((k.store opened).write commitId t headers) w r w') :
    (∃ owner, w.holder k.owner k.freezeTimeout (t.key .domain) = some owner ∧
      r = .error (.frozen (t.key .domain) owner) ∧ w' = w) ∨
    (t.pending ≠ [] ∧ w.log.version (t.key .domain) ≠ t.version ∧
      r = .error (.version ⟨t.key .domain, t.version, w.log.version (t.key .domain)⟩) ∧
      w' = w.forget k.cache (t.key .domain)) ∨
    (t.pending ≠ [] → w.log.version (t.key .domain) = t.version) ∧
      r = .ok (t.storedVersion w.log) ∧ ∃ i log, Stored w.log log t ∧
        w' = (w.logged i log).remember k.cache (t.key .domain) t.settle := by
  change Runs ((k.cached opened).write commitId t headers).run w r w' at h
  simp only [CachedStore.write, runs_except_lift_bind] at h
  obtain ⟨result, w₁, hs, h⟩ := h
  rcases runs_store hs with ⟨owner, hheld, rfl, rfl⟩ | ⟨hfree, h'⟩
  · obtain ⟨rfl, rfl⟩ := runs_throw.1 h
    exact .inl ⟨owner, hheld, rfl, rfl⟩
  · rcases h' with ⟨hpending, err, hc, rfl, rfl⟩ | ⟨hc, rfl, i, log, rfl, hstored⟩
    · have hv : w₁.log.version (t.key .domain) ≠ t.version := by
        intro hv
        simp [EventLog.check, EventLog.verify, hv] at hc
      simp only [EventLog.check, EventLog.verify, if_neg hv, Except.error.injEq] at hc
      subst hc
      simp only [StoreError.versionConflict?, Option.isSome_some, if_true, CachedStore.evict,
        cache_cached, runs_except_monadLift_bind, runs_cache_modify, runs_throw] at h
      obtain ⟨_, _, rfl, rfl, rfl⟩ := h
      exact .inr (.inl ⟨hpending, hv, rfl, rfl⟩)
    · have hv : t.pending ≠ [] → w.log.version (t.key .domain) = t.version := by
        intro hpending
        by_contra hne
        simpa [EventLog.check, EventLog.verify, hne] using hc hpending
      simp only [CachedStore.remember, cache_cached, runs_except_monadLift_bind,
        runs_cache_modify, runs_except_pure] at h
      obtain ⟨_, _, rfl, rfl, rfl⟩ := h
      exact .inr (.inr ⟨hv, rfl, i, log, hstored, rfl⟩)

/-- An unchecked write is refused for a claim, or stores; nothing is cached after it. -/
theorem runs_appendTimeline {commitId : Uuid} {t : Timeline} {headers : Headers}
    {r : Except StoreError Int}
    (h : Runs ((k.store opened).append commitId t headers) w r w') :
    (∃ owner, w.holder k.owner k.freezeTimeout (t.key .domain) = some owner ∧
      r = .error (.frozen (t.key .domain) owner) ∧ w' = w.forget k.cache (t.key .domain)) ∨
    r = .ok (t.storedVersion w.log) ∧ ∃ i log, Stored w.log log t ∧
      w' = (w.logged i log).forget k.cache (t.key .domain) := by
  change Runs ((k.cached opened).append commitId t headers).run w r w' at h
  simp only [CachedStore.append, CachedStore.evict, cache_cached, runs_except_lift_bind,
    runs_except_monadLift_bind, runs_cache_modify] at h
  obtain ⟨result, w₁, hs, _, _, rfl, h⟩ := h
  rcases runs_store hs with ⟨owner, hheld, rfl, rfl⟩ | ⟨hfree, h'⟩
  · obtain ⟨rfl, rfl⟩ := runs_throw.1 h
    exact .inl ⟨owner, hheld, rfl, rfl⟩
  · rcases h' with ⟨-, err, hc, -⟩ | ⟨-, rfl, i, log, rfl, hstored⟩
    · cases hc
    · obtain ⟨rfl, rfl⟩ := runs_except_pure.1 h
      exact .inr ⟨rfl, i, log, hstored, rfl⟩

/-- A stream is claimed, unless it is held and the claim on it is not stale. -/
theorem runs_freeze {t : Timeline} {r : Except StoreError Unit} :
    Runs ((k.store opened).freeze t) w r w' ↔
      match (w.log.metadataOf (t.key .domain)).2.frozen with
      | some f =>
        if CachedStore.isStale k.freezeTimeout w.wall f then
          r = .ok () ∧ w' = w.claimed (t.key .domain) (some ⟨k.owner, w.wall⟩)
        else r = .error (.frozen (t.key .domain) f.owner) ∧ w' = w
      | none => r = .ok () ∧ w' = w.claimed (t.key .domain) (some ⟨k.owner, w.wall⟩) := by
  change Runs ((k.cached opened).freeze t).run w r w' ↔ _
  simp only [CachedStore.freeze, events_cached, surroundings_cached, freezeTimeout_cached,
    owner_cached]
  rw [runs_except_bind]
  simp only [runs_metadata, runs_except_monadLift_bind, runs_now, reduceCtorEq, false_and,
    exists_false, false_or, Except.ok.injEq, and_assoc, exists_and_left, exists_eq_left]
  cases (w.log.metadataOf (t.key .domain)).2.frozen with
  | none => simp [runs_except_discard, runs_writeMetadata, Except.map, and_comm]
  | some f =>
    by_cases hf : CachedStore.isStale k.freezeTimeout w.wall f
    · simp [hf, runs_except_discard, runs_writeMetadata, Except.map, and_comm]
    · simp [hf]

theorem runs_unfreeze {t : Timeline} {r : Except StoreError Unit} :
    Runs ((k.store opened).unfreeze t) w r w' ↔ r = .ok () ∧
      w' = match (w.log.metadataOf (t.key .domain)).2.frozen with
        | some f => if f.owner = k.owner then w.claimed (t.key .domain) none else w
        | none => w := by
  change Runs ((k.cached opened).unfreeze t).run w r w' ↔ _
  simp only [CachedStore.unfreeze, events_cached, owner_cached, runs_except_bind, runs_metadata,
    reduceCtorEq, false_and, exists_false, false_or, Except.ok.injEq, and_assoc,
    exists_and_left, exists_eq_left]
  cases (w.log.metadataOf (t.key .domain)).2.frozen with
  | none => simp
  | some f =>
    by_cases hf : f.owner = k.owner
    · simp [hf, runs_except_discard, runs_writeMetadata, Except.map, and_comm]
    · simp [hf]

theorem runs_verifyTimeline {t : Timeline} {r : Except StoreError Unit} :
    Runs ((k.store opened).verify t) w r w' ↔
      r = w.log.verify (t.key .domain) t.version ∧
        w' = if w.log.version (t.key .domain) = t.version then w
          else w.forget k.cache (t.key .domain) := by
  change Runs ((k.cached opened).verify t).run w r w' ↔ _
  simp only [CachedStore.verify, events_cached, runs_except_lift_bind, runs_verify, and_assoc,
    exists_and_left, exists_eq_left]
  by_cases hv : w.log.version (t.key .domain) = t.version
  · simp [EventLog.verify, hv]
  · simp only [EventLog.verify, if_neg hv, StoreError.versionConflict?, Option.isSome_some,
      if_true, CachedStore.evict, cache_cached, runs_except_monadLift_bind, runs_cache_modify,
      runs_throw, forget]
    simp

end Instance

def Node.asInstance (n : Node) : Instance := ⟨n.owner, n.freezeTimeout, n.cache⟩

namespace World

variable {n : Node} {opened : Moment} {w w' : World}

theorem runs_fetch {stream : StreamRef} {r : Except StoreError Timeline} :
    Runs ((n.store (site opened)).fetch stream) w r w' ↔
      r = w.view n.cache stream ∧ w' = w.viewed n.cache stream := by
  change Runs ((n.asInstance.store opened).fetch stream) w r w' ↔ _
  exact Instance.runs_fetch

/-- How a checked write of a timeline ends. -/
inductive Wrote (n : Node) (w : World) (t : Timeline) : Except StoreError Int → World → Prop where
  | held {owner : Uuid}
      (hheld : w.holder n.owner n.freezeTimeout (t.key .domain) = some owner) :
      Wrote n w t (.error (.frozen (t.key .domain) owner)) w
  | conflict (hpending : t.pending ≠ []) (hversion : w.log.version (t.key .domain) ≠ t.version) :
      Wrote n w t (.error (.version ⟨t.key .domain, t.version, w.log.version (t.key .domain)⟩))
        (w.forget n.cache (t.key .domain))
  | stored {i : Nat} {log : EventLog}
      (hversion : t.pending ≠ [] → w.log.version (t.key .domain) = t.version)
      (hstored : Stored w.log log t) :
      Wrote n w t (.ok (t.storedVersion w.log))
        ((w.logged i log).remember n.cache (t.key .domain) t.settle)

/-- How an unchecked write of a timeline ends. -/
inductive Appended (n : Node) (w : World) (t : Timeline) :
    Except StoreError Int → World → Prop where
  | held {owner : Uuid}
      (hheld : w.holder n.owner n.freezeTimeout (t.key .domain) = some owner) :
      Appended n w t (.error (.frozen (t.key .domain) owner)) (w.forget n.cache (t.key .domain))
  | stored {i : Nat} {log : EventLog} (hstored : Stored w.log log t) :
      Appended n w t (.ok (t.storedVersion w.log))
        ((w.logged i log).forget n.cache (t.key .domain))

theorem Wrote.grows {t : Timeline} {r : Except StoreError Int} (h : Wrote n w t r w')
    (key : String) : w.log.events key <+: w'.log.events key := by
  cases h with
  | held hheld => exact List.prefix_refl _
  | conflict hpending hversion => exact List.prefix_refl _
  | stored hversion hstored => exact hstored.grows key

theorem Appended.grows {t : Timeline} {r : Except StoreError Int} (h : Appended n w t r w')
    (key : String) : w.log.events key <+: w'.log.events key := by
  cases h with
  | held hheld => exact List.prefix_refl _
  | stored hstored => exact hstored.grows key

theorem wrote_of_runs {commitId : Uuid} {t : Timeline} {headers : Headers}
    {r : Except StoreError Int}
    (h : Runs ((n.store (site opened)).write commitId t headers) w r w') : Wrote n w t r w' := by
  change Runs ((n.asInstance.store opened).write commitId t headers) w r w' at h
  rcases Instance.runs_writeTimeline h with ⟨owner, hheld, rfl, rfl⟩ |
    ⟨hpending, hversion, rfl, rfl⟩ | ⟨hversion, rfl, i, log, hstored, rfl⟩
  · exact .held hheld
  · exact .conflict hpending hversion
  · exact .stored hversion hstored

theorem appended_of_runs {commitId : Uuid} {t : Timeline} {headers : Headers}
    {r : Except StoreError Int}
    (h : Runs ((n.store (site opened)).append commitId t headers) w r w') :
    Appended n w t r w' := by
  change Runs ((n.asInstance.store opened).append commitId t headers) w r w' at h
  rcases Instance.runs_appendTimeline h with ⟨owner, hheld, rfl, rfl⟩ | ⟨rfl, i, log, hstored, rfl⟩
  · exact .held hheld
  · exact .stored hstored

theorem runs_freeze_iff {t : Timeline} {r : Except StoreError Unit} :
    Runs ((n.store (site opened)).freeze t) w r w' ↔
      match (w.log.metadataOf (t.key .domain)).2.frozen with
      | some f =>
        if CachedStore.isStale n.freezeTimeout w.wall f then
          r = .ok () ∧ w' = w.claimed (t.key .domain) (some ⟨n.owner, w.wall⟩)
        else r = .error (.frozen (t.key .domain) f.owner) ∧ w' = w
      | none => r = .ok () ∧ w' = w.claimed (t.key .domain) (some ⟨n.owner, w.wall⟩) := by
  change Runs ((n.asInstance.store opened).freeze t) w r w' ↔ _
  exact Instance.runs_freeze

theorem runs_unfreeze_iff {t : Timeline} {r : Except StoreError Unit} :
    Runs ((n.store (site opened)).unfreeze t) w r w' ↔ r = .ok () ∧
      w' = match (w.log.metadataOf (t.key .domain)).2.frozen with
        | some f => if f.owner = n.owner then w.claimed (t.key .domain) none else w
        | none => w := by
  change Runs ((n.asInstance.store opened).unfreeze t) w r w' ↔ _
  exact Instance.runs_unfreeze

theorem runs_freeze {t : Timeline} {r : Except StoreError Unit}
    (h : Runs ((n.store (site opened)).freeze t) w r w') : ∃ data, w' = w.annotated data := by
  rw [runs_freeze_iff] at h
  split at h
  · split at h
    · exact ⟨_, h.2⟩
    · exact ⟨w.log.metadata, h.2⟩
  · exact ⟨_, h.2⟩

theorem runs_unfreeze {t : Timeline} {r : Except StoreError Unit}
    (h : Runs ((n.store (site opened)).unfreeze t) w r w') :
    r = .ok () ∧ ∃ data, w' = w.annotated data := by
  obtain ⟨rfl, rfl⟩ := runs_unfreeze_iff.1 h
  refine ⟨rfl, ?_⟩
  split
  · split
    · exact ⟨_, rfl⟩
    · exact ⟨w.log.metadata, rfl⟩
  · exact ⟨w.log.metadata, rfl⟩

theorem runs_verifyTimeline {t : Timeline} {r : Except StoreError Unit} :
    Runs ((n.store (site opened)).verify t) w r w' ↔
      r = w.log.verify (t.key .domain) t.version ∧
        w' = if w.log.version (t.key .domain) = t.version then w
          else w.forget n.cache (t.key .domain) := by
  change Runs ((n.asInstance.store opened).verify t) w r w' ↔ _
  exact Instance.runs_verifyTimeline

end World

end Chronicle
