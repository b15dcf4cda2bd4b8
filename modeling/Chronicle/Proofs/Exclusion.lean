import Mathlib.Data.List.Infix
import Chronicle.Proofs.Accounts
import Chronicle.Proofs.Freezing

/-!
# Streams with one writer

Several instances of a stream store work on one log, each with a timeout of its own. From the freeze
of a stream on, and until the instance that froze it lets go of it or the freeze is stale for one of
them, that instance is the only one that can write the stream, and nobody can freeze it. What is
asked meanwhile, and in which order, makes no difference. The free entries of the metadata stay as
they are in any case.
-/

namespace Chronicle

/-- What can be asked of several instances of a stream store, or a change of the clock. -/
inductive Access where
  | fetch (k : Instance) (stream : StreamRef)
  | write (k : Instance) (commitId : Uuid) (t : Timeline) (headers : Headers)
  | append (k : Instance) (commitId : Uuid) (t : Timeline) (headers : Headers)
  | verify (k : Instance) (t : Timeline)
  | freeze (k : Instance) (t : Timeline)
  | unfreeze (k : Instance) (t : Timeline)
  | setWall (time : Moment)

namespace Access

def instance? : Access → Option Instance
  | fetch k _ | write k _ _ _ | append k _ _ _ | verify k _ | freeze k _ | unfreeze k _ => some k
  | setWall _ => none

def Releases (owner : Uuid) (key : String) : Access → Prop
  | unfreeze k t => k.owner = owner ∧ t.key .domain = key
  | _ => False

instance (owner : Uuid) (key : String) : DecidablePred (Releases owner key)
  | unfreeze k t => inferInstanceAs (Decidable (k.owner = owner ∧ t.key .domain = key))
  | fetch .. | write .. | append .. | verify .. | freeze .. | setWall .. => .isFalse id

end Access

namespace World

variable {opened : Moment} {k a : Instance} {all : List Instance} {w w' w₁ : World} {f : Freeze}
  {key : String} {owner : Uuid} {access : Access} {accesses : List Access} {t : Timeline}

def serve (opened : Moment) (w : World) : Access → World
  | .fetch k stream => (((k.store opened).fetch stream).run w).2
  | .write k commitId t headers => (((k.store opened).write commitId t headers).run w).2
  | .append k commitId t headers => (((k.store opened).append commitId t headers).run w).2
  | .verify k t => (((k.store opened).verify t).run w).2
  | .freeze k t => (((k.store opened).freeze t).run w).2
  | .unfreeze k t => (((k.store opened).unfreeze t).run w).2
  | .setWall time => { w with wall := time }

def serveAll (opened : Moment) (w : World) (accesses : List Access) : World :=
  accesses.foldl (serve opened) w

/-- What an access leaves of a world, however the instance answers. -/
inductive Served (w : World) : Access → World → Prop where
  | same {access : Access} : Served w access w
  | viewed {k : Instance} {stream : StreamRef} :
      Served w (.fetch k stream) (w.viewed k.cache stream)
  | conflicted {k : Instance} {commitId : Uuid} {t : Timeline} {headers : Headers} :
      Served w (.write k commitId t headers) (w.forget k.cache (t.key .domain))
  | written {k : Instance} {commitId : Uuid} {t : Timeline} {headers : Headers} {i : Nat}
      {log : EventLog} (hstored : Stored w.log log t) :
      Served w (.write k commitId t headers)
        ((w.logged i log).remember k.cache (t.key .domain) t.settle)
  | refused {k : Instance} {commitId : Uuid} {t : Timeline} {headers : Headers} :
      Served w (.append k commitId t headers) (w.forget k.cache (t.key .domain))
  | appended {k : Instance} {commitId : Uuid} {t : Timeline} {headers : Headers} {i : Nat}
      {log : EventLog} (hstored : Stored w.log log t) :
      Served w (.append k commitId t headers) ((w.logged i log).forget k.cache (t.key .domain))
  | outdated {k : Instance} {t : Timeline} :
      Served w (.verify k t) (w.forget k.cache (t.key .domain))
  | claimed {k : Instance} {t : Timeline} (hfree : ∀ f, w.log.freeze? (t.key .domain) = some f →
        CachedStore.isStale k.freezeTimeout w.wall f = true) :
      Served w (.freeze k t) (w.claimed (t.key .domain) (some ⟨k.owner, w.wall⟩))
  | released {k : Instance} {t : Timeline} {f : Freeze}
      (hheld : w.log.freeze? (t.key .domain) = some f) (howner : f.owner = k.owner) :
      Served w (.unfreeze k t) (w.claimed (t.key .domain) none)
  | set {time : Moment} : Served w (.setWall time) { w with wall := time }

theorem served_serve (opened : Moment) (w : World) (access : Access) :
    w.Served access (w.serve opened access) := by
  cases access with
  | fetch k stream =>
    obtain ⟨r, w', h⟩ := Runs.total ((k.store opened).fetch stream) w
    simp only [serve, h.run_eq]
    rw [(Instance.runs_fetch.1 h).2]
    exact .viewed
  | write k commitId t headers =>
    obtain ⟨r, w', h⟩ := Runs.total ((k.store opened).write commitId t headers) w
    simp only [serve, h.run_eq]
    rcases Instance.runs_writeTimeline h with
      ⟨_, -, -, rfl⟩ | ⟨-, -, -, rfl⟩ | ⟨-, -, i, log, hstored, rfl⟩
    · exact .same
    · exact .conflicted
    · exact .written hstored
  | append k commitId t headers =>
    obtain ⟨r, w', h⟩ := Runs.total ((k.store opened).append commitId t headers) w
    simp only [serve, h.run_eq]
    rcases Instance.runs_appendTimeline h with ⟨_, -, -, rfl⟩ | ⟨-, i, log, hstored, rfl⟩
    · exact .refused
    · exact .appended hstored
  | verify k t =>
    obtain ⟨r, w', h⟩ := Runs.total ((k.store opened).verify t) w
    simp only [serve, h.run_eq]
    rw [(Instance.runs_verifyTimeline.1 h).2]
    split
    · exact .same
    · exact .outdated
  | freeze k t =>
    obtain ⟨r, w', h⟩ := Runs.total ((k.store opened).freeze t) w
    simp only [serve, h.run_eq]
    rw [Instance.runs_freeze] at h
    -- A claim is put over a stale one or where there is none. Otherwise nothing happens.
    split at h
    · rename_i f hf
      split at h
      · rename_i hstale
        rw [h.2]
        refine .claimed fun g hg => ?_
        rw [← Option.some.inj (hf.symm.trans hg)]
        exact hstale
      · rw [h.2]
        exact .same
    · rename_i hf
      rw [h.2]
      refine .claimed fun g hg => ?_
      cases hf.symm.trans hg
  | unfreeze k t =>
    obtain ⟨r, w', h⟩ := Runs.total ((k.store opened).unfreeze t) w
    simp only [serve, h.run_eq]
    rw [(Instance.runs_unfreeze.1 h).2]
    split
    · rename_i f hf
      split
      · rename_i howner
        exact .released hf howner
      · exact .same
    · exact .same
  | setWall time => exact .set

/-- An access leaves the metadata alone, or it puts another claim on one stream. A stream is claimed
only where it is free or the claim on it is stale, and only its owner gives a claim up. -/
inductive Claims (opened : Moment) (w : World) (access : Access) : Prop where
  | none (hsame : (w.serve opened access).log.metadata = w.log.metadata)
  | taken {k : Instance} {key : String} (hasked : access.instance? = some k)
      (hfree : ∀ f, w.log.freeze? key = some f →
        CachedStore.isStale k.freezeTimeout w.wall f = true)
      (hserve : w.serve opened access = w.claimed key (some ⟨k.owner, w.wall⟩))
  | released {f : Freeze} {key : String} (hheld : w.log.freeze? key = some f)
      (howner : access.Releases f.owner key) (hserve : w.serve opened access = w.claimed key none)

theorem claims_serve (opened : Moment) (w : World) (access : Access) : w.Claims opened access := by
  generalize hw : w.serve opened access = w'
  have hserved : w.Served access w' := hw ▸ served_serve opened w access
  cases hserved with
  | same => exact .none (by rw [hw])
  | conflicted | refused | outdated | set => exact .none (congrArg (·.log.metadata) hw)
  | viewed => exact .none (by rw [hw, log_viewed])
  | written hstored | appended hstored => exact .none (by rw [hw]; exact hstored.metadata)
  | claimed hfree => exact .taken rfl hfree hw
  | released hheld howner => exact .released hheld ⟨howner.symm, rfl⟩ hw

theorem custom_claimed (w : World) (key other : String) (frozen : Option Freeze) :
    ((w.claimed key frozen).log.metadataOf other).2.custom = (w.log.metadataOf other).2.custom := by
  rw [metadataOf_claimed]
  split
  · rename_i hk
    rw [hk]
  · rfl

theorem custom_serve (opened : Moment) (w : World) (access : Access) (key : String) :
    ((w.serve opened access).log.metadataOf key).2.custom = (w.log.metadataOf key).2.custom := by
  cases claims_serve opened w access with
  | none hsame => rw [EventLog.metadataOf, hsame, ← EventLog.metadataOf]
  | taken _ _ hserve => rw [hserve, custom_claimed]
  | released _ _ hserve => rw [hserve, custom_claimed]

theorem custom_serveAll (opened : Moment) (w : World) (accesses : List Access) (key : String) :
    ((w.serveAll opened accesses).log.metadataOf key).2.custom =
      (w.log.metadataOf key).2.custom := by
  induction accesses generalizing w with
  | nil => rfl
  | cons access rest ih =>
    exact (ih (w.serve opened access)).trans (custom_serve opened w access key)

/-- A freeze is stale for none of the instances. -/
def Fresh (all : List Instance) (f : Freeze) (w : World) : Prop :=
  ∀ k ∈ all, CachedStore.isStale k.freezeTimeout w.wall f = false

/-- A freeze that is not stale stands until its owner lets go of the stream. -/
theorem freeze?_serve (hheld : w.log.freeze? key = some f) (hfresh : w.Fresh all f)
    (hasked : ∀ k ∈ access.instance?, k ∈ all) (hkept : ¬ access.Releases f.owner key) :
    (w.serve opened access).log.freeze? key = some f := by
  cases claims_serve opened w access with
  | none hsame => rw [EventLog.freeze?_congr hsame, hheld]
  | @taken k other hby hfree hserve =>
    have hne : key ≠ other := by
      rintro rfl
      have hstale := hfree f hheld
      rw [hfresh k (hasked k hby)] at hstale
      cases hstale
    rw [hserve, freeze?_claimed, if_neg hne, hheld]
  | @released g other hother howner hserve =>
    have hne : key ≠ other := by
      rintro rfl
      rw [hheld] at hother
      cases hother
      exact hkept howner
    rw [hserve, freeze?_claimed, if_neg hne, hheld]

theorem freeze?_serveAll (hheld : w.log.freeze? key = some f)
    (hfresh : ∀ pre, pre <+: accesses → (w.serveAll opened pre).Fresh all f)
    (hasked : ∀ access ∈ accesses, ∀ k ∈ access.instance?, k ∈ all)
    (hkept : ∀ access ∈ accesses, ¬ access.Releases f.owner key) :
    (w.serveAll opened accesses).log.freeze? key = some f := by
  induction accesses generalizing w with
  | nil => exact hheld
  | cons access rest ih =>
    have hfirst : (w.serve opened access).log.freeze? key = some f :=
      freeze?_serve hheld (hfresh [] List.nil_prefix) (hasked access (List.mem_cons_self ..))
        (hkept access (List.mem_cons_self ..))
    refine ih hfirst (fun pre hpre => ?_) (fun a ha => hasked a (List.mem_cons_of_mem _ ha))
      fun a ha => hkept a (List.mem_cons_of_mem _ ha)
    exact hfresh (access :: pre) (List.cons_prefix_cons.2 ⟨rfl, hpre⟩)

theorem runs_store_of_held {commitId : Uuid} {headers : Headers} {expected : Option Int}
    (hheld : w.holder k.owner k.freezeTimeout (t.key .domain) = some owner) :
    Runs ((k.cached opened).store commitId t headers expected).run w
      (.error (.frozen (t.key .domain) owner)) w := by
  rw [CachedStore.store_eq, runs_except_bind]
  exact .inl ⟨_, Instance.runs_ensureWritable.2 (by simp [hheld]), rfl⟩

theorem runs_write_of_held {commitId : Uuid} {headers : Headers}
    (hheld : w.holder k.owner k.freezeTimeout (t.key .domain) = some owner) :
    Runs ((k.store opened).write commitId t headers) w
      (.error (.frozen (t.key .domain) owner)) w := by
  change Runs ((k.cached opened).write commitId t headers).run w _ w
  simp only [CachedStore.write, runs_except_lift_bind]
  exact ⟨_, w, runs_store_of_held hheld, runs_throw.2 ⟨rfl, rfl⟩⟩

theorem runs_append_of_held {commitId : Uuid} {headers : Headers}
    (hheld : w.holder k.owner k.freezeTimeout (t.key .domain) = some owner) :
    Runs ((k.store opened).append commitId t headers) w
      (.error (.frozen (t.key .domain) owner)) (w.forget k.cache (t.key .domain)) := by
  change Runs ((k.cached opened).append commitId t headers).run w _ _
  simp only [CachedStore.append, CachedStore.evict, Instance.cache_cached, runs_except_lift_bind,
    runs_except_monadLift_bind, runs_cache_modify]
  exact ⟨_, w, runs_store_of_held hheld, ⟨⟩, _, rfl, runs_throw.2 ⟨rfl, rfl⟩⟩

theorem ne_frozen_of_write {commitId : Uuid} {headers : Headers} {r : Except StoreError Int}
    (hfree : w.holder k.owner k.freezeTimeout (t.key .domain) = none)
    (h : Runs ((k.store opened).write commitId t headers) w r w') (stream : String) :
    r ≠ .error (.frozen stream owner) := by
  rcases Instance.runs_writeTimeline h with ⟨_, hheld, -⟩ | ⟨-, -, rfl, -⟩ | ⟨-, rfl, -⟩
  · rw [hfree] at hheld
    cases hheld
  · simp
  · simp

theorem ne_frozen_of_append {commitId : Uuid} {headers : Headers} {r : Except StoreError Int}
    (hfree : w.holder k.owner k.freezeTimeout (t.key .domain) = none)
    (h : Runs ((k.store opened).append commitId t headers) w r w') (stream : String) :
    r ≠ .error (.frozen stream owner) := by
  rcases Instance.runs_appendTimeline h with ⟨_, hheld, -⟩ | ⟨rfl, -⟩
  · rw [hfree] at hheld
    cases hheld
  · simp

theorem holder_eq_some {timeout : Span} (hheld : w.log.freeze? key = some f)
    (hfresh : CachedStore.isStale timeout w.wall f = false) (hother : owner ≠ f.owner) :
    w.holder owner timeout key = some f.owner := by
  have hf : (w.log.metadataOf key).2.frozen = some f := hheld
  simp [holder, hf, hfresh, Ne.symm hother]

/-- One instance holds a stream for itself. Whatever is asked now, nobody can freeze the stream, no
other instance can write it or let go of it, and its own writes are not refused for a freeze. A
request that is refused leaves the log as it is. -/
structure Exclusive (opened : Moment) (all : List Instance) (owner : Uuid) (key : String)
    (w : World) : Prop where
  freeze : ∀ k ∈ all, ∀ t : Timeline, t.key .domain = key →
    Runs ((k.store opened).freeze t) w (.error (.frozen key owner)) w
  write : ∀ k ∈ all, k.owner ≠ owner → ∀ commitId (t : Timeline) headers, t.key .domain = key →
    Runs ((k.store opened).write commitId t headers) w (.error (.frozen key owner)) w
  append : ∀ k ∈ all, k.owner ≠ owner → ∀ commitId (t : Timeline) headers, t.key .domain = key →
    Runs ((k.store opened).append commitId t headers) w (.error (.frozen key owner))
      (w.forget k.cache key)
  unfreeze : ∀ k ∈ all, k.owner ≠ owner → ∀ t : Timeline, t.key .domain = key →
    Runs ((k.store opened).unfreeze t) w (.ok ()) w
  ownWrite : ∀ k ∈ all, k.owner = owner → ∀ commitId (t : Timeline) headers r w',
    t.key .domain = key → Runs ((k.store opened).write commitId t headers) w r w' →
      ∀ stream holder, r ≠ .error (.frozen stream holder)
  ownAppend : ∀ k ∈ all, k.owner = owner → ∀ commitId (t : Timeline) headers r w',
    t.key .domain = key → Runs ((k.store opened).append commitId t headers) w r w' →
      ∀ stream holder, r ≠ .error (.frozen stream holder)

theorem exclusive_of_freeze (hheld : w.log.freeze? key = some f) (hfresh : w.Fresh all f) :
    w.Exclusive opened all f.owner key := by
  have hfrozen : (w.log.metadataOf key).2.frozen = some f := hheld
  have hown : ∀ k : Instance, k.owner = f.owner → w.holder k.owner k.freezeTimeout key = none :=
    fun k hk => holder_eq_none fun g hg => by
      rw [hheld] at hg
      cases hg
      exact hk.symm
  constructor
  · rintro k hk t rfl
    rw [Instance.runs_freeze]
    simp [hfrozen, hfresh k hk]
  · rintro k hk hother commitId t headers rfl
    exact runs_write_of_held (holder_eq_some hheld (hfresh k hk) hother)
  · rintro k hk hother commitId t headers rfl
    exact runs_append_of_held (holder_eq_some hheld (hfresh k hk) hother)
  · rintro k hk hother t rfl
    rw [Instance.runs_unfreeze]
    simp [hfrozen, Ne.symm hother]
  · rintro k hk howner commitId t headers r w' rfl h stream holder
    exact ne_frozen_of_write (hown k howner) h stream
  · rintro k hk howner commitId t headers r w' rfl h stream holder
    exact ne_frozen_of_append (hown k howner) h stream

/-- From a freeze on the instance that froze the stream holds it for itself, through everything that
is asked, until it lets go of the stream or the freeze is stale for one of the instances. The free
entries of all metadata are those from before the freeze. -/
theorem exclusive_serveAll
    (hfreeze : Runs ((a.store opened).freeze t) w (.ok ()) w₁)
    (hasked : ∀ access ∈ accesses, ∀ k ∈ access.instance?, k ∈ all)
    (hkept : ∀ access ∈ accesses, ¬ access.Releases a.owner (t.key .domain))
    (hfresh : ∀ pre, pre <+: accesses →
      (w₁.serveAll opened pre).Fresh all ⟨a.owner, w.wall⟩) :
    (w₁.serveAll opened accesses).Exclusive opened all a.owner (t.key .domain) ∧
      ∀ key, ((w₁.serveAll opened accesses).log.metadataOf key).2.custom =
        (w.log.metadataOf key).2.custom := by
  have hclaimed : w₁ = w.claimed (t.key .domain) (some ⟨a.owner, w.wall⟩) := by
    rw [Instance.runs_freeze] at hfreeze
    split at hfreeze
    · split at hfreeze
      · exact hfreeze.2
      · cases hfreeze.1
    · exact hfreeze.2
  constructor
  · have hheld : w₁.log.freeze? (t.key .domain) = some ⟨a.owner, w.wall⟩ := by
      rw [hclaimed, freeze?_claimed, if_pos rfl]
    exact exclusive_of_freeze (freeze?_serveAll hheld hfresh hasked hkept)
      (hfresh accesses (List.prefix_refl _))
  · intro key
    rw [custom_serveAll, hclaimed, custom_claimed]

def holding : Instance := ⟨.numbered 0, .ofSeconds 30, 0⟩

def waiting : Instance := ⟨.numbered 1, .ofMillis 10500, 1⟩

def disputed : Timeline :=
  (Timeline.empty ⟨"tally", "default", "t-1", []⟩).add ⟨.numbered 100, .epoch⟩ "tally.step" .null ∅

/-- The waiting instance tries to freeze the stream, to write it and to let go of it. The other one
writes it, and ten seconds pass. -/
def dispute : List Access :=
  [.freeze waiting disputed, .write waiting (.numbered 101) disputed ∅,
    .write holding (.numbered 102) disputed ∅, .unfreeze waiting disputed,
    .setWall (Moment.epoch.after (.ofSeconds 10)), .append waiting (.numbered 103) disputed ∅]

/-- After ten seconds the stream is still held, and the one step in it is that of its holder. -/
theorem exclusive_dispute :
    ∃ w₁, Runs ((holding.store .epoch).freeze disputed) (start .epoch) (.ok ()) w₁ ∧
      (w₁.serveAll .epoch dispute).Exclusive .epoch [holding, waiting] holding.owner
        (disputed.key .domain) ∧
      (w₁.serveAll .epoch dispute).log.version (disputed.key .domain) = 0 := by
  obtain ⟨r, w₁, hfreeze⟩ := Runs.total ((holding.store .epoch).freeze disputed) (start .epoch)
  have hrun : let after := ((holding.store .epoch).freeze disputed).run (start .epoch)
      after.1 = .ok () ∧
      (∀ pre ∈ dispute.inits, ∀ k ∈ [holding, waiting], CachedStore.isStale k.freezeTimeout
        (after.2.serveAll .epoch pre).wall ⟨holding.owner, .epoch⟩ = false) ∧
      (after.2.serveAll .epoch dispute).log.version (disputed.key .domain) = 0 := by
    decide +kernel
  rw [hfreeze.run_eq] at hrun
  obtain ⟨rfl, hfresh, hversion⟩ := hrun
  have hasked : ∀ access ∈ dispute, ∀ k ∈ access.instance?, k ∈ [holding, waiting] := by
    decide +kernel
  have hkept : ∀ access ∈ dispute, ¬ access.Releases holding.owner (disputed.key .domain) := by
    decide +kernel
  have hend := exclusive_serveAll hfreeze hasked hkept fun pre hpre =>
    hfresh pre ((List.mem_inits ..).2 hpre)
  exact ⟨w₁, hfreeze, hend.1, hversion⟩

end World

end Chronicle
