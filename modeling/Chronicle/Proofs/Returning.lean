import Chronicle.Proofs.Staging
import Chronicle.Proofs.TornWrites

/-!
# What a commit gives back

A commit gives the entity back in either case. If it fails the entity is the one that was handed in,
except that a snapshot may have been staged in it. If it succeeds nothing is pending in the entity,
so that committing it once more asks nothing of anyone.

The first is plain from the commit alone: it works on the caller's entity until it succeeds. For the
second every way in which a resolver can succeed has to leave an entity with nothing pending. A
merge settles what it wrote, and a resolver that does not write hands on the entity as it was
loaded. Stores, staging areas and conflict routes may do whatever they like, only the timelines that
are fetched for a commit have nothing pending.
-/

namespace Chronicle

variable {σ S α β : Type}

namespace Resolving

/-- From an entity with `p`, if the step succeeds it gives a value and an entity with `q`. -/
def Ensures (p : Entity S → Prop) (x : Resolving (StateM σ) S α) (q : α → Entity S → Prop) : Prop :=
  ∀ e a v e' b, p e → Resolves x e a (.ok v) e' b → q v e'

namespace Ensures

variable {p : Entity S → Prop} {q : α → Entity S → Prop} {r : β → Entity S → Prop}
  {x : Resolving (StateM σ) S α} {f : α → Resolving (StateM σ) S β}

theorem any (p : Entity S → Prop) (x : Resolving (StateM σ) S α) : Ensures p x fun _ _ => True :=
  fun _ _ _ _ _ _ _ => trivial

theorem of_imp {p' : Entity S → Prop} (hx : Ensures p x q) (hp : ∀ e, p' e → p e) :
    Ensures p' x q :=
  fun e a v e' b h => hx e a v e' b (hp e h)

theorem bind (hx : Ensures p x q) (hf : ∀ v, Ensures (q v) (f v) r) : Ensures p (x >>= f) r := by
  intro e a v e' b hp h
  rcases resolves_bind.1 h with ⟨err, -, hr⟩ | ⟨u, d, c, hfirst, hrest⟩
  · cases hr
  · exact hf u d c v e' b (hx e a u d c hp hfirst) hrest

theorem pure {v : α} (h : ∀ e, p e → q v e) :
    Ensures p (Pure.pure v : Resolving (StateM σ) S α) q := by
  intro e a u e' b hp hrun
  obtain ⟨hu, rfl, -⟩ := resolves_pure.1 hrun
  cases hu
  exact h _ hp

theorem lift {result : Except ResolveError α} (h : ∀ v, result = .ok v → ∀ e, p e → q v e) :
    Ensures p (liftM result : Resolving (StateM σ) S α) q := by
  intro e a u e' b hp hrun
  obtain ⟨hu, rfl, -⟩ := resolves_lift.1 hrun
  exact h u hu.symm _ hp

theorem throw {err : ResolveError} :
    Ensures p (MonadExcept.throw err : Resolving (StateM σ) S α) q := by
  intro e a u e' b _ hrun
  cases (resolves_throw.1 hrun).1

theorem ask {y : StateM σ α} : Ensures p (Resolving.ask y) fun _ => p := by
  intro e a u e' b hp hrun
  obtain ⟨-, -, -, rfl⟩ := resolves_ask.1 hrun
  exact hp

theorem store {y : StateM σ (Except StoreError α)} : Ensures p (Resolving.store y) fun _ => p := by
  intro e a u e' b hp hrun
  obtain ⟨-, -, -, rfl⟩ := resolves_store.1 hrun
  exact hp

theorem staging {y : StateM σ (Except String α)} :
    Ensures p (Resolving.staging y) fun _ => p := by
  intro e a u e' b hp hrun
  obtain ⟨-, -, -, rfl⟩ := resolves_staging.1 hrun
  exact hp

theorem entity : Ensures p (Resolving.entity : Resolving (StateM σ) S (Entity S))
    fun d e => d = e ∧ p e := by
  intro e a u e' b hp hrun
  obtain ⟨hu, rfl, -⟩ := resolves_entity.1 hrun
  cases hu
  exact ⟨rfl, hp⟩

theorem setEntity {d : Entity S} {q : Entity S → Prop} (h : q d) :
    Ensures p (Resolving.setEntity d : Resolving (StateM σ) S Unit) fun _ => q := by
  intro e a u e' b _ hrun
  obtain ⟨-, rfl, -⟩ := resolves_setEntity.1 hrun
  exact h

theorem outcome (hx : Ensures p x q) :
    Ensures p x.outcome fun result e => ∀ v, result = .ok v → q v e := by
  intro e a u e' b hp hrun v hv
  obtain ⟨result, hx', hu⟩ := resolves_outcome.1 hrun
  cases hu
  exact hx e a v e' b hp (hv ▸ hx')

theorem outcome_store {y : StateM σ (Except StoreError α)} :
    Ensures p (Resolving.store y).outcome fun _ => p := by
  intro e a u e' b hp hrun
  obtain ⟨_, hstore, -⟩ := resolves_outcome.1 hrun
  obtain ⟨-, -, -, rfl⟩ := resolves_store.1 hstore
  exact hp

end Ensures

end Resolving

open Resolving

def Entity.Clean (e : Entity S) : Prop := e.timeline.dirty = false

theorem ensures_flush (p : Entity S → Prop)
    (request : Timeline → StateM σ (Except StoreError Int)) :
    Ensures p (do
      let e ← Resolving.entity
      if e.timeline.dirty then
        discard (Resolving.store (request e.timeline))
        Resolving.setEntity e.settle
        pure .committed
      else pure .discarded : Resolving (StateM σ) S Resolution) fun _ => Entity.Clean := by
  refine .bind .entity fun e => ?_
  split
  · refine .bind (.any _ _) fun _ => .bind (.setEntity (q := Entity.Clean) ?_) fun _ => .pure ?_
    · exact Timeline.dirty_settle _
    · exact fun _ h => h
  · rename_i hdirty
    refine .pure fun d hd => ?_
    rw [Entity.Clean, ← hd.1]
    simpa using hdirty

section Merging

variable {store : StreamStore (StateM σ)} {supply : Surroundings (StateM σ)}
  {routes : Routes (StateM σ) S} {events : List Event} {commitId : Uuid} {headers : Headers}
  {strategy : ConflictStrategy} {threshold : Nat} {p : Entity S → Prop}

theorem ensures_mergeAndWrite :
    Ensures p (mergeAndWrite store supply routes events commitId headers strategy)
      fun _ => Entity.Clean := by
  have hflush := ensures_flush (fun _ : Entity S => True) fun t => store.write commitId t headers
  refine .bind (.any _ _) fun _ => .bind (.any _ _) fun e => ?_
  split
  · refine .bind (.any _ _) fun time => ?_
    cases e.takeSnapshot routes time with
    | ok d => exact .bind (.any _ _) fun _ => hflush
    | error err => exact .bind (.any _ _) fun _ => hflush
  · exact hflush

/-- A merge that succeeds leaves nothing pending, whether the stream was frozen for it or not. -/
theorem ensures_settleBatch :
    Ensures p (settleBatch store supply routes events commitId headers strategy threshold)
      fun _ => Entity.Clean := by
  unfold settleBatch
  split
  · refine .bind (.any _ _) fun _ => .bind (.any _ _) fun _ =>
      .bind (.outcome ensures_mergeAndWrite) fun result => .bind .entity fun _ =>
        .bind .outcome_store fun released => ?_
    cases result with
    | error err => exact .throw
    | ok resolution =>
      cases released with
      | ok _ => exact .pure fun e h => h.2 resolution rfl
      | error err => exact .throw
  · exact ensures_mergeAndWrite

end Merging

section Strategies

variable {r : WeakResolver (StateM σ)} {routes : Routes (StateM σ) S} {batch current : List Event}
  {commitId : Uuid} {headers : Headers}

/-- What is done about the agenda and the staging area after a merge leaves the entity alone. -/
private theorem ensures_closing {key : String} {waiting : Nat}
    {pulled : List (Staged ConflictBatch)} {settled : Bool}
    {result : Except ResolveError Resolution} :
    Ensures (fun e => ∀ v, result = .ok v → e.Clean) (do
      let stream := (← Resolving.entity).timeline.stream
      if settled then
        if pulled.length < waiting then Resolving.ask (r.schedule stream .zero)
      else if !pulled.isEmpty then
        Resolving.staging (r.staging.requeue weakChannel key pulled)
        Resolving.ask (r.schedule stream r.ageThreshold)
      liftM result : Resolving (StateM σ) S Resolution) fun _ => Entity.Clean := by
  refine .bind .entity fun d => ?_
  have hresult : Ensures (fun e => d = e ∧ ∀ v, result = .ok v → e.Clean)
      (liftM result : Resolving (StateM σ) S Resolution) fun _ => Entity.Clean :=
    .lift fun v hv e he => he.2 v hv
  split
  · split
    · exact .bind .ask fun _ => hresult
    · exact hresult
  · split
    · exact .bind .staging fun _ => .bind .ask fun _ => hresult
    · exact hresult

/-- A merge of staged batches that succeeds leaves nothing pending. If there is nothing to merge the
entity stays as it is, and if the merge fails there is no success after it. -/
theorem ensures_resolveStaged :
    Ensures Entity.Clean (r.resolveStaged routes current commitId headers)
      fun _ => Entity.Clean := by
  unfold WeakResolver.resolveStaged
  refine .bind .entity fun e => .bind .staging fun waiting => .bind .staging fun pulled => ?_
  dsimp only
  split
  · exact .pure fun d h => h.2
  · refine .bind (.outcome ensures_settleBatch) fun result => ?_
    cases result with
    | ok resolution =>
      rw [pure_bind]
      exact ensures_closing
    | error err =>
      dsimp only
      split <;> exact .bind (.any _ _) fun _ => ensures_closing.of_imp fun _ _ _ h => nomatch h

theorem ensures_resolve :
    Ensures Entity.Clean (r.resolve routes batch commitId headers) fun _ => Entity.Clean := by
  unfold WeakResolver.resolve
  refine .bind .entity fun e => .bind .staging fun age => ?_
  split
  · exact ensures_resolveStaged.of_imp fun _ h => h.2
  · exact .bind .staging fun _ => .bind .ask fun _ => .pure fun d h => h.2

/-- Whatever the strategy, a batch that is resolved leaves nothing pending. -/
theorem ensures_ofStrategy (strategy : ConflictStrategy) :
    Ensures Entity.Clean ((Resolver.ofStrategy strategy r).resolve routes batch commitId headers)
      fun _ => Entity.Clean := by
  cases strategy with
  | throw => exact .throw
  | discard => exact .pure fun _ h => h
  | ignore =>
    exact .bind (.any _ _) fun _ => ensures_flush _ fun t => r.store.append commitId t headers
  | resolveStrongly => exact ensures_settleBatch
  | resolveWeakly => exact ensures_resolve

end Strategies

/-- The entity is as before, but for a snapshot of its state that may have been staged. -/
def Entity.StagedAtMost (e e' : Entity S) : Prop :=
  e' = e ∨ ∃ time memento, e' = { e with timeline := e.timeline.addSnapshot time memento }

namespace Repository

/-- In some states, which a write and a look at the clock do not leave, all timelines that are
fetched have nothing pending. -/
structure FetchesClean (r : Repository (StateM σ)) (fine : σ → Prop) : Prop where
  fetch : ∀ stream a t b, fine a → Runs (r.store.fetch stream) a (.ok t) b → t.dirty = false
  write : ∀ commitId t headers a result b, fine a →
    Runs (r.store.write commitId t headers) a result b → fine b
  now : ∀ a time b, fine a → Runs r.surroundings.now a time b → fine b

/-- What a commit of an entity gives back with its answer. -/
inductive Returned (r : Repository (StateM σ)) (routes : Routes (StateM σ) S) (e : Entity S) :
    Except CommitError CommitOutcome → Entity S → Prop
  | kept {err : CommitError} {e' : Entity S} (hkept : e.StagedAtMost e') :
      Returned r routes e (.error err) e'
  | clean {outcome : CommitOutcome} {e' : Entity S} (hpending : e'.timeline.pending = [])
      (hoobs : e'.timeline.pendingOobs = []) (hsnapshot : e'.timeline.pendingSnapshot = none)
      (hagain : ∀ commitId headers,
        r.commit routes e' commitId headers = pure (.ok .clean, e')) :
      Returned r routes e (.ok outcome) e'

variable {r : Repository (StateM σ)} {fine : σ → Prop} {routes : Routes (StateM σ) S}
  {e e' d : Entity S} {commitId : Uuid} {headers : Headers} {a b : σ}
  {result : Except CommitError CommitOutcome}

/-- A commit of an entity with nothing pending makes no request. -/
theorem commit_of_clean (h : e.Clean) (commitId : Uuid) (headers : Headers) :
    r.commit routes e commitId headers = pure (.ok .clean, e) := by
  rw [Entity.Clean] at h
  simp [commit, h]

theorem Returned.of_clean {outcome : CommitOutcome} (h : e'.Clean) :
    r.Returned routes e (.ok outcome) e' := by
  obtain ⟨hpending, hoobs, hsnapshot⟩ := Timeline.dirty_eq_false.1 h
  exact .clean hpending hoobs hsnapshot (commit_of_clean h)

theorem stagedAtMost_of_stageSnapshot (hclean : r.FetchesClean fine) (hfine : fine a)
    (h : Runs (r.stageSnapshot routes e) a (.ok d) b) : e.StagedAtMost d ∧ fine b := by
  unfold stageSnapshot at h
  split at h
  · obtain ⟨time, hnow, htaken⟩ := runs_bind_pure.1 h
    obtain ⟨memento, -, rfl⟩ := except_map_eq_ok.1 htaken.symm
    refine ⟨?_, hclean.now _ _ _ hfine hnow⟩
    cases memento with
    | some memento => exact .inr ⟨time, memento, rfl⟩
    | none => exact .inl rfl
  · obtain ⟨hd, rfl⟩ := runs_pure.1 h
    cases hd
    exact ⟨.inl rfl, hfine⟩

theorem returned_of_resolveConflict {strategy : ConflictStrategy} {weak : WeakResolver (StateM σ)}
    (hresolver : r.resolver = .ofStrategy strategy weak) (hclean : r.FetchesClean fine)
    (hfine : fine a) (hstaged : e.StagedAtMost d)
    (h : Runs (r.resolveConflict routes d commitId headers) a (result, e') b) :
    r.Returned routes e result e' := by
  simp only [resolveConflict, loadEntity, ExceptT.run_mk, runs_bind] at h
  obtain ⟨found, a₁, ⟨fetched, a₂, hfetch, hfound⟩, h⟩ := h
  cases found with
  | error err =>
    obtain ⟨hr, -⟩ := runs_pure.1 h
    cases hr
    exact .kept hstaged
  | ok fresh =>
    cases fetched with
    | error err => cases (runs_pure.1 hfound).1
    | ok t =>
      have hfresh : fresh.Clean := by
        rw [Entity.Clean, Entity.timeline_ofTimeline
          (except_mapError_eq_ok.1 (runs_pure.1 hfound).1.symm)]
        exact hclean.fetch _ _ _ _ hfine hfetch
      simp only [runs_bind] at h
      obtain ⟨⟨ended, d₁⟩, a₃, hresolve, h⟩ := h
      rw [hresolver] at hresolve
      cases ended with
      | error err =>
        obtain ⟨hr, -⟩ := runs_pure.1 h
        cases hr
        exact .kept hstaged
      | ok resolution =>
        obtain ⟨hr, -⟩ := runs_pure.1 h
        cases hr
        exact .of_clean (ensures_ofStrategy strategy _ _ _ _ _ hfresh hresolve)

/-- Whatever the strategy, and whatever the store, the staging area and the conflict routes do, a
commit that fails gives back the entity that it was handed, with a snapshot staged at most, and one
that succeeds gives back an entity with nothing pending, which the next commit leaves alone without
a request to anyone. -/
theorem returned_of_commit {strategy : ConflictStrategy} {weak : WeakResolver (StateM σ)}
    (hresolver : r.resolver = .ofStrategy strategy weak) (hclean : r.FetchesClean fine)
    (hfine : fine a) (h : Runs (r.commit routes e commitId headers) a (result, e') b) :
    r.Returned routes e result e' := by
  unfold commit at h
  split at h
  · rename_i hdirty
    obtain ⟨hr, -⟩ := runs_pure.1 h
    cases hr
    exact .of_clean (by simpa [Entity.Clean] using hdirty)
  · rw [runs_bind] at h
    obtain ⟨found, a₁, hsnapshot, h⟩ := h
    cases found with
    | error err =>
      obtain ⟨hr, -⟩ := runs_pure.1 h
      cases hr
      exact .kept (.inl rfl)
    | ok d =>
      obtain ⟨hstaged, hfine₁⟩ := stagedAtMost_of_stageSnapshot hclean hfine hsnapshot
      rw [runs_bind] at h
      obtain ⟨written, a₂, hwrite, h⟩ := h
      have hfine₂ := hclean.write _ _ _ _ _ _ hfine₁ hwrite
      split at h
      · obtain ⟨hr, -⟩ := runs_pure.1 h
        cases hr
        exact .of_clean (Timeline.dirty_settle _)
      · exact returned_of_resolveConflict hresolver hclean hfine₂ hstaged h
      · obtain ⟨hr, -⟩ := runs_pure.1 h
        cases hr
        exact .kept hstaged

end Repository

namespace World

/-- Nothing is pending in the timelines that are cached. -/
def CachesClean (c : Nat) (w : World) : Prop :=
  ∀ (key : String) (t : Timeline), (w.cache c)[key]? = some t → t.dirty = false

/-- The repository of a node whose cache is clean fetches timelines with nothing pending. -/
theorem fetchesClean_repository (n : Node) (opened : Moment) :
    (n.repository (site opened)).FetchesClean (CachesClean n.cache) where
  fetch := by
    intro stream w t w' hfine h
    obtain ⟨hview, -⟩ := runs_fetch.1 h
    unfold view at hview
    split at hview
    · rename_i cached hcached
      cases hview
      exact hfine _ _ hcached
    · obtain ⟨snapshot, -, rfl⟩ := except_map_eq_ok.1 hview.symm
      exact Timeline.dirty_ofHistory ..
  write := by
    intro commitId t headers w result w' hfine h
    cases wrote_of_runs h with
    | held hheld => exact hfine
    | conflict hpending hversion =>
      intro key cached hcached
      rw [getElem?_cache_forget] at hcached
      split at hcached
      · cases hcached
      · exact hfine key cached hcached
    | stored hversion hstored =>
      intro key cached hcached
      rw [getElem?_cache_remember] at hcached
      split at hcached
      · cases hcached
        exact Timeline.dirty_settle t
      · exact hfine key cached hcached
  now := by
    intro w time w' hfine h
    obtain ⟨-, rfl⟩ := runs_now.1 h
    exact hfine

def stickler : Node := { clerk with settings := ConflictSettings.standard }

/-- Someone else has stored the same tally already. The stickler refuses the commit and gives the
entity back; the clerk merges it, and then nothing is pending. -/
theorem returned_noted :
    let routes := Cluster.tallyRoutes.lift
    let strict := stickler.repository (site .epoch)
    let lenient := clerk.repository (site .epoch)
    ∃ e w, noted = .ok e ∧ CachesClean 0 w ∧
      (∃ err e' w', Runs (strict.commit routes e (.numbered 103) ∅) w (.error err, e') w' ∧
        strict.Returned routes e (.error err) e') ∧
      ∃ e' w', Runs (lenient.commit routes e (.numbered 103) ∅) w
          (.ok (.resolved .committed), e') w' ∧
        lenient.Returned routes e (.ok (.resolved .committed)) e' := by
  intro routes strict lenient
  have hfacts : noted.toOption.any (fun e =>
      let w := ((lenient.store.write (.numbered 102) e.timeline ∅).run (start .epoch)).2
      decide (((strict.commit routes e (.numbered 103) ∅).run w).1.1 =
          .error (.resolve (.failed "tally" "conflicts are not resolved for this entity")) ∧
        ((lenient.commit routes e (.numbered 103) ∅).run w).1.1 =
          .ok (.resolved .committed))) = true := by
    decide +kernel
  obtain ⟨e, hfound, hfacts⟩ := (Option.any_eq_true ..).1 hfacts
  obtain ⟨written, w, hwrite⟩ :=
    Runs.total (lenient.store.write (.numbered 102) e.timeline ∅) (start .epoch)
  obtain ⟨⟨r₁, e₁⟩, w₁, hstrict⟩ := Runs.total (strict.commit routes e (.numbered 103) ∅) w
  obtain ⟨⟨r₂, e₂⟩, w₂, hlenient⟩ := Runs.total (lenient.commit routes e (.numbered 103) ∅) w
  simp only [hwrite.run_eq, hstrict.run_eq, hlenient.run_eq, decide_eq_true_eq] at hfacts
  obtain ⟨rfl, rfl⟩ := hfacts
  have hempty : CachesClean 0 (start .epoch) := by
    intro key t ht
    simp [start, cache] at ht
  have hclean := fetchesClean_repository clerk .epoch
  have hfine : CachesClean 0 w := hclean.write _ _ _ _ _ _ hempty hwrite
  have hthrows : strict.resolver = .ofStrategy .throw (stickler.weak (site .epoch)) := rfl
  have hmerges : lenient.resolver = .ofStrategy .resolveStrongly (clerk.weak (site .epoch)) := rfl
  exact ⟨e, w, except_toOption_eq_some.1 hfound, hfine,
    ⟨_, e₁, w₁, hstrict, Repository.returned_of_commit hthrows
      (fetchesClean_repository stickler .epoch) hfine hstrict⟩,
    e₂, w₂, hlenient, Repository.returned_of_commit hmerges hclean hfine hlenient⟩

end World

end Chronicle
