import Chronicle.Proofs.Settling

/-!
# Streams that nobody holds

A freeze is kept in the metadata of the domain key. A merge that freezes its stream is the only one
to hold it meanwhile and gives it up last, so that where nobody held a stream before, nobody holds
one afterwards. Such a merge is not refused by a freeze, and on an entity that is up to date it is
not refused for its version either: it fails only if the batch itself cannot be merged.
-/

namespace Chronicle

variable {S : Type}

namespace EventLog

/-- The claim on a key. -/
def freeze? (log : EventLog) (key : String) : Option Freeze := (log.metadataOf key).2.frozen

theorem freeze?_congr {log log' : EventLog} (h : log'.metadata = log.metadata) (key : String) :
    log'.freeze? key = log.freeze? key := by
  simp only [freeze?, metadataOf, h]

end EventLog

namespace World

def Unfrozen (w : World) : Prop := ∀ key, w.log.freeze? key = none

variable {n : Node} {opened : Moment} {w w' w₁ : World} {key : String} {t : Timeline}

theorem Unfrozen.congr (h : w.Unfrozen) (hm : w'.log.metadata = w.log.metadata) : w'.Unfrozen :=
  fun key => (EventLog.freeze?_congr hm key).trans (h key)

theorem holder_eq_none {owner : Uuid} {timeout : Span}
    (h : ∀ f, w.log.freeze? key = some f → f.owner = owner) :
    w.holder owner timeout key = none := by
  unfold holder
  cases hf : (w.log.metadataOf key).2.frozen with
  | none => rfl
  | some f => simp [h f hf]

theorem freeze?_claimed (w : World) (key other : String) (frozen : Option Freeze) :
    (w.claimed key frozen).log.freeze? other =
      if other = key then frozen else w.log.freeze? other := by
  rw [EventLog.freeze?, metadataOf_claimed]
  split <;> rfl

theorem runs_freeze_of_none {r : Except StoreError Unit}
    (hfree : w.log.freeze? (t.key .domain) = none)
    (h : Runs ((n.store (site opened)).freeze t) w r w') :
    r = .ok () ∧ ∃ data, w' = w.annotated data ∧ ∀ key, w'.log.freeze? key =
      if key = t.key .domain then some ⟨n.owner, w.wall⟩ else w.log.freeze? key := by
  rw [EventLog.freeze?] at hfree
  rw [runs_freeze_iff, hfree] at h
  obtain ⟨rfl, rfl⟩ := h
  exact ⟨rfl, _, rfl, fun key => freeze?_claimed ..⟩

/-- Giving up a freeze leaves a stream held by nobody, if no other instance held it. -/
theorem runs_unfreeze_of_owner {r : Except StoreError Unit}
    (howner : ∀ f, w.log.freeze? (t.key .domain) = some f → f.owner = n.owner)
    (h : Runs ((n.store (site opened)).unfreeze t) w r w') :
    r = .ok () ∧ ∃ data, w' = w.annotated data ∧ ∀ key, w'.log.freeze? key =
      if key = t.key .domain then none else w.log.freeze? key := by
  obtain ⟨hr, hdata⟩ := runs_unfreeze h
  refine ⟨hr, hdata.imp fun data hw => ⟨hw, fun key => ?_⟩⟩
  obtain ⟨-, rfl⟩ := runs_unfreeze_iff.1 h
  cases hf : w.log.freeze? (t.key .domain) with
  | none =>
    have hf' : (w.log.metadataOf (t.key .domain)).2.frozen = none := hf
    simp only [hf']
    split
    · rename_i hk
      rw [hk, hf]
    · rfl
  | some f =>
    have hf' : (w.log.metadataOf (t.key .domain)).2.frozen = some f := hf
    simp only [hf', howner f hf, if_true]
    exact freeze?_claimed ..

/-- It is the same time, and the same is due. -/
structure Simultaneous (w w' : World) : Prop where
  wall : w'.wall = w.wall
  elapsed : w'.elapsed = w.elapsed
  agendas : w'.agendas = w.agendas

theorem Wrote.frame {r : Except StoreError Int} (h : Wrote n w t r w') :
    w'.log.metadata = w.log.metadata ∧ w.Simultaneous w' := by
  cases h with
  | held hheld => exact ⟨rfl, rfl, rfl, rfl⟩
  | conflict hpending hversion => exact ⟨rfl, rfl, rfl, rfl⟩
  | stored hversion hstored => exact ⟨hstored.metadata, rfl, rfl, rfl⟩

/-- A timeline at the version of its stream is written unless another instance holds the stream. -/
theorem ok_of_write {commitId : Uuid} {headers : Headers} {r : Except StoreError Int}
    (howner : ∀ f, w.log.freeze? (t.key .domain) = some f → f.owner = n.owner)
    (hversion : w.log.version (t.key .domain) = t.version)
    (h : Runs ((n.store (site opened)).write commitId t headers) w r w') : ∃ v, r = .ok v := by
  cases wrote_of_runs h with
  | held hheld =>
    rw [holder_eq_none howner] at hheld
    cases hheld
  | conflict hpending hconflict => exact absurd hversion hconflict
  | stored hstored => exact ⟨_, rfl⟩

variable {routes : Routes Id S} {events : List Event} {commitId : Uuid} {headers : Headers}
  {threshold : Nat} {e d : Entity S} {r : Except ResolveError Resolution}

theorem frame_of_course (h : MergeCourse (n.store (site opened)) (surroundings cell) unnumbered
      routes events commitId headers e w r d w') :
    d.timeline.key .domain = e.timeline.key .domain ∧
      w'.log.metadata = w.log.metadata ∧ w.Simultaneous w' := by
  have hkey : ∀ {d : Entity S}, e.timeline.Continues d.timeline →
      d.timeline.key .domain = e.timeline.key .domain := by
    intro d hcontinues
    rw [Timeline.key, Timeline.key, hcontinues.stream]
  cases h with
  | stopped _ hcontinues hsame =>
    rw [eq_logged_of_unnumbered hsame]
    exact ⟨hkey hcontinues, rfl, rfl, rfl, rfl⟩
  | nothing hmerges _ hsame =>
    rw [eq_logged_of_unnumbered hsame]
    exact ⟨hkey hmerges.continues, rfl, rfl, rfl, rfl⟩
  | refused hmerges hsame hwrite =>
    obtain ⟨hmetadata, htime⟩ := (wrote_of_runs hwrite).frame
    rw [eq_logged_of_unnumbered hsame] at hmetadata htime
    exact ⟨hkey hmerges.continues, hmetadata, htime.wall, htime.elapsed, htime.agendas⟩
  | stored hmerges hsame hwrite =>
    obtain ⟨hmetadata, htime⟩ := (wrote_of_runs hwrite).frame
    rw [eq_logged_of_unnumbered hsame] at hmetadata htime
    have hsettled := hkey hmerges.continues
    exact ⟨hsettled, hmetadata, htime.wall, htime.elapsed, htime.agendas⟩

/-- Time stands still during a merge with a freeze around it, too. -/
theorem simultaneous_of_settleBatch {strategy : ConflictStrategy}
    (h : Resolves (settleBatch (n.store (site opened)) (surroundings cell) routes.lift events
      commitId headers strategy threshold) e w r d w') : w.Simultaneous w' := by
  cases course_of_settleBatch unobserved_surroundings h with
  | light _ hmerge => exact (frame_of_course hmerge).2.2
  | barred hfreeze =>
    obtain ⟨data, rfl⟩ := runs_freeze hfreeze
    exact ⟨rfl, rfl, rfl⟩
  | released _ hfreeze hmerge hrelease =>
    obtain ⟨data, rfl⟩ := runs_freeze hfreeze
    obtain ⟨-, data', rfl⟩ := runs_unfreeze hrelease
    obtain ⟨-, -, htime⟩ := frame_of_course hmerge
    exact ⟨htime.wall, htime.elapsed, htime.agendas⟩
  | stuck _ _ _ hrelease => cases (runs_unfreeze hrelease).1

/-- A merge whose stream no other instance holds, into an entity at the version of its stream, does
not fail if the batch can be merged and states can be recorded. -/
theorem exists_ok_of_course (h : MergeCourse (n.store (site opened)) (surroundings cell) unnumbered
      routes events commitId headers e w r d w')
    (howner : ∀ f, w.log.freeze? (e.timeline.key .domain) = some f → f.owner = n.owner)
    (hversion : w.log.version (e.timeline.key .domain) = e.timeline.version)
    (hencodes : ∀ snapshots ∈ routes.snapshots, ∀ s, ∃ memento, snapshots.encode s = .ok memento)
    (hreplays : ∃ s' kept dropped, routes.Replays e.state events s' kept dropped) :
    ∃ resolution, r = .ok resolution := by
  cases h with
  | stopped _ _ _ hnever =>
    obtain ⟨s', kept, dropped, hreplays⟩ := hreplays
    exact absurd hreplays (hnever hencodes s' kept dropped)
  | nothing => exact ⟨_, rfl⟩
  | stored => exact ⟨_, rfl⟩
  | @refused d kept dropped cause w₁ w' hmerges hsame hwrite =>
    have hkey : d.timeline.key .domain = e.timeline.key .domain := by
      rw [Timeline.key, Timeline.key, hmerges.continues.stream]
    rw [eq_logged_of_unnumbered hsame] at hwrite
    obtain ⟨v, hv⟩ := ok_of_write (by rwa [hkey]) (by
      rw [hkey, hmerges.continues.version]
      exact hversion) hwrite
    cases hv

/-- Where nobody holds a stream, a merge leaves nobody holding one, and fails only if the batch
cannot be merged. -/
theorem settleBatch_of_unfrozen {strategy : ConflictStrategy} (hfree : w.Unfrozen)
    (h : Resolves (settleBatch (n.store (site opened)) (surroundings cell) routes.lift events
      commitId headers strategy threshold) e w r d w') :
    w'.Unfrozen ∧ w'.wall = w.wall ∧
      (w.log.version (e.timeline.key .domain) = e.timeline.version →
        (∀ snapshots ∈ routes.snapshots, ∀ s, ∃ memento, snapshots.encode s = .ok memento) →
        (∃ s' kept dropped, routes.Replays e.state events s' kept dropped) →
        ∃ resolution, r = .ok resolution) := by
  cases course_of_settleBatch unobserved_surroundings h with
  | light _ hmerge =>
    obtain ⟨-, hmetadata, htime⟩ := frame_of_course hmerge
    refine ⟨hfree.congr hmetadata, htime.wall, fun hversion hencodes hreplays => ?_⟩
    exact exists_ok_of_course hmerge (by simp [hfree _]) hversion hencodes hreplays
  | barred hfreeze =>
    obtain ⟨hr, -⟩ := runs_freeze_of_none (hfree _) hfreeze
    cases hr
  | @released _ _ w₁ w₂ _ _ hfreeze hmerge hrelease =>
    obtain ⟨-, data, rfl, hfrozen⟩ := runs_freeze_of_none (hfree _) hfreeze
    have howner : ∀ f, (w.annotated data).log.freeze? (e.timeline.key .domain) = some f →
        f.owner = n.owner := by
      intro f hf
      rw [hfrozen, if_pos rfl] at hf
      cases hf
      rfl
    obtain ⟨hkey, hmetadata, htime⟩ := frame_of_course hmerge
    obtain ⟨-, data', rfl, hreleased⟩ := runs_unfreeze_of_owner (fun f hf => howner f (by
      rwa [hkey, EventLog.freeze?_congr hmetadata] at hf)) hrelease
    refine ⟨fun key => ?_, htime.wall, fun hversion => exists_ok_of_course hmerge howner hversion⟩
    rw [hreleased]
    split
    · rfl
    · rename_i hk
      rw [EventLog.freeze?_congr hmetadata, hfrozen, if_neg (hkey ▸ hk), hfree]
  | stuck _ _ _ hrelease => cases (runs_unfreeze hrelease).1

end World

end Chronicle
