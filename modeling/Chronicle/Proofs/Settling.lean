import Chronicle.Proofs.Merging

/-!
# How a merge ends

A merge fails and leaves nothing behind, meets a version conflict and drops the cached timeline,
stores what it recorded, or finds that nothing is to be stored. A freeze around it makes no
difference, because nothing but metadata changes with it and giving it up cannot fail.
-/

namespace Chronicle

variable {S : Type}

namespace EventLog

theorem events_congr {log log' : EventLog} (h : log'.streams = log.streams) (key : String) :
    log'.events key = log.events key := by
  rw [events, h]
  rfl

theorem timeline_congr {log log' : EventLog} (h : log'.streams = log.streams)
    (stream : StreamRef) : log'.timeline stream = log.timeline stream := by
  simp only [timeline, lastSnapshot, readBack, read, events_congr h]

end EventLog

namespace World

/-- What is stored, cached and staged has not changed. -/
structure Idle (w w' : World) : Prop where
  streams : w'.log.streams = w.log.streams
  caches : w'.caches = w.caches
  areas : w'.areas = w.areas

namespace Idle

variable {w w' w'' : World}

theorem refl (w : World) : w.Idle w := ⟨rfl, rfl, rfl⟩

theorem trans (h : w.Idle w') (h' : w'.Idle w'') : w.Idle w'' where
  streams := h'.streams.trans h.streams
  caches := h'.caches.trans h.caches
  areas := h'.areas.trans h.areas

theorem issued (w : World) (i : Nat) : w.Idle (w.logged i w.log) := ⟨rfl, rfl, rfl⟩

theorem annotated (w : World) (data : Std.ExtTreeMap String (Int × StreamMetadata)) :
    w.Idle (w.annotated data) := ⟨rfl, rfl, rfl⟩

theorem cache (h : w.Idle w') (c : Nat) : w'.cache c = w.cache c := by
  rw [World.cache, h.caches]
  rfl

theorem area (h : w.Idle w') (a : Nat) : w'.area a = w.area a := by
  rw [World.area, h.areas]
  rfl

theorem forget (h : w.Idle w') (c : Nat) (key : String) :
    (w.forget c key).Idle (w'.forget c key) where
  streams := h.streams
  caches := by rw [World.forget, World.forget, h.caches, h.cache]
  areas := h.areas

theorem view (h : w.Idle w') (c : Nat) (stream : StreamRef) :
    w'.view c stream = w.view c stream := by
  rw [World.view, World.view, h.cache, EventLog.timeline_congr h.streams]

end Idle

variable {n : Node} {opened : Moment} {routes : Routes Id S} {events : List Event}
  {drawn : Moment → Prop} {e e' d : Entity S} {w w' w₀ w₁ : World} {commitId : Uuid}
  {headers : Headers}
  {strategy : ConflictStrategy}

/-- How the merge of a batch into an entity ends, if a snapshot is taken at one of the `drawn`
times. -/
inductive Merged (n : Node) (drawn : Moment → Prop) (routes : Routes Id S) (events : List Event)
    (e : Entity S) (w : World) : Except ResolveError Resolution → Entity S → World → Prop where
  | failed {err : ResolveError} {e' : Entity S} {w' : World}
      (hstream : e'.timeline.stream = e.timeline.stream) (hidle : w.Idle w') :
      Merged n drawn routes events e w (.error err) e' w'
  | outdated {err : ResolveError} {e' : Entity S} {w' : World}
      (htransient : err.isTransient = true) (hstream : e'.timeline.stream = e.timeline.stream)
      (hidle : (w.forget n.cache (e.timeline.key .domain)).Idle w') :
      Merged n drawn routes events e w (.error err) e' w'
  | stored {d : Entity S} {kept dropped : List Event} {i : Nat} {log : EventLog} {w₁ w' : World}
      (hbefore : w.Idle w₁) (hmerges : e.Merges routes drawn events d kept dropped)
      (hversion : d.timeline.pending ≠ [] →
        w₁.log.version (d.timeline.key .domain) = d.timeline.version)
      (hstored : Stored w₁.log log d.timeline)
      (hafter : ((w₁.logged i log).remember n.cache (d.timeline.key .domain)
        d.timeline.settle).Idle w') :
      Merged n drawn routes events e w (.ok .committed) d.settle w'
  | nothing {e' : Entity S} {kept dropped : List Event} {w' : World}
      (hmerges : e.Merges routes drawn events e' kept dropped)
      (hclean : e'.timeline.dirty = false) (hidle : w.Idle w') :
      Merged n drawn routes events e w (.ok .discarded) e' w'

namespace Merged

variable {r : Except ResolveError Resolution}

theorem idle (h : Merged n drawn routes events e w r e' w') (hbefore : w₀.Idle w)
    (hafter : w'.Idle w₁) : Merged n drawn routes events e w₀ r e' w₁ := by
  cases h with
  | failed hstream hidle => exact .failed hstream ((hbefore.trans hidle).trans hafter)
  | outdated htransient hstream hidle =>
    exact .outdated htransient hstream (((hbefore.forget ..).trans hidle).trans hafter)
  | stored hbefore' hmerges hversion hstored hafter' =>
    exact .stored (hbefore.trans hbefore') hmerges hversion hstored (hafter'.trans hafter)
  | nothing hmerges hclean hidle =>
    exact .nothing hmerges hclean ((hbefore.trans hidle).trans hafter)

theorem stream_eq (h : Merged n drawn routes events e w r e' w') :
    e'.timeline.stream = e.timeline.stream := by
  cases h with
  | failed hstream => exact hstream
  | outdated _ hstream => exact hstream
  | stored _ hmerges => exact hmerges.continues.stream
  | nothing hmerges => exact hmerges.continues.stream

theorem areas (h : Merged n drawn routes events e w r e' w') : w'.areas = w.areas := by
  cases h with
  | failed _ hidle => exact hidle.areas
  | outdated _ _ hidle => exact hidle.areas
  | stored hbefore _ _ _ hafter => exact hafter.areas.trans hbefore.areas
  | nothing _ _ hidle => exact hidle.areas

/-- A merge that fails for good leaves what is stored, cached and staged alone. -/
theorem idle_of_error {err : ResolveError} (h : Merged n drawn routes events e w (.error err) e' w')
    (herr : err.isTransient = false) : w.Idle w' := by
  cases h with
  | failed _ hidle => exact hidle
  | outdated htransient => simp [herr] at htransient

end Merged

/-- A merge that takes some course ends in one of the four ways. -/
theorem Merged.of_course {r : Except ResolveError Resolution}
    (h : MergeCourse (n.store (site opened)) (surroundings cell) unnumbered routes events commitId
      headers e w r e' w') : Merged n (· = w.wall) routes events e w r e' w' := by
  have hidle : ∀ w₁ : World, w₁.unnumbered = w.unnumbered → w.Idle w₁ := by
    intro w₁ hsame
    rw [eq_logged_of_unnumbered hsame]
    exact .issued w _
  cases h with
  | stopped _ hcontinues hsame => exact .failed hcontinues.stream (hidle _ hsame)
  | nothing hmerges hclean hsame =>
    exact .nothing (hmerges.mono fun _ => shows_surroundings) hclean (hidle _ hsame)
  | refused hmerges hsame hwrite =>
    cases wrote_of_runs hwrite with
    | held hheld => exact .failed hmerges.continues.stream (hidle _ hsame)
    | conflict hpending hversion =>
      refine .outdated rfl hmerges.continues.stream ?_
      rw [Timeline.key, ← hmerges.continues.stream]
      exact (hidle _ hsame).forget ..
  | stored hmerges hsame hwrite =>
    cases wrote_of_runs hwrite with
    | stored hversion hstored =>
      exact .stored (hidle _ hsame) (hmerges.mono fun _ => shows_surroundings) hversion hstored
        (.refl _)

/-- A freeze around a merge changes nothing but metadata and is given up without fail. -/
theorem merged_of_settleBatch {threshold : Nat} {r : Except ResolveError Resolution}
    (h : Resolves (settleBatch (n.store (site opened)) (surroundings cell) routes.lift events
      commitId headers strategy threshold) e w r e' w') :
    Merged n (· = w.wall) routes events e w r e' w' := by
  cases course_of_settleBatch unobserved_surroundings h with
  | light _ hmerge => exact .of_course hmerge
  | barred hfreeze =>
    obtain ⟨data, rfl⟩ := runs_freeze hfreeze
    exact .failed rfl (.annotated w data)
  | @released _ _ w₁ w₂ _ _ hfreeze hmerge hrelease =>
    obtain ⟨data, rfl⟩ := runs_freeze hfreeze
    obtain ⟨-, data', rfl⟩ := runs_unfreeze hrelease
    exact (Merged.of_course hmerge).idle (.annotated w data) (.annotated w₂ data')
  | stuck _ _ _ hrelease =>
    obtain ⟨hreleased, -⟩ := runs_unfreeze hrelease
    cases hreleased

end World

end Chronicle
