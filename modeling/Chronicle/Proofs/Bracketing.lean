import Chronicle.Proofs.Noting

/-!
# A merge between a freeze and its release

A large batch freezes its stream before any conflict route runs and releases it last, whatever
happens in between; a small one does neither. In between there is one write at most, and none if the
merge fails for good. All this holds of every store, whatever it answers.
-/

namespace Chronicle

variable {σ S : Type}

namespace Note

def IsRoute : Note S → Prop
  | route .. => True
  | _ => False

def IsWrite : Note S → Prop
  | write .. => True
  | _ => False

end Note

namespace Routes

theorem isRoute_of_run? {m : Type → Type} {routes : Routes m S} {s : S} {event : Event} :
    ∀ note ∈ routes.run? s event, note.IsRoute := by
  intro note hnote
  unfold run? at hnote
  split at hnote
  · cases hnote
  · split at hnote
    · cases hnote
    · rw [List.mem_singleton.1 hnote]
      trivial

end Routes

/-- What is asked for in the course of a merge: conflict routes run, and then there is one write at
most. The outcome is transient only if there was a write and it was refused. -/
inductive MergeNotes (commitId : Uuid) (headers : Headers) :
    Except ResolveError Resolution → List (Note S) → Prop where
  | failed {err : ResolveError} {calls : List (Note S)} (hcalls : ∀ note ∈ calls, note.IsRoute)
      (hfinal : err.isTransient = false) : MergeNotes commitId headers (.error err) calls
  | clean {calls : List (Note S)} (hcalls : ∀ note ∈ calls, note.IsRoute) :
      MergeNotes commitId headers (.ok .discarded) calls
  | refused {cause : StoreError} {calls : List (Note S)} {t : Timeline}
      (hcalls : ∀ note ∈ calls, note.IsRoute) :
      MergeNotes commitId headers (.error (.ofStore cause))
        (calls ++ [.write commitId t headers (.error cause)])
  | stored {v : Int} {calls : List (Note S)} {t : Timeline}
      (hcalls : ∀ note ∈ calls, note.IsRoute) :
      MergeNotes commitId headers (.ok .committed) (calls ++ [.write commitId t headers (.ok v)])

theorem MergeNotes.unwritten {commitId : Uuid} {headers : Headers} {err : ResolveError}
    {new : List (Note S)} (h : MergeNotes commitId headers (.error err) new)
    (hfinal : err.isTransient = false) : ∀ note ∈ new, ¬ note.IsWrite := by
  cases h with
  | failed hcalls _ =>
    intro note hnote hwrite
    have hroute := hcalls note hnote
    cases note <;> first | exact hroute | exact hwrite
  | refused =>
    rw [ResolveError.isTransient_ofStore] at hfinal
    cases hfinal

/-- What comes of a merge when the stream has been released: a failure to release it takes the place
of a success. -/
def afterRelease : Except ResolveError Resolution → Except StoreError Unit →
    Except ResolveError Resolution
  | .ok resolution, .ok () => .ok resolution
  | .ok _, .error cause => .error (.ofStore cause)
  | .error err, _ => .error err

/-- The requests of a merge and its conflict routes, between a freeze and its release if the batch
is larger than the threshold. -/
inductive Bracket (commitId : Uuid) (headers : Headers) (threshold : Nat) (events : List Event)
    (e : Entity S) : Except ResolveError Resolution → Entity S → List (Note S) → Prop where
  | light {r : Except ResolveError Resolution} {d : Entity S} {new : List (Note S)}
      (hlight : domainCount events ≤ threshold) (hmerge : MergeNotes commitId headers r new) :
      Bracket commitId headers threshold events e r d new
  | barred {cause : StoreError} (hlarge : threshold < domainCount events) :
      Bracket commitId headers threshold events e (.error (.ofStore cause)) e
        [.freeze e.timeline (.error cause)]
  | frozen {r : Except ResolveError Resolution} {d : Entity S} {new : List (Note S)}
      {answer : Except StoreError Unit} (hlarge : threshold < domainCount events)
      (hmerge : MergeNotes commitId headers r new) :
      Bracket commitId headers threshold events e (afterRelease r answer) d
        (.freeze e.timeline (.ok ()) :: new ++ [.unfreeze d.timeline answer])

theorem Bracket.unwritten {commitId : Uuid} {headers : Headers} {threshold : Nat}
    {events : List Event} {e d : Entity S} {r : Except ResolveError Resolution} {err : ResolveError}
    {new : List (Note S)} (h : Bracket commitId headers threshold events e r d new)
    (hr : r = .error err) (hfinal : err.isTransient = false) : ∀ note ∈ new, ¬ note.IsWrite := by
  cases h with
  | light hlight hmerge =>
    rw [hr] at hmerge
    exact hmerge.unwritten hfinal
  | barred hlarge =>
    cases hr
    rw [ResolveError.isTransient_ofStore] at hfinal
    cases hfinal
  | @frozen r _ between answer hlarge hmerge =>
    rcases r with err' | resolution
    · cases hr
      intro note hnote
      rcases List.mem_append.1 hnote with hnote | hnote
      · rcases List.mem_cons.1 hnote with rfl | hnote
        · exact id
        · exact hmerge.unwritten hfinal note hnote
      · rw [List.mem_singleton.1 hnote]
        exact id
    · rcases answer with cause | ⟨⟩
      · cases hr
        rw [ResolveError.isTransient_ofStore] at hfinal
        cases hfinal
      · cases hr

/-- Only conflict routes were noted, and a failure is for good. -/
def OnlyRoutes {α : Type} (notes : List (Note S)) (r : Except ResolveError α)
    (p : List (Note S) × σ) : Prop :=
  ∃ calls w', p = (notes ++ calls, w') ∧ (∀ note ∈ calls, note.IsRoute) ∧
    ∀ err, r = .error err → err.isTransient = false

namespace OnlyRoutes

variable {α β : Type} {notes : List (Note S)} {p p₁ : List (Note S) × σ}

theorem silent (a : α) (notes : List (Note S)) (w : σ) :
    OnlyRoutes notes (.ok a : Except ResolveError α) (notes, w) :=
  ⟨[], w, by simp, by simp, by simp⟩

theorem trans {a : α} {r : Except ResolveError β}
    (h : OnlyRoutes notes (.ok a : Except ResolveError α) p₁) (h' : OnlyRoutes p₁.1 r p) :
    OnlyRoutes notes r p := by
  obtain ⟨calls, w₁, rfl, hcalls, -⟩ := h
  obtain ⟨calls', w', rfl, hcalls', hfinal⟩ := h'
  refine ⟨calls ++ calls', w', by rw [List.append_assoc], fun note hnote => ?_, hfinal⟩
  exact (List.mem_append.1 hnote).elim (hcalls note) (hcalls' note)

end OnlyRoutes

section Steps

variable {store : StreamStore (StateM σ)} {supply : Surroundings (StateM σ)}
  {routes : Routes (StateM σ) S} {draw : StateM σ Stamp} {events : List Event} {event : Event}
  {commitId : Uuid} {headers : Headers} {strategy : ConflictStrategy} {threshold : Nat}
  {e d : Entity S} {notes : List (Note S)} {w : σ} {p : List (Note S) × σ}

theorem onlyRoutes_of_replayEvent {r : Except ResolveError Nat}
    (h : Resolves (replayEvent routes.noted (unnoted draw) strategy event) e (notes, w) r d p) :
    OnlyRoutes notes r p := by
  unfold replayEvent at h
  cases hlane : event.lane with
  | domain =>
    simp only [hlane, resolves_entity_bind, resolves_ask_bind, resolves_setEntity_bind] at h
    obtain ⟨⟨outcome, d₁⟩, p₁, hconflict, h⟩ := h
    have hfinal : p = p₁ ∧ ∀ err, r = .error err → err.isTransient = false := by
      rcases outcome with (error | _ | reason) | ⟨⟩
      · obtain ⟨rfl, -, rfl⟩ := resolves_throw.1 h
        exact ⟨rfl, by rintro _ ⟨⟩; exact ResolveError.isTransient_ofConflict ..⟩
      · obtain ⟨rfl, -, rfl⟩ := resolves_pure.1 h
        exact ⟨rfl, by simp⟩
      · obtain ⟨rfl, -, rfl⟩ := resolves_throw.1 h
        exact ⟨rfl, by rintro _ ⟨⟩; rfl⟩
      · obtain ⟨rfl, -, rfl⟩ := resolves_pure.1 h
        exact ⟨rfl, by simp⟩
    obtain ⟨rfl, hfinal⟩ := hfinal
    cases Entity.confronts_of_runs hconflict with
    | unrouted hroute => exact ⟨[], w, by simp, by simp, hfinal⟩
    | merged hroute hrun hdraw => exact ⟨_, _, rfl, Routes.isRoute_of_run?, hfinal⟩
    | declined hroute hrun => exact ⟨_, _, rfl, Routes.isRoute_of_run?, hfinal⟩
  | oob =>
    simp only [hlane, resolves_entity_bind, resolves_ask_bind, resolves_setEntity_bind,
      resolves_pure] at h
    obtain ⟨stamp, p₁, hstamp, rfl, rfl, rfl⟩ := h
    obtain ⟨w', -, rfl⟩ := runs_unnoted.1 hstamp
    exact .silent 0 notes w'
  | delayed | snapshot | plain =>
    rw [hlane] at h
    obtain ⟨rfl, rfl, rfl⟩ := resolves_pure.1 h
    exact .silent 0 notes w

theorem onlyRoutes_of_replay {r : Except ResolveError Nat}
    (h : Resolves (replay routes.noted (unnoted draw) strategy events) e (notes, w) r d p) :
    OnlyRoutes notes r p := by
  induction events generalizing e notes w r with
  | nil =>
    obtain ⟨rfl, rfl, rfl⟩ := resolves_pure.1 h
    exact .silent 0 notes w
  | cons event rest ih =>
    rw [replay, resolves_bind] at h
    rcases h with ⟨err, hfirst, rfl⟩ | ⟨n, d₁, ⟨notes₁, w₁⟩, hfirst, h⟩
    · exact onlyRoutes_of_replayEvent hfirst
    · refine (onlyRoutes_of_replayEvent hfirst).trans ?_
      rw [resolves_bind] at h
      rcases h with ⟨err, hrest, rfl⟩ | ⟨k, d₂, p₂, hrest, h⟩
      · exact ih hrest
      · obtain ⟨rfl, rfl, rfl⟩ := resolves_pure.1 h
        obtain ⟨calls, w', hp, hcalls, -⟩ := ih hrest
        exact ⟨calls, w', hp, hcalls, by simp⟩

private theorem notes_of_write {r : Except ResolveError Resolution} {calls : List (Note S)}
    (hcalls : ∀ note ∈ calls, note.IsRoute)
    (h : Resolves (do
      let e ← Resolving.entity
      if e.timeline.dirty then
        discard (Resolving.store (store.noted.write commitId e.timeline headers))
        Resolving.setEntity e.settle
        pure .committed
      else pure .discarded) e (notes ++ calls, w) r d p) :
    ∃ new w', p = (notes ++ new, w') ∧ MergeNotes commitId headers r new := by
  rw [resolves_entity_bind] at h
  split at h
  · rw [resolves_discard_store_bind] at h
    rcases h with ⟨cause, hwrite, rfl, rfl⟩ | ⟨v, p₁, hwrite, h⟩
    · obtain ⟨w', -, rfl⟩ := runs_noted.1 hwrite
      exact ⟨_, w', by rw [List.append_assoc], .refused hcalls⟩
    · obtain ⟨w', -, rfl⟩ := runs_noted.1 hwrite
      rw [resolves_setEntity_bind, resolves_pure] at h
      obtain ⟨rfl, rfl, rfl⟩ := h
      exact ⟨_, w', by rw [List.append_assoc], .stored hcalls⟩
  · obtain ⟨rfl, rfl, rfl⟩ := resolves_pure.1 h
    exact ⟨calls, w, rfl, .clean hcalls⟩

theorem notes_of_mergeAndWrite {r : Except ResolveError Resolution}
    (h : Resolves (mergeAndWrite store.noted supply.unnoted routes.noted events commitId headers
      strategy) e (notes, w) r d p) :
    ∃ new w', p = (notes ++ new, w') ∧ MergeNotes commitId headers r new := by
  have honly {answer : Except ResolveError Nat} {d : Entity S} {p : List (Note S) × σ}
      (hreplay : Resolves (replay routes.noted (unnoted supply.stamp) strategy events) e (notes, w)
        answer d p) : OnlyRoutes notes answer p := onlyRoutes_of_replay hreplay
  rw [mergeAndWrite, resolves_discard_bind] at h
  rcases h with ⟨err, hreplay, rfl⟩ | ⟨count, taken, p₁, hreplay, h⟩
  · obtain ⟨calls, w', rfl, hcalls, hfinal⟩ := honly hreplay
    exact ⟨calls, w', rfl, .failed hcalls (hfinal err rfl)⟩
  · obtain ⟨calls, w₁, rfl, hcalls, -⟩ := honly hreplay
    rw [resolves_entity_bind] at h
    split at h
    · rw [resolves_ask_bind] at h
      obtain ⟨time, p₂, hnow, h⟩ := h
      obtain ⟨w₂, -, rfl⟩ := runs_unnoted.1 hnow
      cases htaken : taken.takeSnapshot routes.noted time with
      | error err =>
        simp only [htaken, resolves_bind, resolves_throw] at h
        rcases h with ⟨_, ⟨hthrown, rfl, rfl⟩, rfl⟩ | ⟨_, _, _, ⟨hthrown, -⟩, -⟩
        · cases hthrown
          exact ⟨calls, w₂, rfl, .failed hcalls rfl⟩
        · cases hthrown
      | ok d₁ =>
        simp only [htaken, resolves_setEntity_bind] at h
        exact notes_of_write hcalls h
    · exact notes_of_write hcalls h

theorem bracket_of_settleBatch {r : Except ResolveError Resolution}
    (h : Resolves (settleBatch store.noted supply.unnoted routes.noted events commitId headers
      strategy threshold) e (notes, w) r d p) :
    ∃ new w', p = (notes ++ new, w') ∧ Bracket commitId headers threshold events e r d new := by
  unfold settleBatch at h
  split at h
  · rename_i hlarge
    rw [resolves_entity_bind, resolves_store_bind] at h
    rcases h with ⟨cause, hfreeze, rfl, rfl⟩ | ⟨⟨⟩, p₁, hfreeze, h⟩
    · obtain ⟨w', -, rfl⟩ := runs_noted.1 hfreeze
      exact ⟨_, w', rfl, .barred hlarge⟩
    · obtain ⟨w₁, -, rfl⟩ := runs_noted.1 hfreeze
      rw [resolves_outcome_bind] at h
      obtain ⟨result, d₁, p₂, hmerge, h⟩ := h
      obtain ⟨new, w₂, rfl, hnotes⟩ := notes_of_mergeAndWrite hmerge
      rw [resolves_entity_bind, resolves_outcome_bind] at h
      obtain ⟨released, d₂, p₃, hrelease, h⟩ := h
      obtain ⟨answer, hunfreeze, rfl, rfl⟩ := resolves_store.1 hrelease
      obtain ⟨w', -, rfl⟩ := runs_noted.1 hunfreeze
      have hend : r = afterRelease result answer ∧ d = d₂ ∧
          p = (notes ++ [.freeze e.timeline (.ok ())] ++ new ++ [.unfreeze d₂.timeline answer],
            w') := by
        rcases result with err | resolution
        · exact resolves_throw.1 h
        · rcases answer with cause | ⟨⟩
          · exact resolves_throw.1 h
          · exact resolves_pure.1 h
      obtain ⟨rfl, rfl, rfl⟩ := hend
      exact ⟨_, w', by simp only [List.append_assoc, List.cons_append, List.nil_append],
        .frozen hlarge hnotes⟩
  · rename_i hlight
    obtain ⟨new, w', rfl, hnotes⟩ := notes_of_mergeAndWrite h
    exact ⟨new, w', rfl, .light (Nat.le_of_not_lt hlight) hnotes⟩

/-- Whatever the store answers, a batch is merged with a freeze before and a release behind it
exactly if it holds more domain events than the threshold and the freeze is granted; it is written
once at most, and never if it fails for good. -/
theorem bracketed_settleBatch (store : StreamStore (StateM σ)) (supply : Surroundings (StateM σ))
    (routes : Routes (StateM σ) S) (events : List Event) (commitId : Uuid) (headers : Headers)
    (strategy : ConflictStrategy) (threshold : Nat) (e : Entity S) (w : σ) :
    ∃ r d new w',
      Resolves (settleBatch store supply routes events commitId headers strategy threshold) e w
        r d w' ∧
      Resolves (settleBatch store.noted supply.unnoted routes.noted events commitId headers strategy
        threshold) e ([], w) r d (new, w') ∧
      Bracket commitId headers threshold events e r d new ∧
      ∀ err, r = .error err → err.isTransient = false → ∀ note ∈ new, ¬ note.IsWrite := by
  obtain ⟨⟨r, d⟩, p, hrun⟩ := Runs.total ((settleBatch store.noted supply.unnoted routes.noted
    events commitId headers strategy threshold).run.run e) ([], w)
  obtain ⟨new, w', rfl, hbracket⟩ := bracket_of_settleBatch hrun
  exact ⟨r, d, new, w', annotates_settleBatch _ _ _ _ _ _ _ _ _ _ _ _ _ _ hrun, hrun, hbracket,
    fun err => hbracket.unwritten⟩

end Steps

end Chronicle
