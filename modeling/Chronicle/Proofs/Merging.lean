import Chronicle.Proofs.Hydrating
import Chronicle.Proofs.Replaying

/-!
# Where the events of a batch go when it is merged

What is pending after a merge, together with the events that their routes declined, is what was
pending before together with the batch. This is counted by what events say, since each event that
is recorded again gets a new identifier and a new version.
-/

namespace Chronicle

variable {S : Type}

/-- The events of a batch were recorded again on an entity, but for the `dropped` ones. -/
structure Entity.Absorbs (e e' : Entity S) (events dropped : List Event) : Prop where
  continues : e.timeline.Continues e'.timeline
  counts : (∀ event ∈ events, event.Routable) → ∀ x,
    occurrences x e'.timeline.batch + occurrences x dropped =
      occurrences x e.timeline.batch + occurrences x events

theorem occurrences_batch (x : Lane × String × Json) (t : Timeline) :
    occurrences x t.batch = occurrences x t.pending + occurrences x t.pendingOobs :=
  occurrences_append ..

theorem occurrences_of_map_eq (x : Lane × String × Json) {xs ys zs : List Event}
    (h : xs.map Event.entry = ys.map Event.entry ++ zs.map Event.entry) :
    occurrences x xs = occurrences x ys + occurrences x zs := by
  rw [occurrences, h, List.count_append]
  rfl

theorem occurrences_lanes (x : Lane × String × Json) {events : List Event}
    (hr : ∀ event ∈ events, event.Routable) :
    occurrences x events = occurrences x (events.filter fun event => event.lane = .domain) +
      occurrences x (events.filter fun event => event.lane = .oob) := by
  induction events with
  | nil => rfl
  | cons event rest ih =>
    have hrest := ih fun other hother => hr other (List.mem_cons_of_mem _ hother)
    rw [occurrences_cons, hrest]
    rcases hr event (List.mem_cons_self ..) with hlane | ⟨hlane, -⟩
    · rw [List.filter_cons_of_pos (by simpa using hlane),
        List.filter_cons_of_neg (by simp [hlane]), occurrences_cons x event (List.filter _ rest)]
      omega
    · rw [List.filter_cons_of_neg (by simp [hlane]),
        List.filter_cons_of_pos (by simpa using hlane),
        occurrences_cons x event (List.filter (fun event => event.lane = .oob) rest)]
      omega

/-- What was recorded again of a batch is the batch without the domain events that were not
kept. -/
theorem Entity.Takes.absorbs {e d : Entity S} {events kept dropped : List Event}
    (h : e.Takes d events kept)
    (hperm : (kept ++ dropped).Perm (events.filter fun event => event.lane = .domain)) :
    e.Absorbs d events dropped where
  continues := h.continues
  counts := by
    intro hr x
    have hpending := occurrences_of_map_eq x h.pending
    have hoobs := occurrences_of_map_eq x h.oobs
    rw [raised_of_routable hr] at hoobs
    have hdomain := occurrences_perm x hperm
    rw [occurrences_append] at hdomain
    rw [occurrences_batch, occurrences_batch, occurrences_lanes x hr]
    omega

theorem Entity.Merges.absorbs {routes : Routes Id S} {drawn : Moment → Prop} {e d : Entity S}
    {events kept dropped : List Event} (h : e.Merges routes drawn events d kept dropped) :
    e.Absorbs d events dropped where
  continues := h.continues
  counts := by
    obtain ⟨hreplays, htakes, -, hstaged⟩ := h
    have habsorbs := (htakes.absorbs hreplays.perm).counts
    rcases Entity.staged_eq_ok hstaged with ⟨-, rfl⟩ | ⟨-, _, memento, -, -, rfl⟩ <;>
      exact habsorbs

section Steps

variable {σ α : Type} {observe : σ → α} {draw : StateM σ Stamp} {routes : Routes Id S}
  {event : Event} {events : List Event} {e d : Entity S} {w w' : σ}

/-- One event of a batch is applied, if it is a domain event, and recorded again. -/
theorem resolves_reapplyEvent {r : Except ResolveError Unit}
    (hdraw : ∀ w stamp w', Runs draw w stamp w' → observe w' = observe w)
    (h : Resolves (Resolver.reapplyEvent routes.lift draw event) e w r d w') :
    observe w' = observe w ∧ (r = .ok () →
      e.Takes d [event] ([event].filter fun event => event.lane = .domain) ∧
        routes.Hydrates e.state ([event].filter fun event => event.lane = .domain) d.state) := by
  unfold Resolver.reapplyEvent at h
  cases hlane : event.lane with
  | domain =>
    simp only [hlane, resolves_entity_bind, resolves_ask_bind] at h
    obtain ⟨stamp, w₁, hstamp, h⟩ := h
    cases he : e.reapply (routes.lift : Routes (StateM σ) S) stamp event
        ConflictStrategy.ignore.name with
    | error err =>
      simp only [he, resolves_throw] at h
      obtain ⟨rfl, rfl, rfl⟩ := h
      exact ⟨hdraw _ _ _ hstamp, by simp⟩
    | ok d =>
      simp only [he, resolves_setEntity] at h
      obtain ⟨rfl, rfl, rfl⟩ := h
      obtain ⟨⟨s, applied⟩, hroute, rfl⟩ := except_map_eq_ok.1 he
      rw [List.filter_cons_of_pos (by simpa using hlane)]
      exact ⟨hdraw _ _ _ hstamp, fun _ => ⟨.record e s e.conflicts stamp _ hlane,
        Routes.hydrates_cons.2 ⟨s, applied, hroute, Routes.hydrates_nil.2 rfl⟩⟩⟩
  | oob =>
    simp only [hlane, resolves_entity_bind, resolves_ask_bind, resolves_setEntity] at h
    obtain ⟨stamp, w₁, hstamp, rfl, rfl, rfl⟩ := h
    have hstate : (e.reraise stamp event).2.state = e.state := by
      unfold Entity.reraise
      split <;> rfl
    rw [List.filter_cons_of_neg (by simp [hlane])]
    exact ⟨hdraw _ _ _ hstamp, fun _ => ⟨.reraise e stamp hlane, Routes.hydrates_nil.2 hstate⟩⟩
  | delayed | snapshot | plain =>
    rw [hlane] at h
    obtain ⟨rfl, rfl, rfl⟩ := resolves_pure.1 h
    rw [List.filter_cons_of_neg (by simp [hlane])]
    exact ⟨rfl, fun _ => ⟨.skip _ (by simp [hlane]), Routes.hydrates_nil.2 rfl⟩⟩

/-- All domain events of a batch are applied, and every event is recorded again. -/
theorem resolves_reapplyAll {r : Except ResolveError Unit}
    (hdraw : ∀ w stamp w', Runs draw w stamp w' → observe w' = observe w)
    (h : Resolves (Resolver.reapplyAll routes.lift draw events) e w r d w') :
    observe w' = observe w ∧ (r = .ok () →
      e.Takes d events (events.filter fun event => event.lane = .domain) ∧
        routes.Hydrates e.state (events.filter fun event => event.lane = .domain) d.state) := by
  induction events generalizing e w with
  | nil =>
    obtain ⟨rfl, rfl, rfl⟩ := resolves_pure.1 h
    exact ⟨rfl, fun _ => ⟨.refl _, Routes.hydrates_nil.2 rfl⟩⟩
  | cons event rest ih =>
    rw [Resolver.reapplyAll, resolves_bind] at h
    rcases h with ⟨err, hfirst, rfl⟩ | ⟨⟨⟩, d₁, w₁, hfirst, h⟩
    · exact ⟨(resolves_reapplyEvent hdraw hfirst).1, by simp⟩
    · obtain ⟨hsame, htaken⟩ := resolves_reapplyEvent hdraw hfirst
      obtain ⟨hsame', htaken'⟩ := ih h
      refine ⟨hsame'.trans hsame, fun hr => ?_⟩
      obtain ⟨hhead, hstate⟩ := htaken rfl
      obtain ⟨htail, hstate'⟩ := htaken' hr
      rw [← List.singleton_append, List.filter_append]
      exact ⟨hhead.cons htail, Routes.hydrates_append.2 ⟨_, hstate, hstate'⟩⟩

/-- How a batch is stored behind a newer history. -/
inductive IgnoreCourse (store : StreamStore (StateM σ)) (observe : σ → α) (routes : Routes Id S)
    (events : List Event) (commitId : Uuid) (headers : Headers) (e : Entity S) (w : σ) :
    Except ResolveError Resolution → Entity S → σ → Prop where
  | stopped {err : ResolveError} {d : Entity S} {w' : σ} (hsame : observe w' = observe w) :
      IgnoreCourse store observe routes events commitId headers e w (.error err) d w'
  | nothing {d : Entity S} {w' : σ}
      (htakes : e.Takes d events (events.filter fun event => event.lane = .domain))
      (hclean : d.timeline.dirty = false) (hsame : observe w' = observe w) :
      IgnoreCourse store observe routes events commitId headers e w (.ok .discarded) d w'
  | refused {d : Entity S} {cause : StoreError} {w₁ w' : σ} (hsame : observe w₁ = observe w)
      (happend : Runs (store.append commitId d.timeline headers) w₁ (.error cause) w') :
      IgnoreCourse store observe routes events commitId headers e w (.error (.ofStore cause)) d w'
  | stored {d : Entity S} {v : Int} {w₁ w' : σ}
      (htakes : e.Takes d events (events.filter fun event => event.lane = .domain))
      (hstate : routes.Hydrates e.state (events.filter fun event => event.lane = .domain) d.state)
      (hsame : observe w₁ = observe w)
      (happend : Runs (store.append commitId d.timeline headers) w₁ (.ok v) w') :
      IgnoreCourse store observe routes events commitId headers e w (.ok .committed) d.settle w'

theorem course_of_ignoring {store : StreamStore (StateM σ)} {supply : Surroundings (StateM σ)}
    {commitId : Uuid} {headers : Headers} {r : Except ResolveError Resolution}
    (hsupply : supply.Unobserved observe)
    (h : Resolves ((Resolver.ignoring store supply).resolve routes.lift events commitId headers)
      e w r d w') : IgnoreCourse store observe routes events commitId headers e w r d w' := by
  simp only [Resolver.ignoring] at h
  rw [resolves_bind] at h
  rcases h with ⟨err, hreapply, rfl⟩ | ⟨_, d₁, w₁, hreapply, h⟩
  · exact .stopped (resolves_reapplyAll hsupply.stamp hreapply).1
  obtain ⟨hsame, htaken⟩ := resolves_reapplyAll hsupply.stamp hreapply
  obtain ⟨htakes, hstate⟩ := htaken rfl
  rw [resolves_entity_bind] at h
  by_cases hdirty : d₁.timeline.dirty = true
  · rw [if_pos hdirty, resolves_discard_store_bind] at h
    rcases h with ⟨cause, happend, rfl, rfl⟩ | ⟨v, w₂, happend, h⟩
    · exact .refused hsame happend
    · rw [resolves_setEntity_bind, resolves_pure] at h
      obtain ⟨rfl, rfl, rfl⟩ := h
      exact .stored htakes hstate hsame happend
  · rw [if_neg hdirty] at h
    obtain ⟨rfl, rfl, rfl⟩ := resolves_pure.1 h
    exact .nothing htakes (by simpa using hdirty) hsame

end Steps

namespace World

/-- The world as if no identifiers had been handed out. -/
def unnumbered (w : World) : World := { w with issued := 0 }

variable {w w' : World}

theorem eq_logged_of_unnumbered (h : w'.unnumbered = w.unnumbered) :
    w' = w.logged w'.issued w.log := by
  cases w
  cases w'
  cases h
  rfl

theorem unobserved_surroundings : (surroundings cell).Unobserved unnumbered where
  freshId := by
    intro w id w' h
    obtain ⟨i, rfl⟩ := runs_freshId h
    rfl
  now := by
    intro w time w' h
    obtain ⟨-, rfl⟩ := runs_now.1 h
    rfl

theorem shows_surroundings {time : Moment} :
    (surroundings cell).Shows unnumbered w time → time = w.wall := by
  rintro ⟨u, u', hsame, h⟩
  rw [(runs_now.1 h).1, eq_logged_of_unnumbered hsame]
  rfl

end World

end Chronicle
