import Chronicle.Proofs.Freezing
import Chronicle.Proofs.InOrder

/-!
# A batch of one event

What becomes of a batch of one domain event is for its conflict route to say. If states are not
recorded, a merge stores the event where the route merged it, stores nothing where the route
discarded it, and fails with what stopped the route otherwise. Where nobody else holds the stream
and the entity is up to date, nothing but the route makes it fail.
-/

namespace Chronicle

variable {S : Type}

namespace Routes

/-- A conflict route sees the kind and the payload of an event and nothing else. -/
theorem conflictEvent_congr {routes : Routes Id S} {a b : Event} (h : a.content = b.content)
    (s : S) : routes.conflictEvent s a = routes.conflictEvent s b := by
  obtain ⟨hkind, hpayload⟩ := Prod.mk.inj h
  simp only [conflictEvent, hkind, hpayload]

theorem kind_of_noRoute {routes : Routes Id S} {s s' : S} {event : Event} {entity kind : String}
    {route : RouteKind}
    (h : routes.conflictEvent s event = (.error (.route (.noRoute entity kind route)), s')) :
    kind = event.kind := by
  cases hroute : routes.hasConflict event.kind with
  | true =>
    rcases answer_of_conflictEvent hroute h with ⟨_, _, -, -, houtcome, -⟩ | ⟨answer, houtcome, -⟩
    · cases houtcome
    · cases answer <;> cases houtcome
  | false =>
    have hnone : routes.conflicts[event.kind]? = none := by
      rw [hasConflict] at hroute
      simpa [← Std.ExtTreeMap.contains_iff_mem] using hroute
    simp only [conflictEvent, hnone] at h
    cases h
    rfl

/-- What becomes of a batch of one event when its conflict route has answered. -/
def settlement {m : Type → Type} (routes : Routes m S) :
    Except ConflictError Unit → Except ResolveError Resolution
  | .ok () => .ok .committed
  | .error (.signal .discard) => .ok .discarded
  | .error err => .error (.ofConflict routes.entity err)

section Settlement

variable {m : Type → Type} {routes : Routes m S} {answer : Except ConflictError Unit}

theorem settlement_eq_committed :
    routes.settlement answer = .ok .committed ↔ answer = .ok () := by
  rcases answer with (_ | _ | _) | ⟨⟩ <;> simp [settlement]

theorem settlement_eq_discarded :
    routes.settlement answer = .ok .discarded ↔ answer = .error (.signal .discard) := by
  rcases answer with (_ | _ | _) | ⟨⟩ <;> simp [settlement]

theorem settlement_eq_abandoned {reason : String} :
    routes.settlement answer = .error (.abandoned reason) ↔
      answer = .error (.signal (.abandon reason)) := by
  rcases answer with ((_ | _ | _) | _ | _) | ⟨⟩ <;> simp [settlement, ResolveError.ofConflict]

theorem settlement_eq_failed {entity reason : String} :
    routes.settlement answer = .error (.failed entity reason) ↔
      entity = routes.entity ∧ ∃ name kind route,
        answer = .error (.route (.noRoute name kind route)) ∧
          reason = "no conflict route for `" ++ kind ++ "`" := by
  rcases answer with ((⟨name, kind, route⟩ | _ | _) | _ | _) | ⟨⟩ <;>
    simp [settlement, ResolveError.ofConflict, eq_comm]

end Settlement

end Routes

/-- What an entity is after it sent an event through its conflict route. -/
inductive Entity.Answers (routes : Routes Id S) (strategy : String) (e : Entity S) (event : Event) :
    Except ConflictError Unit → Entity S → Prop where
  | merged {s : S} {conflicts : Nat} {stamp : Stamp}
      (hroute : routes.conflictEvent e.state event = (.ok (), s)) :
      Answers routes strategy e event (.ok ())
        ({ e with state := s, conflicts }.record stamp event strategy)
  | declined {err : ConflictError} {s : S} {conflicts : Nat}
      (hroute : routes.conflictEvent e.state event = (.error err, s)) :
      Answers routes strategy e event (.error err) { e with state := s, conflicts }

namespace Entity.Answers

variable {routes : Routes Id S} {strategy : String} {e d : Entity S} {event : Event}
  {outcome : Except ConflictError Unit}

theorem conflictEvent_eq (h : e.Answers routes strategy event outcome d) :
    routes.conflictEvent e.state event = (outcome, d.state) := by
  cases h with
  | merged hroute | declined hroute => exact hroute

theorem continues (h : e.Answers routes strategy event outcome d) :
    e.timeline.Continues d.timeline := by
  cases h with
  | merged hroute => exact .add ..
  | declined hroute => exact .refl _

theorem pending (h : e.Answers routes strategy event (.ok ()) d) :
    d.timeline.pending.length = e.timeline.pending.length + 1 := by
  cases h with
  | merged hroute => simp [Entity.record]

theorem timeline_eq {err : ConflictError} (h : e.Answers routes strategy event (.error err) d) :
    d.timeline = e.timeline := by
  cases h with
  | declined hroute => rfl

end Entity.Answers

section Steps

variable {σ α : Type} {observe : σ → α} {draw : StateM σ Stamp} {routes : Routes Id S}
  {event : Event} {e d : Entity S} {w w' : σ}

theorem Entity.answers_of_runs {strategy : String} {outcome : Except ConflictError Unit}
    (hdraw : ∀ w stamp w', Runs draw w stamp w' → observe w' = observe w)
    (h : Runs (e.conflict routes.lift draw event strategy) w (outcome, d) w') :
    observe w' = observe w ∧ e.Answers routes strategy event outcome d := by
  obtain ⟨hsame, s, conflicts, hroute, hok, herror⟩ := Entity.runs_conflict hdraw h
  cases outcome with
  | ok u =>
    obtain ⟨stamp, rfl⟩ := hok rfl
    exact ⟨hsame, .merged hroute⟩
  | error err =>
    obtain rfl := herror err rfl
    exact ⟨hsame, .declined hroute⟩

/-- The replay of a domain event says how many events were merged, or what stopped the route. -/
theorem answers_of_replayEvent {strategy : ConflictStrategy} {r : Except ResolveError Nat}
    (hdraw : ∀ w stamp w', Runs draw w stamp w' → observe w' = observe w)
    (hlane : event.lane = .domain)
    (h : Resolves (replayEvent routes.lift draw strategy event) e w r d w') :
    observe w' = observe w ∧ ∃ outcome, r = routes.verdict outcome ∧
      e.Answers routes strategy.name event outcome d := by
  simp only [replayEvent, hlane, resolves_entity_bind, resolves_ask_bind,
    resolves_setEntity_bind] at h
  obtain ⟨⟨outcome, d₁⟩, w₁, hconflict, h⟩ := h
  obtain ⟨hsame, hanswers⟩ := Entity.answers_of_runs hdraw hconflict
  obtain ⟨rfl, rfl, rfl⟩ := resolves_verdict.1 h
  exact ⟨hsame, outcome, rfl, hanswers⟩

theorem replay_singleton {m : Type → Type} [Monad m] [LawfulMonad m] (routes : Routes m S)
    (stamp : m Stamp) (strategy : ConflictStrategy) (event : Event) :
    replay routes stamp strategy [event] = replayEvent routes stamp strategy event := by
  simp [replay]

end Steps

theorem Entity.shouldTakeSnapshot_of_none {m : Type → Type} {routes : Routes m S}
    (h : routes.snapshots = none) (e : Entity S) : e.shouldTakeSnapshot routes = false := by
  simp [shouldTakeSnapshot, Routes.policy?, h]

section Courses

variable {σ α : Type} {observe : σ → α} {store : StreamStore (StateM σ)}
  {supply : Surroundings (StateM σ)} {routes : Routes Id S} {event : Event} {commitId : Uuid}
  {headers : Headers} {strategy : ConflictStrategy} {e d : Entity S} {w w' : σ}

/-- How the merge of one event goes. -/
inductive LoneCourse (store : StreamStore (StateM σ)) (observe : σ → α) (routes : Routes Id S)
    (strategy : String) (event : Event) (commitId : Uuid) (headers : Headers) (e : Entity S)
    (w : σ) : Except ResolveError Resolution → Entity S → σ → Prop where
  | stored {d : Entity S} {v : Int} {w₁ w' : σ}
      (hanswers : e.Answers routes strategy event (.ok ()) d)
      (hsame : observe w₁ = observe w)
      (hwrite : Runs (store.write commitId d.timeline headers) w₁ (.ok v) w') :
      LoneCourse store observe routes strategy event commitId headers e w (.ok .committed) d.settle
        w'
  | refused {d : Entity S} {cause : StoreError} {w₁ w' : σ}
      (hanswers : e.Answers routes strategy event (.ok ()) d) (hsame : observe w₁ = observe w)
      (hwrite : Runs (store.write commitId d.timeline headers) w₁ (.error cause) w') :
      LoneCourse store observe routes strategy event commitId headers e w (.error (.ofStore cause))
        d w'
  | declined {d : Entity S} {err : ConflictError} {w' : σ}
      (hanswers : e.Answers routes strategy event (.error err) d) (hsame : observe w' = observe w) :
      LoneCourse store observe routes strategy event commitId headers e w
        (routes.settlement (.error err)) d w'

private theorem course_of_recorded {r : Except ResolveError Resolution} {merged : Entity S} {w₁ : σ}
    {outcome : Except ConflictError Unit} {count : Nat}
    (hverdict : routes.verdict outcome = .ok count)
    (hanswers : e.Answers routes strategy.name event outcome merged)
    (hsame : observe w₁ = observe w) (hclean : e.timeline.dirty = false)
    (h : Resolves (do
      let e ← Resolving.entity
      if e.timeline.dirty then
        discard (Resolving.store (store.write commitId e.timeline headers))
        Resolving.setEntity e.settle
        pure .committed
      else pure .discarded) merged w₁ r d w') :
    LoneCourse store observe routes strategy.name event commitId headers e w r d w' := by
  cases outcome with
  | error err =>
    obtain rfl : err = .signal .discard := by
      rcases err with error | _ | reason
      · cases hverdict
      · rfl
      · cases hverdict
    rw [resolves_entity_bind, hanswers.timeline_eq, hclean] at h
    obtain ⟨rfl, rfl, rfl⟩ := resolves_pure.1 h
    exact .declined hanswers hsame
  | ok u =>
    have hpending : merged.timeline.pending ≠ [] := by
      intro hnil
      have := hanswers.pending
      simp [hnil] at this
    cases settles_of_write h with
    | nothing hunused => simp [Timeline.dirty, hpending] at hunused
    | refused hwrite => exact .refused hanswers hsame hwrite
    | stored hdirty hwrite => exact .stored hanswers hsame hwrite

theorem course_of_lone {r : Except ResolveError Resolution} (hsupply : supply.Unobserved observe)
    (hplain : routes.snapshots = none) (hlane : event.lane = .domain)
    (hclean : e.timeline.dirty = false)
    (h : Resolves (mergeAndWrite store supply routes.lift [event] commitId headers strategy) e w
      r d w') :
    LoneCourse store observe routes strategy.name event commitId headers e w r d w' := by
  rw [mergeAndWrite, replay_singleton, resolves_discard_bind] at h
  rcases h with ⟨err, hreplay, rfl⟩ | ⟨count, d₁, w₁, hreplay, h⟩
  · obtain ⟨hsame, outcome, hr, hanswers⟩ := answers_of_replayEvent hsupply.stamp hlane hreplay
    rcases outcome with (error | _ | reason) | ⟨⟩
    · cases hr
      exact .declined hanswers hsame
    · cases hr
    · cases hr
      exact .declined hanswers hsame
    · cases hr
  · obtain ⟨hsame, outcome, hr, hanswers⟩ := answers_of_replayEvent hsupply.stamp hlane hreplay
    have hundue : d₁.shouldTakeSnapshot (routes.lift : Routes (StateM σ) S) = false :=
      Entity.shouldTakeSnapshot_of_none hplain d₁
    rw [resolves_entity_bind, hundue] at h
    exact course_of_recorded hr.symm hanswers hsame hclean h

end Courses

namespace World

variable {n : Node} {opened : Moment} {w w' : World} {commitId : Uuid} {headers : Headers}
  {strategy : ConflictStrategy} {threshold : Nat} {e d : Entity S}

/-- Where nobody holds the stream, a batch is merged as it would be without a freeze, in a world
that may differ in its metadata, and the freeze makes no difference to the result. -/
theorem exists_merge_of_settleBatch {routes : Routes (StateM World) S} {events : List Event}
    {r : Except ResolveError Resolution} (hfree : w.log.freeze? (e.timeline.key .domain) = none)
    (h : Resolves (settleBatch (n.store (site opened)) (surroundings cell) routes events commitId
      headers strategy threshold) e w r d w') :
    ∃ data w₁, (∀ f, (w.annotated data).log.freeze? (e.timeline.key .domain) = some f →
        f.owner = n.owner) ∧
      Resolves (mergeAndWrite (n.store (site opened)) (surroundings cell) routes events commitId
        headers strategy) e (w.annotated data) r d w₁ := by
  unfold settleBatch at h
  split at h
  · rw [resolves_entity_bind, resolves_store_bind] at h
    rcases h with ⟨err, hfreeze, -, -⟩ | ⟨_, w₁, hfreeze, h⟩
    · obtain ⟨hr, -⟩ := runs_freeze_of_none hfree hfreeze
      cases hr
    · obtain ⟨-, data, rfl, hfrozen⟩ := runs_freeze_of_none hfree hfreeze
      rw [resolves_outcome_bind] at h
      obtain ⟨result, d₁, w₂, hmerge, h⟩ := h
      rw [resolves_entity_bind, resolves_outcome_bind] at h
      obtain ⟨released, d₂, w₃, hrelease, h⟩ := h
      obtain ⟨b, hunfreeze, rfl, rfl⟩ := resolves_store.1 hrelease
      obtain ⟨rfl, -⟩ := runs_unfreeze hunfreeze
      have hend : r = result ∧ d = d₂ := by
        cases result with
        | ok resolution =>
          obtain ⟨rfl, rfl, -⟩ := resolves_pure.1 h
          exact ⟨rfl, rfl⟩
        | error err =>
          obtain ⟨rfl, rfl, -⟩ := resolves_throw.1 h
          exact ⟨rfl, rfl⟩
      obtain ⟨rfl, rfl⟩ := hend
      refine ⟨data, w₂, fun f hf => ?_, hmerge⟩
      rw [hfrozen, if_pos rfl] at hf
      cases hf
      rfl
  · exact ⟨w.log.metadata, w', by simp [annotated, hfree], h⟩

/-- On an entity at the version of its stream, which nobody holds, a batch of one domain event ends
as its conflict route answers, whatever the threshold. -/
theorem settled_of_lone {routes : Routes Id S} {event : Event} {r : Except ResolveError Resolution}
    (hplain : routes.snapshots = none) (hlane : event.lane = .domain)
    (hclean : e.timeline.dirty = false) (hfree : w.log.freeze? (e.timeline.key .domain) = none)
    (hversion : w.log.version (e.timeline.key .domain) = e.timeline.version)
    (h : Resolves (settleBatch (n.store (site opened)) (surroundings cell) routes.lift [event]
      commitId headers strategy threshold) e w r d w') :
    ∃ outcome, routes.conflictEvent e.state event = (outcome, d.state) ∧
      r = routes.settlement outcome := by
  obtain ⟨data, w₁, howner, hmerge⟩ := exists_merge_of_settleBatch hfree h
  cases course_of_lone unobserved_surroundings hplain hlane hclean hmerge with
  | stored hanswers hsame hwrite => exact ⟨.ok (), hanswers.conflictEvent_eq, rfl⟩
  | declined hanswers hsame => exact ⟨_, hanswers.conflictEvent_eq, rfl⟩
  | refused hanswers hsame hwrite =>
    have hkey : d.timeline.key .domain = e.timeline.key .domain := by
      rw [Timeline.key, Timeline.key, hanswers.continues.stream]
    rw [eq_logged_of_unnumbered hsame] at hwrite
    obtain ⟨v, hv⟩ := ok_of_write (by rwa [hkey]) (by
      rw [hkey, hanswers.continues.version]
      exact hversion) hwrite
    cases hv

end World

end Chronicle
