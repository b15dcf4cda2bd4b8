import Chronicle.Proofs.Committing

/-!
# The course of a merge

A merge sends the domain events of a batch through their conflict routes one after the other, each
on the state that the ones before it left. `Replays` says where that leads, which events are kept
and which are declined. Out-of-band events are recorded again as they are.

Routes decide about an event and the state and nothing else, so they are given without
surroundings here and lifted into those of a run. What is proved of a run holds for every store:
`observe` is whatever handing out identifiers and reading the clock leave alone.
-/

namespace Chronicle

variable {S : Type}

namespace Routes

/-- The routes in some surroundings, of which they make no use. -/
def lift {m : Type → Type} [Monad m] (routes : Routes Id S) : Routes m S where
  entity := routes.entity
  initial := routes.initial
  handlers := routes.handlers
  conflicts := routes.conflicts.map fun _ route v => (route v).map fun merge s => pure (merge s)
  snapshots := routes.snapshots

/-- The domain events that a merge into a state drops because their conflict routes decline
them. The merge ends at an event that cannot be merged for another reason. -/
def declined (routes : Routes Id S) : S → List Event → List Event
  | _, [] => []
  | s, event :: rest =>
    if event.lane = .domain then
      match routes.conflictEvent s event with
      | (.ok (), s) => routes.declined s rest
      | (.error (.signal .discard), s) => event :: routes.declined s rest
      | (.error _, _) => []
    else routes.declined s rest

theorem lane_of_declined {routes : Routes Id S} {s : S} {events : List Event} :
    ∀ e ∈ routes.declined s events, e.lane = .domain := by
  induction events generalizing s with
  | nil => simp [declined]
  | cons event rest ih =>
    intro e he
    unfold declined at he
    split at he
    · rename_i hlane
      split at he
      · exact ih e he
      · rcases List.mem_cons.1 he with rfl | he
        · exact hlane
        · exact ih e he
      · simp at he
    · exact ih e he

@[simp] theorem entity_lift {m : Type → Type} [Monad m] (routes : Routes Id S) :
    (routes.lift : Routes m S).entity = routes.entity := rfl

@[simp] theorem hasConflict_lift {m : Type → Type} [Monad m] (routes : Routes Id S)
    (kind : String) : (routes.lift : Routes m S).hasConflict kind = routes.hasConflict kind := by
  simp [hasConflict, lift]

theorem conflictEvent_eq {routes : Routes Id S} {s s' : S} {event : Event}
    {route : Json → Except Json.DecodeError (ConflictRoute Id S)} {merge : ConflictRoute Id S}
    {outcome : Except ConflictSignal Unit} (hroute : routes.conflicts[event.kind]? = some route)
    (hmerge : route event.payload = .ok merge) (hs : Id.run (merge s) = (outcome, s')) :
    routes.conflictEvent s event = (outcome.mapError .signal, s') := by
  simp only [conflictEvent, hroute, hmerge]
  change ((Id.run (merge s)).1.mapError _, (Id.run (merge s)).2) = _
  rw [hs]

theorem hydrate_lift {m : Type → Type} [Monad m] (routes : Routes Id S) (s : S)
    (events : List Event) :
    (routes.lift : Routes m S).hydrate s events = routes.hydrate s events := by
  induction events generalizing s with
  | nil => rfl
  | cons e rest ih =>
    simp only [hydrate, ih]
    rfl

/-- A lifted route answers what the route does and leaves the surroundings alone. -/
theorem runs_conflictEvent {σ : Type} {routes : Routes Id S} {s : S} {event : Event} {w w' : σ}
    {r : Except ConflictError Unit × S} :
    Runs ((routes.lift : Routes (StateM σ) S).conflictEvent s event) w r w' ↔
      r = routes.conflictEvent s event ∧ w' = w := by
  unfold conflictEvent
  simp only [lift, Std.ExtTreeMap.getElem?_map]
  cases routes.conflicts[event.kind]? with
  | none => exact runs_pure
  | some route =>
    simp only [Option.map_some]
    cases route event.payload with
    | error err => exact runs_pure
    | ok merge =>
      simp only [Except.map, pure_bind]
      exact runs_pure

end Routes

theorem Entity.ofTimeline_lift {m : Type → Type} [Monad m] (routes : Routes Id S) (t : Timeline) :
    ofTimeline (routes.lift : Routes m S) t = ofTimeline routes t := by
  simp only [ofTimeline, Routes.hydrate_lift]
  rfl

/-- The event can be recorded again: it is a domain event, or out of band on a channel. -/
def Event.Routable (e : Event) : Prop :=
  e.lane = .domain ∨ e.lane = .oob ∧ ∃ channel, e.channel? = some channel

/-- The out-of-band events of a batch that name a channel. They are raised again by a merge. -/
def raised (events : List Event) : List Event :=
  events.filter fun event => event.lane = .oob ∧ event.channel?.isSome

theorem raised_of_routable {events : List Event} (hr : ∀ event ∈ events, event.Routable) :
    raised events = events.filter fun event => event.lane = .oob := by
  refine List.filter_congr fun event hevent => ?_
  rcases hr event hevent with hlane | ⟨hlane, channel, hchannel⟩
  · simp [hlane]
  · simp [hlane, hchannel]

theorem Timeline.Sound.routable {t : Timeline} (h : t.Sound) : ∀ e ∈ t.batch, e.Routable := by
  intro e he
  rcases List.mem_append.1 he with he | he
  · exact .inl (h.domain e he)
  · obtain ⟨hlane, c, -, hc⟩ := h.oobs e he
    exact .inr ⟨hlane, c.id, hc⟩

/-- The timeline `t'` is `t` with more pending. -/
structure Timeline.Continues (t t' : Timeline) : Prop where
  stream : t'.stream = t.stream
  version : t'.version = t.version
  settled : t'.settled = t.settled
  snapshot : t'.snapshot = t.snapshot
  sound : t.Sound → t'.Sound

namespace Timeline.Continues

variable {t t' t'' : Timeline}

theorem refl (t : Timeline) : t.Continues t := ⟨rfl, rfl, rfl, rfl, id⟩

theorem trans (h : t.Continues t') (h' : t'.Continues t'') : t.Continues t'' where
  stream := h'.stream.trans h.stream
  version := h'.version.trans h.version
  settled := h'.settled.trans h.settled
  snapshot := h'.snapshot.trans h.snapshot
  sound := h'.sound ∘ h.sound

theorem add (t : Timeline) (stamp : Stamp) (kind : String) (payload : Json) (headers : Headers) :
    t.Continues (t.add stamp kind payload headers) :=
  ⟨rfl, rfl, rfl, rfl, fun h => h.add ..⟩

theorem addOob (t : Timeline) (stamp : Stamp) (kind : String) (payload : Json) (channel : String)
    (headers : Headers) : t.Continues (t.addOob stamp kind payload channel headers) :=
  ⟨rfl, rfl, rfl, rfl, fun h => h.addOob ..⟩

theorem addSnapshot (t : Timeline) (time : Moment) (memento : Json) :
    t.Continues (t.addSnapshot time memento) :=
  ⟨rfl, rfl, rfl, rfl, fun h => h.addSnapshot ..⟩

theorem of_apply {e e' : Entity S} {stamp : Stamp} {move : Move S}
    (h : e.apply stamp move = .ok e') : e.timeline.Continues e'.timeline := by
  obtain ⟨payload, -, rfl⟩ := Entity.apply_eq_ok h
  exact .add ..

theorem of_raise {e e' : Entity S} {stamp : Stamp} {move : Move S} {channel : String}
    {transient : Bool} {daysToLive : Option Nat}
    (h : e.raise stamp move channel transient daysToLive = .ok e') :
    e.timeline.Continues e'.timeline := by
  obtain ⟨payload, _, rfl⟩ := Entity.raise_eq_ok h
  exact .addOob ..

end Timeline.Continues

namespace Routes

/-- Sent through their conflict routes in order, the domain events of a batch lead from one state
to another. Some of them are kept and the others are declined. -/
inductive Replays (routes : Routes Id S) :
    S → List Event → S → List Event → List Event → Prop where
  | nil (s : S) : Replays routes s [] s [] []
  | merged {s s₁ s' : S} {event : Event} {rest kept dropped : List Event}
      (hlane : event.lane = .domain) (hroute : routes.conflictEvent s event = (.ok (), s₁))
      (hrest : Replays routes s₁ rest s' kept dropped) :
      Replays routes s (event :: rest) s' (event :: kept) dropped
  | declined {s s₁ s' : S} {event : Event} {rest kept dropped : List Event}
      (hlane : event.lane = .domain)
      (hroute : routes.conflictEvent s event = (.error (.signal .discard), s₁))
      (hrest : Replays routes s₁ rest s' kept dropped) :
      Replays routes s (event :: rest) s' kept (event :: dropped)
  | passed {s s' : S} {event : Event} {rest kept dropped : List Event}
      (hlane : event.lane ≠ .domain) (hrest : Replays routes s rest s' kept dropped) :
      Replays routes s (event :: rest) s' kept dropped

namespace Replays

variable {routes : Routes Id S} {s s' s₁ : S}
  {xs ys events kept kept' dropped dropped' : List Event}

theorem declined_eq (h : routes.Replays s events s' kept dropped) :
    routes.declined s events = dropped := by
  induction h with
  | nil s => rfl
  | merged hlane hroute hrest ih => simp only [Routes.declined, if_pos hlane, hroute, ih]
  | declined hlane hroute hrest ih => simp only [Routes.declined, if_pos hlane, hroute, ih]
  | passed hlane hrest ih => simp only [Routes.declined, if_neg hlane, ih]

theorem unique (h : routes.Replays s events s' kept dropped)
    (h' : routes.Replays s events s₁ kept' dropped') :
    s' = s₁ ∧ kept = kept' ∧ dropped = dropped' := by
  induction h generalizing s₁ kept' dropped' with
  | nil s =>
    cases h'
    exact ⟨rfl, rfl, rfl⟩
  | merged hlane hroute hrest ih =>
    cases h' with
    | merged _ hroute' hrest' =>
      cases hroute.symm.trans hroute'
      obtain ⟨rfl, rfl, rfl⟩ := ih hrest'
      exact ⟨rfl, rfl, rfl⟩
    | declined _ hroute' => cases hroute.symm.trans hroute'
    | passed hlane' => exact absurd hlane hlane'
  | declined hlane hroute hrest ih =>
    cases h' with
    | merged _ hroute' => cases hroute.symm.trans hroute'
    | declined _ hroute' hrest' =>
      cases hroute.symm.trans hroute'
      obtain ⟨rfl, rfl, rfl⟩ := ih hrest'
      exact ⟨rfl, rfl, rfl⟩
    | passed hlane' => exact absurd hlane hlane'
  | passed hlane hrest ih =>
    cases h' with
    | merged hlane' => exact absurd hlane' hlane
    | declined hlane' => exact absurd hlane' hlane
    | passed _ hrest' => exact ih hrest'

theorem append (h : routes.Replays s xs s₁ kept dropped)
    (h' : routes.Replays s₁ ys s' kept' dropped') :
    routes.Replays s (xs ++ ys) s' (kept ++ kept') (dropped ++ dropped') := by
  induction h with
  | nil s => exact h'
  | merged hlane hroute hrest ih => exact .merged hlane hroute (ih h')
  | declined hlane hroute hrest ih => exact .declined hlane hroute (ih h')
  | passed hlane hrest ih => exact .passed hlane (ih h')

theorem exists_of_append (h : routes.Replays s (xs ++ ys) s' kept dropped) :
    ∃ s₁ kept₁ dropped₁ kept₂ dropped₂, routes.Replays s xs s₁ kept₁ dropped₁ ∧
      routes.Replays s₁ ys s' kept₂ dropped₂ ∧ kept = kept₁ ++ kept₂ ∧
      dropped = dropped₁ ++ dropped₂ := by
  induction xs generalizing s kept dropped with
  | nil => exact ⟨s, [], [], kept, dropped, .nil s, h, rfl, rfl⟩
  | cons event rest ih =>
    cases h with
    | merged hlane hroute hrest =>
      obtain ⟨t, k, d, k', d', h₁, h₂, rfl, rfl⟩ := ih hrest
      exact ⟨t, _, d, k', d', .merged hlane hroute h₁, h₂, rfl, rfl⟩
    | declined hlane hroute hrest =>
      obtain ⟨t, k, d, k', d', h₁, h₂, rfl, rfl⟩ := ih hrest
      exact ⟨t, k, _, k', d', .declined hlane hroute h₁, h₂, rfl, rfl⟩
    | passed hlane hrest =>
      obtain ⟨t, k, d, k', d', h₁, h₂, rfl, rfl⟩ := ih hrest
      exact ⟨t, k, d, k', d', .passed hlane h₁, h₂, rfl, rfl⟩

theorem perm (h : routes.Replays s events s' kept dropped) :
    (kept ++ dropped).Perm (events.filter fun event => event.lane = .domain) := by
  induction h with
  | nil s => exact .refl _
  | merged hlane hroute hrest ih =>
    rw [List.filter_cons_of_pos (by simpa using hlane), List.cons_append]
    exact ih.cons _
  | declined hlane hroute hrest ih =>
    rw [List.filter_cons_of_pos (by simpa using hlane)]
    exact List.perm_middle.trans (ih.cons _)
  | passed hlane hrest ih =>
    rwa [List.filter_cons_of_neg (by simpa using hlane)]

theorem lane_of_kept (h : routes.Replays s events s' kept dropped) :
    ∀ event ∈ kept, event.lane = .domain := by
  intro event hmem
  have hall := h.perm.subset (List.mem_append_left dropped hmem)
  simpa using (List.mem_filter.1 hall).2

end Replays

end Routes

/-- The events of a batch were recorded again on an entity: the `kept` ones of the domain events,
and the out-of-band events that name a channel. -/
structure Entity.Takes (e d : Entity S) (events kept : List Event) : Prop where
  continues : e.timeline.Continues d.timeline
  unstaged : d.timeline.pendingSnapshot = e.timeline.pendingSnapshot
  pending : d.timeline.pending.map Event.entry =
    e.timeline.pending.map Event.entry ++ kept.map Event.entry
  oobs : d.timeline.pendingOobs.map Event.entry =
    e.timeline.pendingOobs.map Event.entry ++ (raised events).map Event.entry

namespace Entity.Takes

variable {e d d' : Entity S} {event : Event} {rest kept kept' : List Event}

theorem refl (e : Entity S) : e.Takes e [] [] :=
  ⟨.refl _, rfl, (List.append_nil _).symm, (List.append_nil _).symm⟩

theorem cons (h : e.Takes d [event] kept) (h' : d.Takes d' rest kept') :
    e.Takes d' (event :: rest) (kept ++ kept') where
  continues := h.continues.trans h'.continues
  unstaged := h'.unstaged.trans h.unstaged
  pending := by rw [h'.pending, h.pending, List.map_append, List.append_assoc]
  oobs := by
    rw [h'.oobs, h.oobs, List.append_assoc, ← List.map_append, raised, raised, raised,
      ← List.filter_append]
    rfl

theorem record (e : Entity S) (s : S) (conflicts : Nat) (stamp : Stamp) (strategy : String)
    (hlane : event.lane = .domain) :
    e.Takes ({ e with state := s, conflicts }.record stamp event strategy) [event] [event] where
  continues := .add ..
  unstaged := rfl
  pending := by
    rw [Entity.record, Timeline.pending_add, List.map_append]
    simp [Timeline.draft, Event.entry, Event.content, hlane]
  oobs := by simp [Entity.record, Timeline.add, raised, hlane]

theorem decline (e : Entity S) (s : S) (conflicts : Nat) (hlane : event.lane = .domain) :
    e.Takes { e with state := s, conflicts } [event] [] :=
  ⟨.refl _, rfl, by simp, by simp [raised, hlane]⟩

theorem reraise (e : Entity S) (stamp : Stamp) (hlane : event.lane = .oob) :
    e.Takes (e.reraise stamp event).2 [event] [] := by
  cases hc : event.channel? with
  | none =>
    have he : (e.reraise stamp event).2 = e := by simp [Entity.reraise, hc]
    rw [he]
    exact ⟨.refl _, rfl, by simp, by simp [raised, hc]⟩
  | some channel =>
    have he : (e.reraise stamp event).2.timeline =
        e.timeline.addOob stamp event.kind event.payload channel event.headers := by
      simp [Entity.reraise, hc]
    refine ⟨he ▸ .addOob .., by rw [he]; rfl, by simp [he], ?_⟩
    rw [he, Timeline.addOob, List.map_append]
    simp [Timeline.draft, Event.entry, Event.content, raised, hlane, hc]

theorem skip (e : Entity S) (ho : event.lane ≠ .oob) : e.Takes e [event] [] :=
  ⟨.refl _, rfl, by simp, by simp [raised, ho]⟩

end Entity.Takes

/-- How a replay of a batch on an entity ends. -/
inductive Replayed (routes : Routes Id S) (e : Entity S) (events : List Event) :
    Except ResolveError Nat → Entity S → Prop where
  | taken {n : Nat} {d : Entity S} {kept dropped : List Event}
      (hreplays : routes.Replays e.state events d.state kept dropped)
      (htakes : e.Takes d events kept) : Replayed routes e events (.ok n) d
  | stopped {err : ResolveError} {d : Entity S} (hfinal : err.isTransient = false)
      (hcontinues : e.timeline.Continues d.timeline)
      (hnever : ∀ s' kept dropped, ¬ routes.Replays e.state events s' kept dropped) :
      Replayed routes e events (.error err) d

section Steps

variable {σ α : Type} {observe : σ → α} {draw : StateM σ Stamp} {routes : Routes Id S}
  {event : Event} {events : List Event} {e d : Entity S} {w w' : σ}

theorem Entity.runs_conflict {strategy : String} {outcome : Except ConflictError Unit}
    (hdraw : ∀ w stamp w', Runs draw w stamp w' → observe w' = observe w)
    (h : Runs (e.conflict routes.lift draw event strategy) w (outcome, d) w') :
    observe w' = observe w ∧ ∃ s conflicts,
      routes.conflictEvent e.state event = (outcome, s) ∧
        (outcome = .ok () → ∃ stamp,
          d = { e with state := s, conflicts }.record stamp event strategy) ∧
        (∀ err, outcome = .error err → d = { e with state := s, conflicts }) := by
  unfold Entity.conflict at h
  split at h
  · rw [runs_bind] at h
    obtain ⟨⟨answer, s⟩, w₁, hroute, h⟩ := h
    obtain ⟨hanswer, rfl⟩ := Routes.runs_conflictEvent.1 hroute
    cases answer with
    | ok u =>
      rw [runs_bind_pure] at h
      obtain ⟨stamp, hstamp, hp⟩ := h
      cases hp
      exact ⟨hdraw _ _ _ hstamp, s, _, hanswer.symm, fun _ => ⟨stamp, rfl⟩, by simp⟩
    | error err =>
      obtain ⟨hp, rfl⟩ := runs_pure.1 h
      cases hp
      exact ⟨rfl, s, _, hanswer.symm, by simp, fun _ _ => rfl⟩
  · rename_i hroute
    obtain ⟨hp, rfl⟩ := runs_pure.1 h
    cases hp
    refine ⟨rfl, e.state, e.conflicts, ?_, by simp, fun _ _ => rfl⟩
    have hnone : routes.conflicts[event.kind]? = none := by
      rw [Routes.hasConflict_lift, Routes.hasConflict] at hroute
      simpa using hroute
    simp only [Routes.conflictEvent, hnone]
    rfl

theorem ResolveError.isTransient_ofStore (cause : StoreError) :
    (ofStore cause).isTransient = true := by
  cases cause <;> rfl

theorem ResolveError.isTransient_ofConflict (entity : String) (err : ConflictError) :
    (ofConflict entity err).isTransient = false := by
  cases err with
  | route error => cases error <;> rfl
  | signal signal => cases signal <;> rfl

/-- One event of a batch: it is recorded again, declined, or ends the merge. -/
theorem resolves_replayEvent {strategy : ConflictStrategy} {r : Except ResolveError Nat}
    (hdraw : ∀ w stamp w', Runs draw w stamp w' → observe w' = observe w)
    (h : Resolves (replayEvent routes.lift draw strategy event) e w r d w') :
    observe w' = observe w ∧ Replayed routes e [event] r d := by
  unfold replayEvent at h
  cases hlane : event.lane with
  | domain =>
    simp only [hlane, resolves_entity_bind, resolves_ask_bind, resolves_setEntity_bind] at h
    obtain ⟨⟨outcome, d₁⟩, w₁, hc, h⟩ := h
    obtain ⟨hsame, s, conflicts, hroute, hok, herror⟩ := Entity.runs_conflict hdraw hc
    cases outcome with
    | ok u =>
      obtain ⟨stamp, rfl⟩ := hok rfl
      obtain ⟨rfl, rfl, rfl⟩ := resolves_pure.1 h
      exact ⟨hsame, .taken (.merged hlane hroute (.nil s)) (.record e s conflicts stamp _ hlane)⟩
    | error err =>
      have he := herror err rfl
      by_cases hd : err = .signal .discard
      · subst hd
        obtain ⟨rfl, rfl, rfl⟩ := resolves_pure.1 h
        rw [he]
        exact ⟨hsame, .taken (.declined hlane hroute (.nil s)) (.decline e s conflicts hlane)⟩
      · have ht : r = .error (.ofConflict routes.entity err) ∧ d = d₁ ∧ w' = w₁ := by
          cases err with
          | route error => exact resolves_throw.1 h
          | signal signal =>
            cases signal with
            | discard => exact absurd rfl hd
            | abandon reason => exact resolves_throw.1 h
        obtain ⟨rfl, rfl, rfl⟩ := ht
        rw [he]
        -- A route that stopped the merge in this state does so whenever it is asked.
        refine ⟨hsame, .stopped (ResolveError.isTransient_ofConflict ..) (.refl _) ?_⟩
        intro s' kept dropped hreplays
        cases hreplays with
        | merged _ hroute' => cases hroute.symm.trans hroute'
        | declined _ hroute' =>
          cases hroute.symm.trans hroute'
          exact hd rfl
        | passed hlane' => exact hlane' hlane
  | oob =>
    simp only [hlane, resolves_entity_bind, resolves_ask_bind, resolves_setEntity_bind,
      resolves_pure] at h
    obtain ⟨stamp, w₁, hstamp, rfl, rfl, rfl⟩ := h
    have hstate : (e.reraise stamp event).2.state = e.state := by
      unfold Entity.reraise
      split <;> rfl
    have hreplays : routes.Replays e.state [event] (e.reraise stamp event).2.state [] [] := by
      rw [hstate]
      exact .passed (by simp [hlane]) (.nil _)
    exact ⟨hdraw _ _ _ hstamp, .taken hreplays (.reraise e stamp hlane)⟩
  | delayed | snapshot | plain =>
    rw [hlane] at h
    obtain ⟨rfl, rfl, rfl⟩ := resolves_pure.1 h
    exact ⟨rfl, .taken (.passed (by simp [hlane]) (.nil _)) (.skip _ (by simp [hlane]))⟩

/-- A batch is replayed to its end, or an event of it can never be merged. -/
theorem resolves_replay {strategy : ConflictStrategy} {r : Except ResolveError Nat}
    (hdraw : ∀ w stamp w', Runs draw w stamp w' → observe w' = observe w)
    (h : Resolves (replay routes.lift draw strategy events) e w r d w') :
    observe w' = observe w ∧ Replayed routes e events r d := by
  -- The entity changes with each event, so that the rest is replayed on another one.
  induction events generalizing e w r with
  | nil =>
    obtain ⟨rfl, rfl, rfl⟩ := resolves_pure.1 h
    exact ⟨rfl, .taken (.nil _) (.refl _)⟩
  | cons event rest ih =>
    rw [replay, resolves_bind] at h
    rcases h with ⟨err, hfirst, rfl⟩ | ⟨n, d₁, w₁, hfirst, h⟩
    · obtain ⟨hsame, hended⟩ := resolves_replayEvent hdraw hfirst
      cases hended with
      | stopped hfinal hcontinues hnever =>
        refine ⟨hsame, .stopped hfinal hcontinues fun s' kept dropped hreplays => ?_⟩
        change routes.Replays e.state ([event] ++ rest) s' kept dropped at hreplays
        obtain ⟨s₁, kept₁, dropped₁, _, _, hhead, -⟩ := hreplays.exists_of_append
        exact hnever s₁ kept₁ dropped₁ hhead
    · obtain ⟨hsame, hended⟩ := resolves_replayEvent hdraw hfirst
      cases hended with
      | taken hhead htakes =>
        rw [resolves_bind] at h
        rcases h with ⟨err, hrest, rfl⟩ | ⟨k, d₂, w₂, hrest, h⟩
        · obtain ⟨hsame', hended'⟩ := ih hrest
          cases hended' with
          | stopped hfinal hcontinues hnever =>
            refine ⟨hsame'.trans hsame, .stopped hfinal (htakes.continues.trans hcontinues)
              fun s' kept dropped hreplays => ?_⟩
            change routes.Replays e.state ([event] ++ rest) s' kept dropped at hreplays
            obtain ⟨s₁, kept₁, dropped₁, kept₂, dropped₂, hhead', htail, -⟩ :=
              hreplays.exists_of_append
            obtain ⟨rfl, -, -⟩ := hhead'.unique hhead
            exact hnever s' kept₂ dropped₂ htail
        · obtain ⟨rfl, rfl, rfl⟩ := resolves_pure.1 h
          obtain ⟨hsame', hended'⟩ := ih hrest
          cases hended' with
          | taken hreplays htakes' =>
            exact ⟨hsame'.trans hsame, .taken (hhead.append hreplays) (htakes.cons htakes')⟩

end Steps

theorem Entity.staged_lift {m : Type → Type} [Monad m] (e : Entity S) (routes : Routes Id S)
    (time : Moment) : e.staged (routes.lift : Routes m S) time = e.staged routes time := rfl

/-- An entity took in a batch, and a snapshot of its state is staged if one is due. The snapshot
was taken at one of the `drawn` times. -/
inductive Entity.Merges (routes : Routes Id S) (drawn : Moment → Prop) (e : Entity S)
    (events : List Event) : Entity S → List Event → List Event → Prop where
  | intro {taken d : Entity S} {time : Moment} {kept dropped : List Event}
      (hreplays : routes.Replays e.state events taken.state kept dropped)
      (htakes : e.Takes taken events kept)
      (htime : taken.shouldTakeSnapshot routes = true → drawn time)
      (hstaged : taken.staged routes time = .ok d) : Merges routes drawn e events d kept dropped

namespace Entity.Merges

variable {routes : Routes Id S} {drawn drawn' : Moment → Prop} {e d : Entity S}
  {events kept dropped : List Event}

theorem mono (h : e.Merges routes drawn events d kept dropped)
    (hd : ∀ time, drawn time → drawn' time) :
    e.Merges routes drawn' events d kept dropped := by
  obtain ⟨hreplays, htakes, htime, hstaged⟩ := h
  exact ⟨hreplays, htakes, fun hdue => hd _ (htime hdue), hstaged⟩

theorem replays (h : e.Merges routes drawn events d kept dropped) :
    routes.Replays e.state events d.state kept dropped := by
  obtain ⟨hreplays, htakes, htime, hstaged⟩ := h
  rcases staged_eq_ok hstaged with ⟨-, rfl⟩ | ⟨-, _, memento, -, -, rfl⟩ <;> exact hreplays

theorem continues (h : e.Merges routes drawn events d kept dropped) :
    e.timeline.Continues d.timeline := by
  obtain ⟨hreplays, htakes, htime, hstaged⟩ := h
  rcases staged_eq_ok hstaged with ⟨-, rfl⟩ | ⟨-, _, memento, -, -, rfl⟩
  · exact htakes.continues
  · exact htakes.continues.trans (.addSnapshot ..)

theorem pending (h : e.Merges routes drawn events d kept dropped) :
    d.timeline.pending.map Event.entry =
      e.timeline.pending.map Event.entry ++ kept.map Event.entry := by
  obtain ⟨hreplays, htakes, htime, hstaged⟩ := h
  rcases staged_eq_ok hstaged with ⟨-, rfl⟩ | ⟨-, _, memento, -, -, rfl⟩ <;> exact htakes.pending

theorem oobs (h : e.Merges routes drawn events d kept dropped) :
    d.timeline.pendingOobs.map Event.entry =
      e.timeline.pendingOobs.map Event.entry ++ (raised events).map Event.entry := by
  obtain ⟨hreplays, htakes, htime, hstaged⟩ := h
  rcases staged_eq_ok hstaged with ⟨-, rfl⟩ | ⟨-, _, memento, -, -, rfl⟩ <;> exact htakes.oobs

theorem staged (h : e.Merges routes drawn events d kept dropped)
    (hclean : e.timeline.pendingSnapshot = none) {s : Snapshot}
    (hs : d.timeline.pendingSnapshot = some s) :
    s.version = d.timeline.nextVersion ∧ drawn s.taken ∧ d.timeline.pending ≠ [] ∧
      ∃ snapshots ∈ routes.snapshots, snapshots.encode d.state = .ok s.memento := by
  obtain @⟨taken, _, _, _, _, hreplays, htakes, htime, hstaged⟩ := h
  rcases staged_eq_ok hstaged with ⟨-, rfl⟩ | ⟨hdue, snapshots, memento, hsome, hencode, rfl⟩
  · rw [htakes.unstaged, hclean] at hs
    cases hs
  · cases hs
    have hpending : taken.timeline.pending ≠ [] := by
      intro hnil
      simp [shouldTakeSnapshot, hnil] at hdue
    exact ⟨rfl, htime hdue, hpending, snapshots, hsome, hencode⟩

end Entity.Merges

section Courses

variable {σ α : Type} {observe : σ → α} {store : StreamStore (StateM σ)}
  {supply : Surroundings (StateM σ)} {routes : Routes Id S} {events : List Event}
  {commitId : Uuid} {headers : Headers} {strategy : ConflictStrategy} {e d : Entity S} {w w' : σ}

/-- The times that a clock may show as long as what is observed stays the same. -/
def Surroundings.Shows (supply : Surroundings (StateM σ)) (observe : σ → α) (w : σ)
    (time : Moment) : Prop :=
  ∃ u u', observe u = observe w ∧ Runs supply.now u time u'

/-- Identifiers and the time come from where nothing is observed. -/
structure Surroundings.Unobserved (supply : Surroundings (StateM σ)) (observe : σ → α) : Prop where
  freshId : ∀ w id w', Runs supply.freshId w id w' → observe w' = observe w
  now : ∀ w time w', Runs supply.now w time w' → observe w' = observe w

theorem Surroundings.Unobserved.stamp (h : supply.Unobserved observe) (w : σ) (stamp : Stamp)
    (w' : σ) (hs : Runs supply.stamp w stamp w') : observe w' = observe w := by
  simp only [Surroundings.stamp, runs_bind, runs_pure] at hs
  obtain ⟨id, w₁, hid, time, w₂, hnow, rfl, rfl⟩ := hs
  exact (h.now _ _ _ hnow).trans (h.freshId _ _ _ hid)

theorem Surroundings.Unobserved.comp {β : Type} (h : supply.Unobserved observe) (f : α → β) :
    supply.Unobserved (f ∘ observe) where
  freshId w id w' hid := congrArg f (h.freshId w id w' hid)
  now w time w' hnow := congrArg f (h.now w time w' hnow)

/-- How the merge of a batch into an entity goes. -/
inductive MergeCourse (store : StreamStore (StateM σ)) (supply : Surroundings (StateM σ))
    (observe : σ → α) (routes : Routes Id S) (events : List Event) (commitId : Uuid)
    (headers : Headers) (e : Entity S) (w : σ) :
    Except ResolveError Resolution → Entity S → σ → Prop where
  | stopped {err : ResolveError} {d : Entity S} {w' : σ} (hfinal : err.isTransient = false)
      (hcontinues : e.timeline.Continues d.timeline) (hsame : observe w' = observe w)
      (hnever : (∀ snapshots ∈ routes.snapshots, ∀ s, ∃ memento, snapshots.encode s = .ok memento) →
        ∀ s' kept dropped, ¬ routes.Replays e.state events s' kept dropped) :
      MergeCourse store supply observe routes events commitId headers e w (.error err) d w'
  | nothing {d : Entity S} {kept dropped : List Event} {w' : σ}
      (hmerges : e.Merges routes (supply.Shows observe w) events d kept dropped)
      (hclean : d.timeline.dirty = false) (hsame : observe w' = observe w) :
      MergeCourse store supply observe routes events commitId headers e w (.ok .discarded) d w'
  | refused {d : Entity S} {kept dropped : List Event} {cause : StoreError} {w₁ w' : σ}
      (hmerges : e.Merges routes (supply.Shows observe w) events d kept dropped)
      (hsame : observe w₁ = observe w)
      (hwrite : Runs (store.write commitId d.timeline headers) w₁ (.error cause) w') :
      MergeCourse store supply observe routes events commitId headers e w
        (.error (.ofStore cause)) d w'
  | stored {d : Entity S} {kept dropped : List Event} {v : Int} {w₁ w' : σ}
      (hmerges : e.Merges routes (supply.Shows observe w) events d kept dropped)
      (hsame : observe w₁ = observe w)
      (hwrite : Runs (store.write commitId d.timeline headers) w₁ (.ok v) w') :
      MergeCourse store supply observe routes events commitId headers e w (.ok .committed)
        d.settle w'

private theorem course_of_write {r : Except ResolveError Resolution} {kept dropped : List Event}
    {w₁ : σ} {merged e' : Entity S}
    (hmerges : e.Merges routes (supply.Shows observe w) events merged kept dropped)
    (hsame : observe w₁ = observe w)
    (h : Resolves (do
      let e ← Resolving.entity
      if e.timeline.dirty then
        discard (Resolving.store (store.write commitId e.timeline headers))
        Resolving.setEntity e.settle
        pure .committed
      else pure .discarded) merged w₁ r e' w') :
    MergeCourse store supply observe routes events commitId headers e w r e' w' := by
  rw [resolves_entity_bind] at h
  split at h
  · rw [resolves_discard_store_bind] at h
    rcases h with ⟨cause, hwrite, rfl, rfl⟩ | ⟨v, w₂, hwrite, h⟩
    · exact .refused hmerges hsame hwrite
    · rw [resolves_setEntity_bind, resolves_pure] at h
      obtain ⟨rfl, rfl, rfl⟩ := h
      exact .stored hmerges hsame hwrite
  · rename_i hdirty
    obtain ⟨rfl, rfl, rfl⟩ := resolves_pure.1 h
    exact .nothing hmerges (by simpa using hdirty) hsame

/-- The batch is replayed, a snapshot is staged if one is due, and what is pending is written. -/
theorem course_of_mergeAndWrite {r : Except ResolveError Resolution}
    (hsupply : supply.Unobserved observe)
    (h : Resolves (mergeAndWrite store supply routes.lift events commitId headers strategy) e w
      r d w') :
    MergeCourse store supply observe routes events commitId headers e w r d w' := by
  rw [mergeAndWrite, resolves_discard_bind] at h
  rcases h with ⟨err, hreplay, rfl⟩ | ⟨count, taken, w₁, hreplay, h⟩
  · obtain ⟨hsame, hended⟩ := resolves_replay hsupply.stamp hreplay
    cases hended with
    | stopped hfinal hcontinues hnever =>
      exact .stopped hfinal hcontinues hsame fun _ => hnever
  obtain ⟨hsame, hended⟩ := resolves_replay hsupply.stamp hreplay
  cases hended with
  | @taken n _ kept dropped hreplays htakes =>
    rw [resolves_entity_bind] at h
    split at h
    · rename_i hdue
      rw [resolves_ask_bind] at h
      obtain ⟨time, w₂, hnow, h⟩ := h
      have hsame' := (hsupply.now _ _ _ hnow).trans hsame
      cases hsnap : taken.takeSnapshot (routes.lift : Routes (StateM σ) S) time with
      | error err =>
        simp only [hsnap, resolves_bind, resolves_throw] at h
        rcases h with ⟨_, ⟨hthrown, he, rfl⟩, rfl⟩ | ⟨_, _, _, ⟨hthrown, -⟩, -⟩
        · cases hthrown
          rw [he]
          refine .stopped rfl htakes.continues hsame' fun hencodes => ?_
          obtain ⟨d₁, hd₁⟩ := Entity.exists_staged hencodes taken time
          rw [← Entity.staged_lift (m := StateM σ), Entity.staged, if_pos hdue] at hd₁
          cases hsnap.symm.trans hd₁
        · cases hthrown
      | ok d₁ =>
        simp only [hsnap, resolves_setEntity_bind] at h
        refine course_of_write (.intro hreplays htakes (fun _ => ⟨w₁, w₂, hsame, hnow⟩) ?_) hsame' h
        have hstaged := Entity.staged_lift (m := StateM σ) taken routes time
        rw [← hstaged, Entity.staged, if_pos hdue]
        exact hsnap
    · rename_i hdue
      have hstaged : taken.staged routes .epoch = .ok taken := if_neg hdue
      exact course_of_write (.intro hreplays htakes (fun hdue' => absurd hdue' hdue) hstaged)
        hsame h

/-- How the merge of a batch goes that is large enough to freeze the stream, or is not. -/
inductive SettleCourse (store : StreamStore (StateM σ)) (supply : Surroundings (StateM σ))
    (observe : σ → α) (routes : Routes Id S) (events : List Event) (commitId : Uuid)
    (headers : Headers) (threshold : Nat) (e : Entity S) (w : σ) :
    Except ResolveError Resolution → Entity S → σ → Prop where
  | light {r : Except ResolveError Resolution} {d : Entity S} {w' : σ}
      (hlight : domainCount events ≤ threshold)
      (hmerge : MergeCourse store supply observe routes events commitId headers e w r d w') :
      SettleCourse store supply observe routes events commitId headers threshold e w r d w'
  | barred {cause : StoreError} {w' : σ}
      (hfreeze : Runs (store.freeze e.timeline) w (.error cause) w') :
      SettleCourse store supply observe routes events commitId headers threshold e w
        (.error (.ofStore cause)) e w'
  | released {r : Except ResolveError Resolution} {d : Entity S} {w₁ w₂ w' : σ}
      (hlarge : threshold < domainCount events)
      (hfreeze : Runs (store.freeze e.timeline) w (.ok ()) w₁)
      (hmerge : MergeCourse store supply observe routes events commitId headers e w₁ r d w₂)
      (hrelease : Runs (store.unfreeze d.timeline) w₂ (.ok ()) w') :
      SettleCourse store supply observe routes events commitId headers threshold e w r d w'
  | stuck {r : Except ResolveError Resolution} {d : Entity S} {cause : StoreError} {w₁ w₂ w' : σ}
      (hlarge : threshold < domainCount events)
      (hfreeze : Runs (store.freeze e.timeline) w (.ok ()) w₁)
      (hmerge : MergeCourse store supply observe routes events commitId headers e w₁ r d w₂)
      (hrelease : Runs (store.unfreeze d.timeline) w₂ (.error cause) w') :
      SettleCourse store supply observe routes events commitId headers threshold e w
        (match r with
          | .ok _ => .error (.ofStore cause)
          | .error err => .error err) d w'

theorem course_of_settleBatch {threshold : Nat} {r : Except ResolveError Resolution}
    (hsupply : supply.Unobserved observe)
    (h : Resolves (settleBatch store supply routes.lift events commitId headers strategy threshold)
      e w r d w') :
    SettleCourse store supply observe routes events commitId headers threshold e w r d w' := by
  unfold settleBatch at h
  split at h
  · rename_i hlarge
    rw [resolves_entity_bind, resolves_store_bind] at h
    rcases h with ⟨err, hfreeze, rfl, rfl⟩ | ⟨_, w₁, hfreeze, h⟩
    · exact .barred hfreeze
    · rw [resolves_outcome_bind] at h
      obtain ⟨result, d₁, w₂, hmerge, h⟩ := h
      have hcourse := course_of_mergeAndWrite hsupply hmerge
      rw [resolves_entity_bind, resolves_outcome_bind] at h
      obtain ⟨released, d₂, w₃, hrelease, h⟩ := h
      obtain ⟨b, hunfreeze, rfl, rfl⟩ := resolves_store.1 hrelease
      cases b with
      | ok u =>
        have hend : r = result ∧ d = d₂ ∧ w' = w₃ := by
          cases result with
          | ok resolution => exact resolves_pure.1 h
          | error err => exact resolves_throw.1 h
        obtain ⟨rfl, rfl, rfl⟩ := hend
        exact .released hlarge hfreeze hcourse hunfreeze
      | error cause =>
        have hstuck := SettleCourse.stuck hlarge hfreeze hcourse hunfreeze
        cases result with
        | ok resolution =>
          obtain ⟨rfl, rfl, rfl⟩ := resolves_throw.1 h
          exact hstuck
        | error err =>
          obtain ⟨rfl, rfl, rfl⟩ := resolves_throw.1 h
          exact hstuck
  · rename_i hlight
    exact .light (Nat.le_of_not_lt hlight) (course_of_mergeAndWrite hsupply h)

end Courses

end Chronicle
