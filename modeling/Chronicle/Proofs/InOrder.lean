import Chronicle.Proofs.Noting

/-!
# A batch is replayed in order

The domain events of a batch go through their conflict routes in the order of the batch, each on the
state that the ones before it left, until the batch ends or one of them cannot be merged. `Retakes`
says what of the events behind it is pending afterwards, with their headers and versions, and
`ReplayCourse` how a replay ends and which routes it ran.
-/

namespace Chronicle

variable {σ S : Type}

namespace Routes

/-- A run of a conflict route for each domain event of a batch, in order, on the state that the
events before it left. -/
def calls (routes : Routes Id S) : S → List Event → List (Note S)
  | _, [] => []
  | s, event :: rest =>
    if event.lane = .domain then
      .route event.kind event.payload s :: routes.calls (routes.conflictEvent s event).2 rest
    else routes.calls s rest

theorem calls_of_domain {routes : Routes Id S} {s : S} {event : Event} (h : event.lane = .domain)
    (rest : List Event) : routes.calls s (event :: rest) =
      .route event.kind event.payload s :: routes.calls (routes.conflictEvent s event).2 rest :=
  if_pos h

theorem calls_of_other {routes : Routes Id S} {s : S} {event : Event} (h : event.lane ≠ .domain)
    (rest : List Event) : routes.calls s (event :: rest) = routes.calls s rest :=
  if_neg h

/-- The routes run on what is left of a batch as they would on a batch of its own. -/
theorem Replays.calls_append {routes : Routes Id S} {s s' : S} {xs kept dropped : List Event}
    (h : routes.Replays s xs s' kept dropped) (ys : List Event) :
    routes.calls s (xs ++ ys) = routes.calls s xs ++ routes.calls s' ys := by
  induction h with
  | nil s => rfl
  | merged hlane hroute hrest ih | declined hlane hroute hrest ih =>
    rw [List.cons_append, calls_of_domain hlane, calls_of_domain hlane, hroute, ih,
      List.cons_append]
  | passed hlane hrest ih =>
    rw [List.cons_append, calls_of_other hlane, calls_of_other hlane, ih]

/-- How many events are merged when a conflict route has answered. -/
def verdict {m : Type → Type} (routes : Routes m S) :
    Except ConflictError Unit → Except ResolveError Nat
  | .ok () => .ok 1
  | .error (.signal .discard) => .ok 0
  | .error err => .error (.ofConflict routes.entity err)

theorem answer_of_conflictEvent {routes : Routes Id S} {s s' : S} {event : Event}
    {outcome : Except ConflictError Unit} (hroute : routes.hasConflict event.kind = true)
    (h : routes.conflictEvent s event = (outcome, s')) :
    (∃ route err, routes.conflicts[event.kind]? = some route ∧ route event.payload = .error err ∧
      outcome = .error (.route (.decode event.kind err)) ∧ s' = s ∧ routes.run? s event = []) ∨
    ∃ answer : Except ConflictSignal Unit, outcome = answer.mapError .signal ∧
      routes.run? s event = [.route event.kind event.payload s] := by
  obtain ⟨route, hsome⟩ : ∃ route, routes.conflicts[event.kind]? = some route := by
    rw [hasConflict, Std.ExtTreeMap.contains_eq_isSome_getElem?] at hroute
    exact Option.isSome_iff_exists.1 hroute
  unfold conflictEvent at h
  unfold run?
  simp only [hsome] at h ⊢
  cases hread : route event.payload with
  | error err =>
    simp only [hread] at h
    cases h
    exact .inl ⟨route, err, rfl, hread, rfl, rfl, rfl⟩
  | ok merge =>
    simp only [hread] at h
    exact .inr ⟨_, (congrArg Prod.fst h).symm, rfl⟩

end Routes

theorem domainCount_append (xs ys : List Event) :
    domainCount (xs ++ ys) = domainCount xs + domainCount ys :=
  List.countP_append

theorem domainCount_of_domain {event : Event} (h : event.lane = .domain) :
    domainCount [event] = 1 := by
  simp [domainCount, h]

theorem domainCount_of_other {event : Event} (h : event.lane ≠ .domain) :
    domainCount [event] = 0 := by
  simp [domainCount, h]

theorem Routes.Replays.length_kept_le {routes : Routes Id S} {s s' : S}
    {events kept dropped : List Event} (h : routes.Replays s events s' kept dropped) :
    kept.length ≤ domainCount events := by
  have hlength := h.perm.length_eq
  rw [List.length_append, ← List.countP_eq_length_filter] at hlength
  exact Nat.le_trans (Nat.le_add_right ..) (Nat.le_of_eq hlength)

theorem raised_append (xs ys : List Event) : raised (xs ++ ys) = raised xs ++ raised ys :=
  List.filter_append ..

/-- Of the events of a batch the `kept` ones were recorded again by a strategy behind what was
pending, with the next versions, and the out-of-band events that name a channel as they are. So many
conflict routes were asked for it, and nothing else changed. -/
structure Entity.Retakes (strategy : String) (e d : Entity S) (events kept : List Event)
    (asked : Nat) : Prop where
  continues : e.timeline.Continues d.timeline
  unstaged : d.timeline.pendingSnapshot = e.timeline.pendingSnapshot
  pending : ∃ again, d.timeline.pending = e.timeline.pending ++ again ∧
    again.map Event.body = kept.map (Event.restated strategy) ∧
    Numbered (e.timeline.nextVersion + 1) again ∧
    ∀ x ∈ again, x.lane = .domain ∧ x.stream = e.timeline.stream
  nextVersion : d.timeline.nextVersion = e.timeline.nextVersion + kept.length
  oobs : ∃ again, d.timeline.pendingOobs = e.timeline.pendingOobs ++ again ∧
    again.map Event.body = (raised events).map Event.body ∧
    again.map Event.channel? = (raised events).map Event.channel? ∧
    ∀ x ∈ again, x.lane = .oob ∧ x.stream = e.timeline.stream
  conflicts : d.conflicts = e.conflicts + asked

namespace Entity.Retakes

variable {strategy : String} {e d d' : Entity S} {event : Event} {xs ys kept kept' : List Event}
  {n m : Nat}

theorem append (h : e.Retakes strategy d xs kept n) (h' : d.Retakes strategy d' ys kept' m) :
    e.Retakes strategy d' (xs ++ ys) (kept ++ kept') (n + m) where
  continues := h.continues.trans h'.continues
  unstaged := h'.unstaged.trans h.unstaged
  pending := by
    obtain ⟨again, hagain, hbody, hnumbered, hall⟩ := h.pending
    obtain ⟨again', hagain', hbody', hnumbered', hall'⟩ := h'.pending
    have hlength : again.length = kept.length := by simpa using congrArg List.length hbody
    refine ⟨again ++ again', by rw [hagain', hagain, List.append_assoc],
      by rw [List.map_append, hbody, hbody', List.map_append], ?_, fun x hx => ?_⟩
    · rw [numbered_append, hlength]
      refine ⟨hnumbered, ?_⟩
      -- The second part is numbered from where the first one ended.
      rwa [h.nextVersion, Int.add_right_comm] at hnumbered'
    · rcases List.mem_append.1 hx with hx | hx
      · exact hall x hx
      · rw [← h.continues.stream]
        exact hall' x hx
  nextVersion := by
    rw [h'.nextVersion, h.nextVersion, List.length_append]
    omega
  oobs := by
    obtain ⟨again, hagain, hbody, hchannel, hall⟩ := h.oobs
    obtain ⟨again', hagain', hbody', hchannel', hall'⟩ := h'.oobs
    refine ⟨again ++ again', by rw [hagain', hagain, List.append_assoc],
      by rw [raised_append, List.map_append, hbody, hbody', List.map_append],
      by rw [raised_append, List.map_append, hchannel, hchannel', List.map_append], fun x hx => ?_⟩
    rcases List.mem_append.1 hx with hx | hx
    · exact hall x hx
    · rw [← h.continues.stream]
      exact hall' x hx
  conflicts := by
    rw [h'.conflicts, h.conflicts]
    omega

theorem refl (strategy : String) (e : Entity S) : e.Retakes strategy e [] [] 0 :=
  ⟨.refl _, rfl, ⟨[], by simp, rfl, trivial, by simp⟩, by simp,
    ⟨[], by simp, rfl, rfl, by simp⟩, rfl⟩

theorem record (e : Entity S) (s : S) (stamp : Stamp) (strategy : String)
    (hlane : event.lane = .domain) :
    e.Retakes strategy
      ({ e with state := s, conflicts := e.conflicts + 1 }.record stamp event strategy)
      [event] [event] 1 where
  continues := .add ..
  unstaged := rfl
  pending := ⟨_, rfl, rfl, ⟨rfl, trivial⟩, by simp [Timeline.draft]⟩
  nextVersion := rfl
  oobs := ⟨[], (List.append_nil _).symm, by simp [raised, hlane], by simp [raised, hlane], by simp⟩
  conflicts := rfl

theorem ask (e : Entity S) (s : S) (strategy : String) :
    e.Retakes strategy { e with state := s, conflicts := e.conflicts + 1 } [] [] 1 :=
  ⟨.refl _, rfl, ⟨[], by simp, rfl, trivial, by simp⟩, by simp,
    ⟨[], by simp, rfl, rfl, by simp⟩, rfl⟩

theorem skip (h : e.Retakes strategy d [] kept n) (hnone : raised xs = []) :
    e.Retakes strategy d xs kept n :=
  { h with oobs := hnone ▸ h.oobs }

theorem reraise (e : Entity S) (stamp : Stamp) (strategy : String) (hlane : event.lane = .oob) :
    e.Retakes strategy (e.reraise stamp event).2 [event] [] 0 := by
  cases hc : event.channel? with
  | none =>
    have he : (e.reraise stamp event).2 = e := by simp [Entity.reraise, hc]
    rw [he]
    exact skip (.refl strategy e) (by simp [raised, hc])
  | some channel =>
    have he : (e.reraise stamp event).2 =
        { e with timeline :=
          e.timeline.addOob stamp event.kind event.payload channel event.headers } := by
      simp [Entity.reraise, hc]
    have hraised : raised [event] = [event] := by simp [raised, hlane, hc]
    have hheaders := Event.headers_insert_channel hc
    rw [he]
    refine ⟨.addOob .., rfl, ⟨[], by simp, rfl, trivial, by simp⟩, by simp [Timeline.addOob],
      ⟨_, rfl, ?_, ?_, by simp [Timeline.draft]⟩, rfl⟩
    · simp [Timeline.draft, Event.body, hheaders, hraised]
    · simp [Timeline.draft, Event.channel?, hheaders, hraised]

end Entity.Retakes

/-- How a replay of a batch on an entity ends, and the conflict routes that it ran. -/
inductive ReplayCourse (routes : Routes Id S) (strategy : String) (e : Entity S)
    (events : List Event) : Except ResolveError Nat → Entity S → List (Note S) → Prop where
  | ended {d : Entity S} {kept dropped : List Event}
      (hreplays : routes.Replays e.state events d.state kept dropped)
      (hretakes : e.Retakes strategy d events kept (domainCount events)) :
      ReplayCourse routes strategy e events (.ok kept.length) d (routes.calls e.state events)
  | unrouted {d : Entity S} {x : Event} {done rest kept dropped : List Event}
      (hevents : events = done ++ x :: rest) (hlane : x.lane = .domain)
      (hroute : routes.hasConflict x.kind = false)
      (hreplays : routes.Replays e.state done d.state kept dropped)
      (hretakes : e.Retakes strategy d done kept (domainCount done)) :
      ReplayCourse routes strategy e events
        (.error (.ofConflict routes.entity (routes.noConflictRoute x.kind))) d
        (routes.calls e.state done)
  | illegible {d : Entity S} {x : Event} {done rest kept dropped : List Event}
      {route : Json → Except Json.DecodeError (ConflictRoute Id S)} {err : Json.DecodeError}
      (hevents : events = done ++ x :: rest) (hlane : x.lane = .domain)
      (hroute : routes.conflicts[x.kind]? = some route) (hread : route x.payload = .error err)
      (hreplays : routes.Replays e.state done d.state kept dropped)
      (hretakes : e.Retakes strategy d done kept (domainCount done + 1)) :
      ReplayCourse routes strategy e events (.error (.route (.decode x.kind err))) d
        (routes.calls e.state done)
  | abandoned {d : Entity S} {x : Event} {done rest kept dropped : List Event} {s : S}
      {reason : String} (hevents : events = done ++ x :: rest) (hlane : x.lane = .domain)
      (hreplays : routes.Replays e.state done s kept dropped)
      (hroute : routes.conflictEvent s x = (.error (.signal (.abandon reason)), d.state))
      (hretakes : e.Retakes strategy d done kept (domainCount done + 1)) :
      ReplayCourse routes strategy e events (.error (.abandoned reason)) d
        (routes.calls e.state (done ++ [x]))

namespace ReplayCourse

variable {routes : Routes Id S} {strategy : String} {e d d' : Entity S}
  {xs ys kept dropped : List Event} {r : Except ResolveError Nat} {err : ResolveError}
  {new : List (Note S)}

/-- A replay needs no more versions than there are domain events. -/
theorem nextVersion_le (h : ReplayCourse routes strategy e xs r d new) :
    d.timeline.nextVersion ≤ e.timeline.nextVersion + domainCount xs := by
  cases h with
  | ended hreplays hretakes =>
    have hkept := hreplays.length_kept_le
    rw [hretakes.nextVersion]
    omega
  | unrouted hevents _ _ hreplays hretakes | illegible hevents _ _ _ hreplays hretakes
  | abandoned hevents _ hreplays _ hretakes =>
    have hkept := hreplays.length_kept_le
    rw [hretakes.nextVersion, hevents, domainCount_append]
    omega

theorem extend (h : ReplayCourse routes strategy e xs (.error err) d new) (ys : List Event) :
    ReplayCourse routes strategy e (xs ++ ys) (.error err) d new := by
  cases h with
  | unrouted hevents hlane hroute hreplays hretakes =>
    exact .unrouted (by rw [hevents, List.append_assoc, List.cons_append]) hlane hroute hreplays
      hretakes
  | illegible hevents hlane hroute hread hreplays hretakes =>
    exact .illegible (by rw [hevents, List.append_assoc, List.cons_append]) hlane hroute hread
      hreplays hretakes
  | abandoned hevents hlane hreplays hroute hretakes =>
    exact .abandoned (by rw [hevents, List.append_assoc, List.cons_append]) hlane hreplays hroute
      hretakes

theorem append (hreplays : routes.Replays e.state xs d.state kept dropped)
    (hretakes : e.Retakes strategy d xs kept (domainCount xs))
    (h : ReplayCourse routes strategy d ys r d' new) :
    ReplayCourse routes strategy e (xs ++ ys) (r.map (kept.length + ·)) d'
      (routes.calls e.state xs ++ new) := by
  cases h with
  | ended hreplays' hretakes' =>
    rw [← hreplays.calls_append]
    simp only [Except.map, ← List.length_append]
    refine .ended (hreplays.append hreplays') ?_
    rw [domainCount_append]
    exact hretakes.append hretakes'
  | unrouted hevents hlane hroute hreplays' hretakes' =>
    rw [← hreplays.calls_append]
    refine .unrouted (by rw [hevents, List.append_assoc]) hlane hroute
      (hreplays.append hreplays') ?_
    rw [domainCount_append]
    exact hretakes.append hretakes'
  | illegible hevents hlane hroute hread hreplays' hretakes' =>
    rw [← hreplays.calls_append]
    refine .illegible (by rw [hevents, List.append_assoc]) hlane hroute hread
      (hreplays.append hreplays') ?_
    rw [domainCount_append, Nat.add_assoc]
    exact hretakes.append hretakes'
  | abandoned hevents hlane hreplays' hroute hretakes' =>
    rw [← hreplays.calls_append, ← List.append_assoc]
    refine .abandoned (by rw [hevents, List.append_assoc]) hlane (hreplays.append hreplays') hroute
      ?_
    rw [domainCount_append, Nat.add_assoc]
    exact hretakes.append hretakes'

theorem passed {event : Event} (hlane : event.lane ≠ .domain) (hstate : d.state = e.state)
    (hretakes : e.Retakes strategy d [event] [] 0) :
    ReplayCourse routes strategy e [event] (.ok 0) d [] := by
  have hreplays : routes.Replays e.state [event] d.state [] [] := by
    rw [hstate]
    exact .passed hlane (.nil _)
  have hcalls : routes.calls e.state [event] = [] := Routes.calls_of_other hlane []
  rw [← hcalls]
  refine .ended hreplays ?_
  rwa [domainCount_of_other hlane]

end ReplayCourse

section Steps

variable {draw : StateM σ Stamp} {routes : Routes Id S} {strategy : ConflictStrategy}
  {event : Event} {events : List Event} {e d : Entity S} {notes : List (Note S)} {w : σ}
  {p : List (Note S) × σ} {r : Except ResolveError Nat}

theorem resolves_verdict {w' : σ} {outcome : Except ConflictError Unit} :
    Resolves (match outcome with
      | .ok () => pure 1
      | .error (.signal .discard) => pure 0
      | .error err => throw (.ofConflict routes.entity err)) e w r d w' ↔
      r = routes.verdict outcome ∧ d = e ∧ w' = w := by
  rcases outcome with (error | _ | reason) | ⟨⟩
  · exact resolves_throw
  · exact resolves_pure
  · exact resolves_throw
  · exact resolves_pure

theorem course_of_confronts {outcome : Except ConflictError Unit}
    (hlane : event.lane = .domain)
    (h : e.Confronts routes.lift draw strategy.name event notes w (outcome, d) p) :
    ∃ new w', p = (notes ++ new, w') ∧
      ReplayCourse routes strategy.name e [event] (routes.verdict outcome) d new := by
  have hcall : routes.calls e.state [event] = [.route event.kind event.payload e.state] :=
    Routes.calls_of_domain hlane []
  cases h with
  | unrouted hroute =>
    rw [Routes.hasConflict_lift] at hroute
    exact ⟨[], w, by simp, .unrouted (List.nil_append _).symm hlane hroute (.nil _) (.refl ..)⟩
  | @merged s stamp w₁ w' hroute hrun hdraw =>
    rw [Routes.hasConflict_lift] at hroute
    obtain ⟨hanswer, rfl⟩ := Routes.runs_conflictEvent.1 hrun
    rw [Routes.run?_lift]
    rcases Routes.answer_of_conflictEvent hroute hanswer.symm with
      ⟨_, _, -, -, houtcome, -⟩ | ⟨-, -, hran⟩
    · cases houtcome
    · rw [hran, ← hcall]
      refine ⟨_, w', rfl, ?_⟩
      -- The verdict on a merged event is one, which is how many events were kept.
      change ReplayCourse _ _ _ _ (.ok [event].length) _ _
      refine .ended (.merged hlane hanswer.symm (.nil s)) ?_
      rw [domainCount_of_domain hlane]
      exact .record e s stamp strategy.name hlane
  | @declined s err w' hroute hrun =>
    rw [Routes.hasConflict_lift] at hroute
    obtain ⟨hanswer, rfl⟩ := Routes.runs_conflictEvent.1 hrun
    rw [Routes.run?_lift]
    rcases Routes.answer_of_conflictEvent hroute hanswer.symm with
      ⟨route, cause, hsome, hread, houtcome, rfl, hran⟩ | ⟨answer, houtcome, hran⟩
    · cases houtcome
      rw [hran]
      exact ⟨[], w', rfl, .illegible (List.nil_append _).symm hlane hsome hread (.nil _) (.ask ..)⟩
    · rw [hran, ← hcall]
      refine ⟨_, w', rfl, ?_⟩
      cases answer with
      | ok u => cases houtcome
      | error signal =>
        cases houtcome
        cases signal with
        | discard =>
          change ReplayCourse _ _ _ _ (.ok ([] : List Event).length) _ _
          refine .ended (.declined hlane hanswer.symm (.nil s)) ?_
          rw [domainCount_of_domain hlane]
          exact .skip (.ask ..) (by simp [raised, hlane])
        | abandon reason =>
          exact .abandoned (List.nil_append _).symm hlane (.nil _) hanswer.symm (.ask ..)

theorem course_of_replayEvent
    (h : Resolves (replayEvent routes.lift.noted (unnoted draw) strategy event) e (notes, w)
      r d p) :
    ∃ new w', p = (notes ++ new, w') ∧
      ReplayCourse routes strategy.name e [event] r d new := by
  unfold replayEvent at h
  cases hlane : event.lane with
  | domain =>
    simp only [hlane, resolves_entity_bind, resolves_ask_bind, resolves_setEntity_bind] at h
    obtain ⟨⟨outcome, d₁⟩, p₁, hconflict, h⟩ := h
    have hcourse := course_of_confronts hlane (Entity.confronts_of_runs hconflict)
    obtain ⟨rfl, rfl, rfl⟩ := resolves_verdict.1 h
    exact hcourse
  | oob =>
    simp only [hlane, resolves_entity_bind, resolves_ask_bind, resolves_setEntity_bind,
      resolves_pure] at h
    obtain ⟨stamp, p₁, hstamp, rfl, rfl, rfl⟩ := h
    obtain ⟨w', -, rfl⟩ := runs_unnoted.1 hstamp
    have hstate : (e.reraise stamp event).2.state = e.state := by
      unfold Entity.reraise
      split <;> rfl
    exact ⟨[], w', by simp, .passed (by simp [hlane]) hstate (.reraise e stamp _ hlane)⟩
  | delayed | snapshot | plain =>
    rw [hlane] at h
    obtain ⟨rfl, rfl, rfl⟩ := resolves_pure.1 h
    exact ⟨[], w, by simp,
      .passed (by simp [hlane]) rfl (.skip (.refl ..) (by simp [raised, hlane]))⟩

theorem course_of_replay
    (h : Resolves (replay routes.lift.noted (unnoted draw) strategy events) e (notes, w) r d p) :
    ∃ new w', p = (notes ++ new, w') ∧ ReplayCourse routes strategy.name e events r d new := by
  -- The entity and the notes change with each event, so that the rest is replayed on others.
  induction events generalizing e notes w r with
  | nil =>
    obtain ⟨rfl, rfl, rfl⟩ := resolves_pure.1 h
    exact ⟨[], w, by simp, .ended (.nil _) (.refl ..)⟩
  | cons event rest ih =>
    rw [replay, resolves_bind] at h
    rcases h with ⟨err, hfirst, rfl⟩ | ⟨n, d₁, p₁, hfirst, h⟩
    · obtain ⟨new, w', rfl, hcourse⟩ := course_of_replayEvent hfirst
      exact ⟨new, w', rfl, hcourse.extend rest⟩
    · obtain ⟨new, w₁, rfl, hcourse⟩ := course_of_replayEvent hfirst
      cases hcourse with
      | ended hreplays hretakes =>
        rw [resolves_bind] at h
        rcases h with ⟨err, hrest, rfl⟩ | ⟨k, d₂, p₂, hrest, h⟩
        · obtain ⟨new', w', rfl, hcourse'⟩ := ih hrest
          exact ⟨_, w', by rw [List.append_assoc], .append hreplays hretakes hcourse'⟩
        · obtain ⟨rfl, rfl, rfl⟩ := resolves_pure.1 h
          obtain ⟨new', w', rfl, hcourse'⟩ := ih hrest
          exact ⟨_, w', by rw [List.append_assoc], .append hreplays hretakes hcourse'⟩

/-- Whatever the batch, the entity and the strategy, a replay runs the conflict routes of the domain
events in the order of the batch, each once and on the state that the ones before it left, and no
route for any other event. It ends behind the batch or at the first event that has no route, cannot
be read or abandons the batch. The events that were merged by then are pending behind the old ones,
the out-of-band events too, and the entity has counted the routes that were asked. Versions do not
run out if there is one for each domain event of the batch. -/
theorem in_order_replay (routes : Routes Id S) (draw : StateM σ Stamp) (strategy : ConflictStrategy)
    (events : List Event) (e : Entity S) (w : σ) :
    ∃ r d new w', Resolves (replay routes.lift draw strategy events) e w r d w' ∧
      Resolves (replay routes.lift.noted (unnoted draw) strategy events) e ([], w) r d (new, w') ∧
      ReplayCourse routes strategy.name e events r d new ∧
      (e.timeline.nextVersion + domainCount events ≤ lastVersion →
        d.timeline.nextVersion ≤ lastVersion) := by
  obtain ⟨⟨r, d⟩, p, hrun⟩ := Runs.total
    ((replay routes.lift.noted (unnoted draw) strategy events).run.run e) ([], w)
  obtain ⟨new, w', rfl, hcourse⟩ := course_of_replay hrun
  exact ⟨r, d, new, w', annotates_replay _ _ _ _ _ _ _ _ hrun, hrun, hcourse,
    Int.le_trans hcourse.nextVersion_le⟩

end Steps

end Chronicle
