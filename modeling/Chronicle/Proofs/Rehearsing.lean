import Mathlib.Data.List.Infix
import Chronicle.Proofs.Accounts
import Chronicle.Proofs.LoneEvents
import Chronicle.Rehearsal
import Chronicle.Samples.States

/-!
# A rehearsal foretells the merge

A rehearsal applies the given events as they are and looks at the answer of the conflict route. A
merge reads the same events from a store through their handle routes, sends the event through its
conflict route, stores it and translates the errors. For states that are not recorded the two come
to the same: an expectation of the rehearsal is met exactly if the merge ends accordingly.
-/

namespace Chronicle

variable {S : Type}

namespace Text

theorem occursIn_iff {part text : List Char} : occursIn part text = true ↔ part <:+: text := by
  induction text with
  | nil => simp [occursIn]
  | cons c rest ih => simp [occursIn, ih, List.infix_cons_iff]

theorem contains_iff {text part : String} :
    contains text part = true ↔ part.toList <:+: text.toList :=
  occursIn_iff

end Text

def Move.applyAll (moves : List (Move S)) (s : S) : S := moves.foldl (fun s move => move.apply s) s

namespace Rehearsal

section Programs

variable {m : Type → Type} [Monad m]

/-- Let events have happened one after the other, up to the first that cannot be recorded. -/
def givenAll (supply : Surroundings m) :
    Rehearsal S → List (Move S) → m (Except RouteError (Rehearsal S))
  | r, [] => pure (.ok r)
  | r, move :: rest => do
    match r.given (← supply.stamp) move with
    | .ok r => givenAll supply r rest
    | .error err => pure (.error err)

def perform (routes : Routes m S) (supply : Surroundings m) (given : List (Move S)) (kind : String)
    (payload : Json) : m (Except RouteError (RehearsalResult S)) := do
  match ← givenAll supply (new routes) given with
  | .ok r =>
    let result ← r.whenConflicting routes supply kind payload
    pure (.ok result)
  | .error err => pure (.error err)

end Programs

variable {σ : Type} (supply : Surroundings (StateM σ))

theorem exists_given {move : Move S} {payload : Json} (h : move.payload = .ok payload)
    (r : Rehearsal S) (stamp : Stamp) :
    ∃ r', r.given stamp move = .ok r' ∧ r'.entity.state = move.apply r.entity.state ∧
      r'.entity.timeline.pending = [] := by
  refine ⟨⟨({ r.entity with
      timeline := r.entity.timeline.add stamp move.kind payload ∅
      state := move.apply r.entity.state } : Entity S).settle⟩, ?_, rfl, rfl⟩
  simp [given, Entity.apply, Move.encoded, h, Except.mapError, Except.map]

/-- Given events that have payloads lead where their moves lead, and nothing stays pending. -/
theorem runs_givenAll {given : List (Move S)}
    (hrecords : ∀ move ∈ given, ∃ payload, move.payload = .ok payload) (r : Rehearsal S)
    (hclean : r.entity.timeline.pending = []) (u : σ) :
    ∃ r' u', Runs (givenAll supply r given) u (.ok r') u' ∧
      r'.entity.state = Move.applyAll given r.entity.state ∧ r'.entity.timeline.pending = [] := by
  -- Each given event leaves another rehearsal, from which the rest goes on.
  induction given generalizing r u with
  | nil => exact ⟨r, u, runs_pure.2 ⟨rfl, rfl⟩, rfl, hclean⟩
  | cons move rest ih =>
    obtain ⟨payload, hpayload⟩ := hrecords move (List.mem_cons_self ..)
    obtain ⟨stamp, u₁, hstamp⟩ := Runs.total supply.stamp u
    obtain ⟨next, hnext, hstate, hsettled⟩ := exists_given hpayload r stamp
    obtain ⟨r', u', hrest, hstate', hpending⟩ :=
      ih (fun other hother => hrecords other (List.mem_cons_of_mem _ hother)) next hsettled u₁
    refine ⟨r', u', runs_bind.2 ⟨stamp, u₁, hstamp, ?_⟩, ?_, hpending⟩
    · simpa only [hnext] using hrest
    · rw [hstate', hstate]
      rfl

/-- The conflicting event is asked about with its kind and payload. -/
theorem runs_whenConflicting (routes : Routes Id S) (r : Rehearsal S) (kind : String)
    (payload : Json) (u : σ) :
    ∃ result event u', Runs (r.whenConflicting routes.lift supply kind payload) u result u' ∧
      event.content = (kind, payload) ∧
      r.entity.Answers routes "test" event result.outcome result.entity := by
  obtain ⟨result, u', hrun⟩ := Runs.total (r.whenConflicting routes.lift supply kind payload) u
  have h := hrun
  simp only [whenConflicting, runs_bind, runs_pure] at h
  obtain ⟨stamp, u₁, -, ⟨outcome, e⟩, u₂, hconflict, rfl, rfl⟩ := h
  -- Whatever the surroundings do, nothing of it is observed.
  have hdraw : ∀ w stamp w', Runs supply.stamp w stamp w' →
      Function.const σ () w' = Function.const σ () w := fun _ _ _ _ => rfl
  exact ⟨_, _, _, hrun, rfl, (Entity.answers_of_runs hdraw hconflict).2⟩

/-- A rehearsal ends with the answer of the conflict route on the state that the given events lead
to. What was merged is pending, and nothing else. -/
theorem runs_perform (routes : Routes Id S) {given : List (Move S)}
    (hrecords : ∀ move ∈ given, ∃ payload, move.payload = .ok payload) (event : Event) (u : σ) :
    ∃ result u',
      Runs (perform routes.lift supply given event.kind event.payload) u (.ok result) u' ∧
      routes.conflictEvent (Move.applyAll given routes.initial) event =
        (result.outcome, result.entity.state) ∧
      (result.outcome = .ok () → result.entity.timeline.pending.length = 1) := by
  obtain ⟨r, u₁, hgiven, hstate, hpending⟩ :=
    runs_givenAll supply hrecords (new (routes.lift : Routes (StateM σ) S)) rfl u
  obtain ⟨result, asked, u', hwhen, hcontent, hanswers⟩ :=
    runs_whenConflicting supply routes r event.kind event.payload u₁
  have hsame : asked.content = event.content := hcontent
  refine ⟨result, u', ?_, ?_, fun hmerged => ?_⟩
  · refine runs_bind.2 ⟨.ok r, u₁, hgiven, ?_⟩
    exact runs_bind_pure.2 ⟨result, hwhen, rfl⟩
  · rw [← Routes.conflictEvent_congr hsame]
    exact hstate ▸ hanswers.conflictEvent_eq
  · rw [hmerged] at hanswers
    rw [hanswers.pending, hpending, List.length_nil]

end Rehearsal

/-- The log holds the given events for a stream, and neither a snapshot nor a freeze. -/
structure EventLog.Holds (log : EventLog) (stream : StreamRef) (given : List (Move S)) : Prop where
  recorded : given.map (fun move => (move.kind, move.payload)) =
    (log.events (stream.key .domain)).map fun event => (event.kind, .ok event.payload)
  numbered : Chronicle.Numbered 0 (log.events (stream.key .domain))
  bare : log.events (stream.key .snapshot) = []
  free : log.freeze? (stream.key .domain) = none

/-- A timeline that is the whole history of its stream is at the version of the stream. -/
theorem EventLog.version_ofHistory (log : EventLog) (stream : StreamRef) :
    (Timeline.ofHistory stream (log.events (stream.key .domain)) none).version =
      log.version (stream.key .domain) := by
  simp only [Timeline.ofHistory, version]
  cases (log.events (stream.key .domain)).getLast? <;> rfl

namespace EventLog.Holds

variable {log : EventLog} {stream : StreamRef} {given : List (Move S)}

theorem timeline_eq (h : log.Holds stream given) :
    log.timeline stream = .ok (.ofHistory stream (log.events (stream.key .domain)) none) := by
  have hall : log.read (stream.key .domain) 0 none = log.events (stream.key .domain) := by
    simpa [read] using h.numbered.filter_le (Int.le_refl 0)
  simp only [timeline, lastSnapshot, readBack, h.bare, List.reverse_nil, List.take_nil, Except.map,
    hall]

theorem exists_payload (h : log.Holds stream given) :
    ∀ move ∈ given, ∃ payload, move.payload = .ok payload := by
  intro move hmove
  have hmem := List.mem_map_of_mem (f := fun move : Move S => (move.kind, move.payload)) hmove
  rw [h.recorded] at hmem
  obtain ⟨event, -, hevent⟩ := List.mem_map.1 hmem
  exact ⟨event.payload, (congrArg Prod.snd hevent).symm⟩

protected theorem empty (stream : StreamRef) : empty.Holds stream ([] : List (Move S)) where
  recorded := by simp
  numbered := by simp [Chronicle.Numbered]
  bare := events_empty _
  free := by simp [freeze?, StreamMetadata.empty]

theorem stored {log' : EventLog} {t : Timeline} {moves : List (Move S)}
    (h : log.Holds t.stream given) (hn : log.Numbered) (hstored : Stored log log' t)
    (hbare : t.pendingSnapshot = none)
    (hrecorded : moves.map (fun move => (move.kind, move.payload)) =
      t.pending.map fun event => (event.kind, .ok event.payload)) :
    log'.Holds t.stream (given ++ moves) where
  recorded := by
    obtain ⟨time, headers, ids, hdomain⟩ := hstored.domain
    have hentries := map_entry_stamped (log.version (t.key .domain)) time headers ids t.pending
    have hsame := congrArg (List.map fun (_, kind, payload) =>
      (kind, (Except.ok payload : Except String Json))) hentries
    simp only [List.map_map, Function.comp_def, Event.entry, Event.content] at hsame
    rw [Timeline.key] at hdomain hsame
    rw [List.map_append, h.recorded, hrecorded, hdomain, List.map_append, hsame]
  numbered := hstored.numbered hn _
  bare := by
    have hsnapshot := hstored.snapshot
    rw [hbare] at hsnapshot
    exact hsnapshot.trans h.bare
  free := (freeze?_congr hstored.metadata _).trans h.free

end EventLog.Holds

theorem Routes.hydrates_of_recorded {routes : Routes Id S} {given : List (Move S)}
    {events : List Event} (hrouted : ∀ move ∈ given, move.Routed routes)
    (h : given.map (fun move => (move.kind, move.payload)) =
      events.map fun event => (event.kind, .ok event.payload)) (s : S) :
    routes.Hydrates s events (Move.applyAll given s) := by
  induction given generalizing events s with
  | nil =>
    rw [List.map_nil] at h
    rw [List.map_eq_nil_iff.1 h.symm]
    exact hydrates_nil.2 rfl
  | cons move rest ih =>
    cases events with
    | nil => simp at h
    | cons event events =>
      obtain ⟨hhead, hrest⟩ := List.cons.inj h
      obtain ⟨hkind, hpayload⟩ := Prod.mk.inj hhead
      obtain ⟨hmove, hothers⟩ := List.forall_mem_cons.1 hrouted
      have hfirst := hmove.hydrates hpayload hkind.symm rfl s
      rw [← List.singleton_append]
      exact hydrates_append.2 ⟨_, hfirst, ih hothers hrest _⟩

namespace World

variable {n : Node} {w : World} {stream : StreamRef} {given : List (Move S)} {routes : Routes Id S}

/-- The entity that is loaded has the state that the given events lead to, and is up to date. -/
theorem exists_loaded_of_holds (hholds : w.log.Holds stream given)
    (hrouted : ∀ move ∈ given, move.Routed routes)
    (hfresh : (w.cache n.cache)[stream.key .domain]? = none) :
    ∃ e, w.loaded n.cache (routes.lift : Routes (StateM World) S) stream = .ok e ∧
      e.state = Move.applyAll given routes.initial ∧
      e.timeline = .ofHistory stream (w.log.events (stream.key .domain)) none := by
  have hview : w.view n.cache stream =
      .ok (.ofHistory stream (w.log.events (stream.key .domain)) none) := by
    simp only [view, hfresh, hholds.timeline_eq]
  let e : Entity S := ⟨Move.applyAll given routes.initial,
    .ofHistory stream (w.log.events (stream.key .domain)) none, 0⟩
  have he : Entity.ofTimeline routes e.timeline = .ok e :=
    Entity.ofTimeline_eq_ok.2 ⟨rfl, rfl, routes.initial, rfl,
      Routes.hydrates_of_recorded hrouted hholds.recorded routes.initial⟩
  refine ⟨e, ?_, rfl, rfl⟩
  simp only [loaded, hview, Entity.ofTimeline_lift]
  exact congrArg (Except.mapError LoadError.route) he

end World

namespace RehearsalResult

variable {result : RehearsalResult S}

theorem expectMerged_eq_ok {s : S} : result.expectMerged = .ok s ↔ result.outcome = .ok () ∧
    result.entity.timeline.pending.length = 1 ∧ result.entity.state = s := by
  obtain ⟨entity, outcome⟩ := result
  cases outcome with
  | error err => simp [expectMerged]
  | ok u =>
    by_cases hlength : entity.timeline.pending.length = 1 <;> simp [expectMerged, hlength]

theorem expectDiscarded_eq_ok :
    result.expectDiscarded = .ok () ↔ result.outcome = .error (.signal .discard) := by
  unfold expectDiscarded
  split <;> simp_all

theorem expectAbandoned_eq_ok {part : String} : result.expectAbandoned part = .ok () ↔
    ∃ reason, result.outcome = .error (.signal (.abandon reason)) ∧
      part.toList <:+: reason.toList := by
  unfold expectAbandoned
  split <;> simp_all [Text.contains_iff]

theorem expectNoRoute_eq_ok : result.expectNoRoute = .ok () ↔
    ∃ entity kind route, result.outcome = .error (.route (.noRoute entity kind route)) := by
  unfold expectNoRoute
  split <;> simp_all

/-- Each expectation of a rehearsal is met exactly if the merge of an event of a kind into an entity
of some name ends as expected. -/
structure Foretells (result : RehearsalResult S) (entity kind : String)
    (r : Except ResolveError Resolution) (e : Entity S) : Prop where
  merged : ∀ s, result.expectMerged = .ok s ↔ r = .ok .committed ∧ e.state = s
  discarded : result.expectDiscarded = .ok () ↔ r = .ok .discarded
  abandoned : ∀ part, result.expectAbandoned part = .ok () ↔
    ∃ reason, r = .error (.abandoned reason) ∧ part.toList <:+: reason.toList
  noRoute : result.expectNoRoute = .ok () ↔
    r = .error (.failed entity ("no conflict route for `" ++ kind ++ "`"))

/-- The answer of the route decides about the expectations and about the merge. -/
theorem foretells_settlement {routes : Routes Id S} {s : S} {event : Event} {e : Entity S}
    (hanswer : routes.conflictEvent s event = (result.outcome, result.entity.state))
    (hrecorded : result.outcome = .ok () → result.entity.timeline.pending.length = 1)
    (hstate : e.state = result.entity.state) :
    result.Foretells routes.entity event.kind (routes.settlement result.outcome) e where
  merged s := by
    rw [expectMerged_eq_ok, Routes.settlement_eq_committed, hstate]
    exact ⟨fun ⟨hok, _, hs⟩ => ⟨hok, hs⟩, fun ⟨hok, hs⟩ => ⟨hok, hrecorded hok, hs⟩⟩
  discarded := by rw [expectDiscarded_eq_ok, Routes.settlement_eq_discarded]
  abandoned part := by simp only [expectAbandoned_eq_ok, Routes.settlement_eq_abandoned]
  noRoute := by
    rw [expectNoRoute_eq_ok, Routes.settlement_eq_failed]
    constructor
    · rintro ⟨name, kind, route, houtcome⟩
      rw [houtcome] at hanswer
      exact ⟨rfl, name, kind, route, houtcome, by rw [Routes.kind_of_noRoute hanswer]⟩
    · rintro ⟨-, name, kind, route, houtcome, -⟩
      exact ⟨name, kind, route, houtcome⟩

end RehearsalResult

/-- Let a table record no states, and let a store hold events of which each is read back as it was
given. Rehearse them, and send any event into the rehearsal; or let a node that has not cached the
stream load the entity and merge the event, with or without a freeze. Both take place, and each
expectation of the rehearsal is met exactly if the merge ends as expected, with the same state. -/
theorem World.foretelling_rehearsal {σ : Type} {routes : Routes Id S} {given : List (Move S)}
    {stream : StreamRef} {n : Node} {w : World} {event : Event} (hplain : routes.snapshots = none)
    (hrouted : ∀ move ∈ given, move.Routed routes) (hholds : w.log.Holds stream given)
    (hfresh : (w.cache n.cache)[stream.key .domain]? = none) (hlane : event.lane = .domain)
    (opened : Moment) (threshold : Nat) (commitId : Uuid) (headers : Headers)
    (supply : Surroundings (StateM σ)) (u : σ) :
    ∃ result u' e w₁ r e' w',
      Runs (Rehearsal.perform routes.lift supply given event.kind event.payload) u (.ok result) u' ∧
      Runs (loadEntity (n.store (site opened)) routes.lift stream).run w (.ok e) w₁ ∧
      Resolves ((Resolver.strong (n.store (site opened)) (surroundings cell) threshold).resolve
        routes.lift [event] commitId headers) e w₁ r e' w' ∧
      result.Foretells routes.entity event.kind r e' := by
  obtain ⟨result, u', hperform, hanswer, hrecorded⟩ :=
    Rehearsal.runs_perform supply routes hholds.exists_payload event u
  obtain ⟨e, hloaded, hstate, htimeline⟩ := exists_loaded_of_holds hholds hrouted hfresh
  obtain ⟨⟨r, e'⟩, w', hresolve⟩ := Runs.total
    (((Resolver.strong (n.store (site opened)) (surroundings cell) threshold).resolve routes.lift
      [event] commitId headers).run.run e) (w.viewed n.cache stream)
  have hkey : e.timeline.key .domain = stream.key .domain := by rw [htimeline]; rfl
  have hclean : e.timeline.dirty = false := by rw [htimeline]; rfl
  have hversion : (w.viewed n.cache stream).log.version (e.timeline.key .domain) =
      e.timeline.version := by
    rw [log_viewed, hkey, htimeline, EventLog.version_ofHistory]
  have hfree : (w.viewed n.cache stream).log.freeze? (e.timeline.key .domain) = none := by
    rw [log_viewed, hkey]
    exact hholds.free
  obtain ⟨outcome, hsettled, rfl⟩ := settled_of_lone hplain hlane hclean hfree hversion hresolve
  rw [hstate, hanswer] at hsettled
  obtain ⟨rfl, hend⟩ := Prod.mk.inj hsettled
  exact ⟨result, u', e, _, _, e', w', hperform, runs_loadEntity.2 ⟨hloaded.symm, rfl⟩, hresolve,
    RehearsalResult.foretells_settlement hanswer hrecorded hend.symm⟩

namespace Samples.Account

def plainRoutes : Routes Id Account := { routes with snapshots := none }

def stream : StreamRef := ⟨"account", "default", "a-1", []⟩

def given : List (Move Account) :=
  [Deposited.type.move ⟨5⟩ deposit, Withdrawn.type.move ⟨2⟩ withdraw]

def amount (n : Int) : Json := .ofFields [("amount", .int n)]

def recorded : Timeline :=
  (Timeline.empty stream).add ⟨.numbered 1, .epoch⟩ Deposited.type.kind (amount 5) ∅
    |>.add ⟨.numbered 2, .epoch⟩ Withdrawn.type.kind (amount 2) ∅

def late (kind : String) (payload : Json) : Event :=
  (Timeline.empty stream).draft .domain 0 ⟨.numbered 4, .epoch⟩ kind payload ∅

def clerk (i : Nat) : Node := ⟨.numbered i, "default", .standard, i, i, 0, none, none⟩

/-- A clerk who loads the account and merges an event into it ends so. -/
def Merges (w : World) (event : Event) (r : Except ResolveError Resolution) (e' : Entity Account) :
    Prop :=
  ∃ e w₁ w',
    Runs (loadEntity ((clerk 1).store (World.site .epoch)) plainRoutes.lift stream).run w (.ok e)
        w₁ ∧
      Resolves ((Resolver.strong ((clerk 1).store (World.site .epoch))
        (World.surroundings World.cell) 0).resolve plainRoutes.lift [event] (.numbered 5) ∅) e w₁ r
        e' w'

theorem routed_given : ∀ move ∈ given, move.Routed plainRoutes := by
  simp only [given, List.forall_mem_cons]
  refine ⟨⟨_, by rfl, ?_⟩, ⟨_, by rfl, ?_⟩, by simp⟩
  · rintro payload ⟨⟩
    rfl
  · rintro payload ⟨⟩
    rfl

theorem exists_holds_given : ∃ w : World, w.log.Holds stream given ∧
    (w.cache (clerk 1).cache)[stream.key .domain]? = none := by
  obtain ⟨r, w, hwrite⟩ := Runs.total
    (((clerk 0).store (World.site .epoch)).write (.numbered 3) recorded ∅) (World.start .epoch)
  have hempty : EventLog.empty.Holds stream ([] : List (Move Account)) := .empty stream
  obtain ⟨v, rfl⟩ := World.ok_of_write (fun f hf => by
    cases hempty.free.symm.trans hf) (by rfl) hwrite
  refine ⟨w, ?_⟩
  cases World.wrote_of_runs hwrite with
  | @stored i log hversion hstored =>
    have hholds : log.Holds recorded.stream ([] ++ given) :=
      hempty.stored EventLog.numbered_empty hstored rfl (by rfl)
    refine ⟨hholds, ?_⟩
    rw [World.getElem?_cache_remember, if_neg (by simp [clerk])]
    rfl

/-- What a rehearsal with the given events expects of another event. -/
def rehearsed (event : Event) : Option (RehearsalResult Account) :=
  ((Rehearsal.perform plainRoutes.lift (World.surroundings World.cell) given event.kind
    event.payload).run (World.start .epoch)).1.toOption

/-- One more is taken out, nothing is paid in, more is taken out than there is, and the account gets
a name: the rehearsals and the merges agree. -/
theorem foretelling_account : ∃ w : World, w.log.Holds stream given ∧
    (∃ e', Merges w (late Withdrawn.type.kind (amount 1)) (.ok .committed) e' ∧
      e'.state = ⟨2, none⟩) ∧
    (∃ e', Merges w (late Deposited.type.kind (amount 0)) (.ok .discarded) e') ∧
    (∃ e' reason, Merges w (late Withdrawn.type.kind (amount 9)) (.error (.abandoned reason)) e' ∧
      "insufficient funds".toList <:+: reason.toList) ∧
    ∃ e', Merges w (late Renamed.type.kind .null)
      (.error (.failed "account" "no conflict route for `account.renamed`")) e' := by
  obtain ⟨w, hholds, hfresh⟩ := exists_holds_given
  have hplain : plainRoutes.snapshots = none := rfl
  have hlane : ∀ kind payload, (late kind payload).lane = .domain := fun _ _ => rfl
  have hforetells : ∀ kind payload, ∃ result r e', rehearsed (late kind payload) = some result ∧
      Merges w (late kind payload) r e' ∧ result.Foretells "account" kind r e' := by
    intro kind payload
    obtain ⟨result, u', e, w₁, r, e', w', hperform, hload, hresolve, hforetells⟩ :=
      World.foretelling_rehearsal hplain routed_given hholds hfresh (hlane kind payload) .epoch 0
        (.numbered 5) ∅ (World.surroundings World.cell) (World.start .epoch)
    refine ⟨result, r, e', ?_, ⟨e, w₁, w', hload, hresolve⟩, hforetells⟩
    rw [rehearsed, hperform.run_eq]
    rfl
  refine ⟨w, hholds, ?_, ?_, ?_, ?_⟩
  · obtain ⟨result, r, e', hresult, hmerges, hforetells⟩ :=
      hforetells Withdrawn.type.kind (amount 1)
    have hmet : (rehearsed (late Withdrawn.type.kind (amount 1))).map (·.expectMerged) =
        some (.ok ⟨2, none⟩) := by decide +kernel
    rw [hresult] at hmet
    obtain ⟨rfl, hstate⟩ := (hforetells.merged _).1 (Option.some.inj hmet)
    exact ⟨e', hmerges, hstate⟩
  · obtain ⟨result, r, e', hresult, hmerges, hforetells⟩ :=
      hforetells Deposited.type.kind (amount 0)
    have hmet : (rehearsed (late Deposited.type.kind (amount 0))).map (·.expectDiscarded) =
        some (.ok ()) := by decide +kernel
    rw [hresult] at hmet
    obtain rfl := hforetells.discarded.1 (Option.some.inj hmet)
    exact ⟨e', hmerges⟩
  · obtain ⟨result, r, e', hresult, hmerges, hforetells⟩ :=
      hforetells Withdrawn.type.kind (amount 9)
    have hmet : (rehearsed (late Withdrawn.type.kind (amount 9))).map
        (·.expectAbandoned "insufficient funds") = some (.ok ()) := by decide +kernel
    rw [hresult] at hmet
    obtain ⟨reason, rfl, hpart⟩ := (hforetells.abandoned _).1 (Option.some.inj hmet)
    exact ⟨e', reason, hmerges, hpart⟩
  · obtain ⟨result, r, e', hresult, hmerges, hforetells⟩ := hforetells Renamed.type.kind .null
    have hmet : (rehearsed (late Renamed.type.kind .null)).map (·.expectNoRoute) =
        some (.ok ()) := by decide +kernel
    rw [hresult] at hmet
    obtain rfl := hforetells.noRoute.1 (Option.some.inj hmet)
    exact ⟨e', hmerges⟩

end Samples.Account

end Chronicle
