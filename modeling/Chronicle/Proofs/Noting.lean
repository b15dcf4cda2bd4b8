import Chronicle.Proofs.Restating

/-!
# What a merge asks for

A merge asks a stream store for what it needs and runs the conflict routes of the events. A store
and routes that are `noted` do what they did before and write down each request with its answer, and
each run of a route, as they happen. So the notes of a run say what was asked for and in which
order, and they say so of any store: of one that refuses a request at any time, too.
-/

namespace Chronicle

variable {σ α β S : Type}

/-- A request to a stream store with its answer, or a run of a conflict route. -/
inductive Note (S : Type) where
  | fetch (stream : StreamRef) (answer : Except StoreError Timeline)
  | write (commitId : Uuid) (t : Timeline) (headers : Headers) (answer : Except StoreError Int)
  | append (commitId : Uuid) (t : Timeline) (headers : Headers) (answer : Except StoreError Int)
  | freeze (t : Timeline) (answer : Except StoreError Unit)
  | unfreeze (t : Timeline) (answer : Except StoreError Unit)
  | verify (t : Timeline) (answer : Except StoreError Unit)
  | route (kind : String) (payload : Json) (state : S)

/-- Do as before, and note nothing. -/
def unnoted (x : StateM σ α) : StateM (List β × σ) α := fun (notes, w) =>
  let (a, w') := x.run w
  (a, (notes, w'))

/-- Do as before, and note what came of it. -/
def noted (note : α → β) (x : StateM σ α) : StateM (List β × σ) α := do
  let a ← unnoted x
  modify fun (notes, w) => (notes ++ [note a], w)
  pure a

theorem runs_unnoted {x : StateM σ α} {a : α} {notes : List β} {w : σ} {p : List β × σ} :
    Runs (unnoted x) (notes, w) a p ↔ ∃ w', Runs x w a w' ∧ p = (notes, w') := by
  constructor
  · intro h
    cases h
    exact ⟨_, rfl, rfl⟩
  · rintro ⟨w', hx, rfl⟩
    simp only [Runs, unnoted, StateT.run] at hx ⊢
    rw [hx]

theorem runs_noted {note : α → β} {x : StateM σ α} {a : α} {notes : List β} {w : σ}
    {p : List β × σ} :
    Runs (noted note x) (notes, w) a p ↔ ∃ w', Runs x w a w' ∧ p = (notes ++ [note a], w') := by
  constructor
  · intro h
    cases h
    exact ⟨_, rfl, rfl⟩
  · rintro ⟨w', hx, rfl⟩
    simp only [Runs, StateT.run] at hx
    change (let (a, w') := x w; (a, (notes ++ [note a], w'))) = _
    rw [hx]

def Surroundings.unnoted (s : Surroundings (StateM σ)) : Surroundings (StateM (List β × σ)) where
  freshId := Chronicle.unnoted s.freshId
  now := Chronicle.unnoted s.now
  elapsed := Chronicle.unnoted s.elapsed

def StreamStore.noted (store : StreamStore (StateM σ)) :
    StreamStore (StateM (List (Note S) × σ)) where
  fetch stream := Chronicle.noted (.fetch stream) (store.fetch stream)
  write commitId t headers :=
    Chronicle.noted (.write commitId t headers) (store.write commitId t headers)
  append commitId t headers :=
    Chronicle.noted (.append commitId t headers) (store.append commitId t headers)
  freeze t := Chronicle.noted (.freeze t) (store.freeze t)
  unfreeze t := Chronicle.noted (.unfreeze t) (store.unfreeze t)
  verify t := Chronicle.noted (.verify t) (store.verify t)

namespace Routes

/-- The routes of which every run of a conflict route is noted. A payload is read before the route
runs, so that one that cannot be read leaves no note. -/
def noted (routes : Routes (StateM σ) S) : Routes (StateM (List (Note S) × σ)) S where
  entity := routes.entity
  initial := routes.initial
  handlers := routes.handlers
  conflicts := routes.conflicts.map fun kind route payload => (route payload).map fun merge s =>
    Chronicle.noted (fun _ => .route kind payload s) (merge s)
  snapshots := routes.snapshots

/-- The run of the conflict route of an event, if there is one that can read the event. -/
def run? {m : Type → Type} (routes : Routes m S) (s : S) (event : Event) : List (Note S) :=
  match routes.conflicts[event.kind]? with
  | none => []
  | some route =>
    match route event.payload with
    | .error _ => []
    | .ok _ => [.route event.kind event.payload s]

theorem run?_lift (routes : Routes Id S) (s : S) (event : Event) :
    (routes.lift : Routes (StateM σ) S).run? s event = routes.run? s event := by
  simp only [run?, lift, Std.ExtTreeMap.getElem?_map]
  cases routes.conflicts[event.kind]? with
  | none => rfl
  | some route =>
    simp only [Option.map_some]
    cases route event.payload <;> rfl

@[simp] theorem hasConflict_noted (routes : Routes (StateM σ) S) (kind : String) :
    routes.noted.hasConflict kind = routes.hasConflict kind := by
  simp [hasConflict, noted]

theorem runs_conflictEvent_noted {routes : Routes (StateM σ) S} {s : S} {event : Event}
    {notes : List (Note S)} {w : σ} {r : Except ConflictError Unit × S}
    {p : List (Note S) × σ} :
    Runs (routes.noted.conflictEvent s event) (notes, w) r p ↔
      ∃ w', Runs (routes.conflictEvent s event) w r w' ∧
        p = (notes ++ routes.run? s event, w') := by
  unfold conflictEvent
  simp only [noted, run?, Std.ExtTreeMap.getElem?_map]
  cases routes.conflicts[event.kind]? with
  | none => simp [runs_pure, noConflictRoute]
  | some route =>
    simp only [Option.map_some]
    cases route event.payload with
    | error err => simp [Except.map, runs_pure]
    | ok merge =>
      simp only [Except.map, runs_bind_pure, runs_noted]
      constructor
      · rintro ⟨a, ⟨w', ha, rfl⟩, rfl⟩
        exact ⟨w', ⟨a, ha, rfl⟩, rfl⟩
      · rintro ⟨w', ⟨a, ha, rfl⟩, rfl⟩
        exact ⟨a, ⟨w', ha, rfl⟩, rfl⟩

end Routes

namespace Entity

/-- What the conflict of an entity with an event comes to, and what is noted of it. -/
inductive Confronts (routes : Routes (StateM σ) S) (draw : StateM σ Stamp) (strategy : String)
    (e : Entity S) (event : Event) (notes : List (Note S)) (w : σ) :
    Except ConflictError Unit × Entity S → List (Note S) × σ → Prop where
  | unrouted (hroute : routes.hasConflict event.kind = false) :
      Confronts routes draw strategy e event notes w
        (.error (routes.noConflictRoute event.kind), e) (notes, w)
  | merged {s : S} {stamp : Stamp} {w₁ w' : σ} (hroute : routes.hasConflict event.kind = true)
      (hrun : Runs (routes.conflictEvent e.state event) w (.ok (), s) w₁)
      (hdraw : Runs draw w₁ stamp w') :
      Confronts routes draw strategy e event notes w
        (.ok (), { e with state := s, conflicts := e.conflicts + 1 }.record stamp event strategy)
        (notes ++ routes.run? e.state event, w')
  | declined {s : S} {err : ConflictError} {w' : σ}
      (hroute : routes.hasConflict event.kind = true)
      (hrun : Runs (routes.conflictEvent e.state event) w (.error err, s) w') :
      Confronts routes draw strategy e event notes w
        (.error err, { e with state := s, conflicts := e.conflicts + 1 })
        (notes ++ routes.run? e.state event, w')

theorem confronts_of_runs {routes : Routes (StateM σ) S} {draw : StateM σ Stamp}
    {strategy : String} {e : Entity S} {event : Event} {notes : List (Note S)} {w : σ}
    {r : Except ConflictError Unit × Entity S} {p : List (Note S) × σ}
    (h : Runs (e.conflict routes.noted (unnoted draw) event strategy) (notes, w) r p) :
    e.Confronts routes draw strategy event notes w r p := by
  unfold conflict at h
  rw [Routes.hasConflict_noted] at h
  split at h
  · rename_i hroute
    rw [runs_bind] at h
    obtain ⟨⟨answer, s⟩, p₁, hnoted, h⟩ := h
    obtain ⟨w₁, hrun, rfl⟩ := Routes.runs_conflictEvent_noted.1 hnoted
    cases answer with
    | ok u =>
      rw [runs_bind_pure] at h
      obtain ⟨stamp, hstamp, rfl⟩ := h
      obtain ⟨w', hdraw, rfl⟩ := runs_unnoted.1 hstamp
      exact .merged hroute hrun hdraw
    | error err =>
      obtain ⟨rfl, rfl⟩ := runs_pure.1 h
      exact .declined hroute hrun
  · rename_i hroute
    obtain ⟨rfl, rfl⟩ := runs_pure.1 h
    exact .unrouted (by simpa using hroute)

end Entity

/-- `y` does what `x` does, and takes notes. -/
def Annotates (y : StateM (List β × σ) α) (x : StateM σ α) : Prop :=
  ∀ notes w a p, Runs y (notes, w) a p → Runs x w a p.2

namespace Annotates

theorem pure (a : α) :
    Annotates (Pure.pure a : StateM (List β × σ) α) (Pure.pure a) := by
  intro notes w b p h
  obtain ⟨rfl, rfl⟩ := runs_pure.1 h
  exact runs_pure.2 ⟨rfl, rfl⟩

theorem bind {γ : Type} {y : StateM (List β × σ) α} {x : StateM σ α}
    {g : α → StateM (List β × σ) γ} {f : α → StateM σ γ} (h : Annotates y x)
    (hrest : ∀ a, Annotates (g a) (f a)) : Annotates (y >>= g) (x >>= f) := by
  intro notes w c p hrun
  obtain ⟨a, p₁, hy, hg⟩ := runs_bind.1 hrun
  exact runs_bind.2 ⟨a, p₁.2, h _ _ _ _ hy, hrest a _ _ _ _ hg⟩

theorem unnoted (x : StateM σ α) : Annotates (Chronicle.unnoted x : StateM (List β × σ) α) x := by
  intro notes w a p h
  obtain ⟨w', hx, rfl⟩ := runs_unnoted.1 h
  exact hx

theorem noted (note : α → β) (x : StateM σ α) : Annotates (Chronicle.noted note x) x := by
  intro notes w a p h
  obtain ⟨w', hx, rfl⟩ := runs_noted.1 h
  exact hx

end Annotates

def AnnotatesStep (y : Resolving (StateM (List β × σ)) S α) (x : Resolving (StateM σ) S α) : Prop :=
  ∀ e notes w r d p, Resolves y e (notes, w) r d p → Resolves x e w r d p.2

namespace AnnotatesStep

variable {γ : Type} {y : Resolving (StateM (List β × σ)) S α} {x : Resolving (StateM σ) S α}

theorem pure (a : α) :
    AnnotatesStep (Pure.pure a : Resolving (StateM (List β × σ)) S α) (Pure.pure a) :=
  fun _ _ _ _ _ _ h => by
    obtain ⟨rfl, rfl, rfl⟩ := resolves_pure.1 h
    exact resolves_pure.2 ⟨rfl, rfl, rfl⟩

theorem throw (err : ResolveError) :
    AnnotatesStep (MonadExcept.throw err : Resolving (StateM (List β × σ)) S α)
      (MonadExcept.throw err) :=
  fun _ _ _ _ _ _ h => by
    obtain ⟨rfl, rfl, rfl⟩ := resolves_throw.1 h
    exact resolves_throw.2 ⟨rfl, rfl, rfl⟩

theorem bind {g : α → Resolving (StateM (List β × σ)) S γ} {f : α → Resolving (StateM σ) S γ}
    (h : AnnotatesStep y x) (hrest : ∀ a, AnnotatesStep (g a) (f a)) :
    AnnotatesStep (y >>= g) (x >>= f) := by
  intro e notes w r d p hrun
  rcases resolves_bind.1 hrun with ⟨err, hy, rfl⟩ | ⟨a, d₁, p₁, hy, hg⟩
  · exact resolves_bind.2 (.inl ⟨err, h _ _ _ _ _ _ hy, rfl⟩)
  · exact resolves_bind.2 (.inr ⟨a, d₁, p₁.2, h _ _ _ _ _ _ hy, hrest a _ _ _ _ _ _ hg⟩)

theorem discard (h : AnnotatesStep y x) :
    AnnotatesStep (Functor.discard y) (Functor.discard x) := by
  intro e notes w r d p hrun
  obtain ⟨a, hy, rfl⟩ := resolves_discard.1 hrun
  exact resolves_discard.2 ⟨a, h _ _ _ _ _ _ hy, rfl⟩

theorem outcome (h : AnnotatesStep y x) : AnnotatesStep y.outcome x.outcome := by
  intro e notes w r d p hrun
  obtain ⟨a, hy, rfl⟩ := resolves_outcome.1 hrun
  exact resolves_outcome.2 ⟨a, h _ _ _ _ _ _ hy, rfl⟩

theorem ask {request : StateM (List β × σ) α} {request' : StateM σ α}
    (h : Annotates request request') :
    AnnotatesStep (S := S) (Resolving.ask request) (Resolving.ask request') := by
  intro e notes w r d p hrun
  obtain ⟨a, hy, rfl, rfl⟩ := resolves_ask.1 hrun
  exact resolves_ask.2 ⟨a, h _ _ _ _ hy, rfl, rfl⟩

theorem store {request : StateM (List β × σ) (Except StoreError α)}
    {request' : StateM σ (Except StoreError α)} (h : Annotates request request') :
    AnnotatesStep (S := S) (Resolving.store request) (Resolving.store request') := by
  intro e notes w r d p hrun
  obtain ⟨a, hy, rfl, rfl⟩ := resolves_store.1 hrun
  exact resolves_store.2 ⟨a, h _ _ _ _ hy, rfl, rfl⟩

theorem entity : AnnotatesStep (Resolving.entity : Resolving (StateM (List β × σ)) S (Entity S))
    Resolving.entity :=
  fun _ _ _ _ _ _ h => by
    obtain ⟨rfl, rfl, rfl⟩ := resolves_entity.1 h
    exact resolves_entity.2 ⟨rfl, rfl, rfl⟩

theorem setEntity (d : Entity S) :
    AnnotatesStep (Resolving.setEntity d : Resolving (StateM (List β × σ)) S Unit)
      (Resolving.setEntity d) :=
  fun _ _ _ _ _ _ h => by
    obtain ⟨rfl, rfl, rfl⟩ := resolves_setEntity.1 h
    exact resolves_setEntity.2 ⟨rfl, rfl, rfl⟩

end AnnotatesStep

section Merging

variable {store : StreamStore (StateM σ)} {supply : Surroundings (StateM σ)}
  {routes : Routes (StateM σ) S} {draw : StateM σ Stamp} {events : List Event}

theorem annotates_conflict (e : Entity S) (event : Event) (strategy : String) :
    Annotates (e.conflict routes.noted (unnoted draw) event strategy)
      (e.conflict routes draw event strategy) := by
  unfold Entity.conflict
  rw [Routes.hasConflict_noted]
  split
  · refine .bind (fun notes w r p hrun => ?_) fun answer => ?_
    · obtain ⟨w', hrun', rfl⟩ := Routes.runs_conflictEvent_noted.1 hrun
      exact hrun'
    · obtain ⟨(_ | _), s⟩ := answer
      · exact .pure _
      · exact .bind (.unnoted draw) fun _ => .pure _
  · exact .pure _

theorem annotates_replayEvent (strategy : ConflictStrategy) (event : Event) :
    AnnotatesStep (replayEvent routes.noted (unnoted draw) strategy event)
      (replayEvent routes draw strategy event) := by
  unfold replayEvent
  cases event.lane with
  | domain =>
    refine .bind .entity fun e => .bind (.ask (annotates_conflict _ _ _)) fun answer => ?_
    refine .bind (.setEntity _) fun _ => ?_
    obtain ⟨((_ | _ | _) | _), e⟩ := answer
    · exact .throw _
    · exact .pure _
    · exact .throw _
    · exact .pure _
  | oob =>
    refine .bind (.ask (.unnoted draw)) fun stamp => .bind .entity fun e => ?_
    exact .bind (.setEntity _) fun _ => .pure _
  | delayed | snapshot | plain => exact .pure _

theorem annotates_replay (strategy : ConflictStrategy) (events : List Event) :
    AnnotatesStep (replay routes.noted (unnoted draw) strategy events)
      (replay routes draw strategy events) := by
  induction events with
  | nil => exact .pure _
  | cons event rest ih =>
    exact .bind (annotates_replayEvent _ _) fun _ => .bind ih fun _ => .pure _

theorem annotates_mergeAndWrite (store : StreamStore (StateM σ))
    (supply : Surroundings (StateM σ)) (routes : Routes (StateM σ) S) (events : List Event)
    (commitId : Uuid) (headers : Headers) (strategy : ConflictStrategy) :
    AnnotatesStep
      (mergeAndWrite store.noted supply.unnoted routes.noted events commitId headers strategy)
      (mergeAndWrite store supply routes events commitId headers strategy) := by
  have hwrite : AnnotatesStep
      (do
        let e ← Resolving.entity
        if e.timeline.dirty then
          discard (Resolving.store (store.noted.write commitId e.timeline headers))
          Resolving.setEntity e.settle
          pure Resolution.committed
        else pure Resolution.discarded : Resolving (StateM (List (Note S) × σ)) S Resolution)
      (do
        let e ← Resolving.entity
        if e.timeline.dirty then
          discard (Resolving.store (store.write commitId e.timeline headers))
          Resolving.setEntity e.settle
          pure Resolution.committed
        else pure Resolution.discarded) := by
    refine .bind .entity fun e => ?_
    split
    · refine .bind (.discard (.store (.noted _ _))) fun _ => ?_
      exact .bind (.setEntity _) fun _ => .pure _
    · exact .pure _
  have hreplay : AnnotatesStep (replay routes.noted (unnoted supply.stamp) strategy events)
      (replay routes supply.stamp strategy events) := annotates_replay _ _
  unfold mergeAndWrite
  refine .bind (.discard hreplay) fun _ => .bind .entity fun e => ?_
  change AnnotatesStep (if e.shouldTakeSnapshot routes then _ else _) _
  split
  · refine .bind (.ask (.unnoted _)) fun time => ?_
    have htaken : e.takeSnapshot routes.noted time = e.takeSnapshot routes time := rfl
    rw [htaken]
    cases e.takeSnapshot routes time with
    | ok e => exact .bind (.setEntity _) fun _ => hwrite
    | error err => exact .bind (.throw _) fun _ => hwrite
  · exact hwrite

/-- Taking notes changes nothing of a merge. -/
theorem annotates_settleBatch (store : StreamStore (StateM σ))
    (supply : Surroundings (StateM σ)) (routes : Routes (StateM σ) S) (events : List Event)
    (commitId : Uuid) (headers : Headers) (strategy : ConflictStrategy) (threshold : Nat) :
    AnnotatesStep
      (settleBatch store.noted supply.unnoted routes.noted events commitId headers strategy
        threshold)
      (settleBatch store supply routes events commitId headers strategy threshold) := by
  have hmerge := annotates_mergeAndWrite store supply routes events commitId headers strategy
  unfold settleBatch
  split
  · refine .bind .entity fun e => .bind (.store (.noted _ _)) fun _ => ?_
    refine .bind hmerge.outcome fun result => .bind .entity fun d => ?_
    refine .bind (.outcome (.store (.noted _ _))) fun released => ?_
    rcases result with err | resolution
    · exact .throw _
    · rcases released with err | ⟨⟩
      · exact .throw _
      · exact .pure _
  · exact hmerge

end Merging

end Chronicle
