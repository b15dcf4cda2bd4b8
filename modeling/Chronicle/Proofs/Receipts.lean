import Chronicle.Proofs.Resolving

/-!
# What becomes of a commit

A commit or the handling of a due stream is summed up by a receipt: the domain key, the events
that were submitted and accepted, those that the strategy refused, and those that conflict routes
declined in a merge that was settled. Whatever an operation does, the world holds afterwards what
it held before and what its receipt says was submitted, but for what it says was dropped.
-/

namespace Chronicle

variable {S : Type}

namespace ConflictStrategy

/-- The events of a batch that a strategy drops without asking anybody. -/
def refused : ConflictStrategy → List Event → List Event
  | .discard, batch => batch
  | _, _ => []

/-- The events that a merge into a state drops under a strategy that merges. -/
def declined (strategy : ConflictStrategy) (routes : Routes Id S) (s : S) (events : List Event) :
    List Event :=
  match strategy with
  | .resolveStrongly | .resolveWeakly => routes.declined s events
  | _ => []

theorem lane_of_declined {strategy : ConflictStrategy} {routes : Routes Id S} {s : S}
    {events : List Event} : ∀ e ∈ strategy.declined routes s events, e.lane = .domain := by
  cases strategy with
  | resolveStrongly | resolveWeakly => exact Routes.lane_of_declined
  | throw | discard | ignore => simp [declined]

@[simp] theorem refused_nil (strategy : ConflictStrategy) : strategy.refused [] = [] := by
  cases strategy <;> rfl

@[simp] theorem declined_nil (strategy : ConflictStrategy) (routes : Routes Id S) (s : S) :
    strategy.declined routes s [] = [] := by
  cases strategy <;> rfl

end ConflictStrategy

namespace World

variable {n : Node} {opened : Moment} {w w' : World} {key : String}
  {routes : Routes Id S} {e e' : Entity S} {batch : List Event} {commitId : Uuid}
  {headers : Headers}

theorem tallied_ignoring {area : Nat} {r : Except ResolveError Resolution}
    (h : Resolves ((Resolver.ignoring (n.store (site opened)) (surroundings cell)).resolve
      routes.lift batch commitId headers) e w r e' w')
    (hc : w.Consistent) (he : e.timeline.Rooted w.log) (hclean : e.timeline.dirty = false)
    (hbatch : ∀ event ∈ batch, event.Routable)
    (hversion : e.timeline.version = w.log.version (e.timeline.key .domain)) :
    w'.areas = w.areas ∧
      w.Tallied area w' (e.timeline.key .domain) e' batch (fun _ => []) r := by
  have hkey : ∀ d : Entity S, e.timeline.Continues d.timeline →
      d.timeline.key .domain = e.timeline.key .domain := by
    intro d hcontinues
    rw [Timeline.key, Timeline.key, hcontinues.stream]
  have hissued : ∀ w₁ : World, w₁.unnumbered = w.unnumbered →
      w₁.areas = w.areas ∧ w.Passes area w₁ (e.timeline.key .domain) [] [] := by
    intro w₁ hsame
    rw [eq_logged_of_unnumbered hsame]
    exact ⟨rfl, .idle hc (.issued w _) ..⟩
  have habsorbs : ∀ d : Entity S, e.Takes d batch (batch.filter fun event => event.lane = .domain) →
      e.Absorbs d batch [] := fun d htakes => htakes.absorbs (by rw [List.append_nil])
  cases course_of_ignoring unobserved_surroundings h with
  | stopped hsame => exact hissued _ hsame
  | nothing htakes hclean' hsame =>
    obtain ⟨hareas, hpass⟩ := hissued _ hsame
    refine ⟨hareas, hpass.rooted hc (he.continues htakes.continues), ?_⟩
    exact hpass.absorbed (Timeline.batch_eq_nil hclean') (habsorbs _ htakes) hclean hbatch
  | refused hsame happend =>
    obtain ⟨hareas, hpass⟩ := hissued _ hsame
    cases appended_of_runs happend with
    | held hheld => exact ⟨hareas, hpass.trans (.forget hpass.consistent ..)⟩
  | @stored d v w₁ _ htakes hstate hsame happend =>
    obtain ⟨hareas, hpass⟩ := hissued _ hsame
    -- The append drops the cached copy; what is settled is rooted in the log that holds it.
    have hd := hpass.rooted hc (he.continues htakes.continues)
    cases appended_of_runs happend with
    | @stored i log hstored =>
      have hlog := Passes.stored hpass.consistent i hstored hd area
      have hforgot := Passes.forget hlog.consistent n.cache (d.timeline.key .domain) area
        (e.timeline.key .domain)
      rw [hkey d htakes.continues] at hlog
      refine ⟨hareas, ?_, ?_⟩
      · refine hforgot.rooted hlog.consistent
          (hd.settle hstored hpass.consistent.numbered fun _ => ?_)
        rw [hkey d htakes.continues, htakes.continues.version, hversion,
          eq_logged_of_unnumbered hsame]
        rfl
      · have hall := (hpass.trans hlog).trans hforgot
        simp only [List.nil_append, List.append_nil] at hall
        exact hall.absorbed rfl (habsorbs d htakes) hclean hbatch

theorem tallied_resolve {strategy : ConflictStrategy} {r : Except ResolveError Resolution}
    (h : Resolves ((n.resolver (site opened) strategy).resolve routes.lift batch commitId headers)
      e w r e' w')
    (hc : w.Consistent) (he : e.timeline.Rooted w.log) (hclean : e.timeline.dirty = false)
    (hbatch : ∀ event ∈ batch, event.Routable)
    (hload : w.loaded n.cache (routes.lift : Routes (StateM World) S) e.timeline.stream = .ok e)
    (hversion : e.timeline.version = w.log.version (e.timeline.key .domain)) :
    w.Tallied n.area w' (e.timeline.key .domain) e' batch (fun merged =>
      strategy.refused merged ++ strategy.declined routes e.state
        (w.taken w' n.area (e.timeline.key .domain) ++ merged)) r := by
  cases strategy with
  | throw =>
    obtain ⟨rfl, rfl, rfl⟩ := resolves_throw.1 h
    exact .refl hc ..
  | discard =>
    obtain ⟨rfl, rfl, rfl⟩ := resolves_pure.1 h
    exact ⟨he, (Passes.refl hc _ _).congr fun x => by
      simp [ConflictStrategy.refused, ConflictStrategy.declined]⟩
  | ignore => exact (tallied_ignoring h hc he hclean hbatch hversion).2
  | resolveStrongly =>
    have hmerged := merged_of_settleBatch h
    have htallied := hmerged.passes n.area hc he hclean hbatch
    have htaken : w.taken w' n.area (e.timeline.key .domain) = [] :=
      taken_eq_nil (by simp [queue_eq_of_areas hmerged.areas])
    simpa [htaken, ConflictStrategy.refused, ConflictStrategy.declined] using htallied
  | resolveWeakly => exact tallied_weak h hc he hclean hbatch hload

end World

/-- What an operation says it has done with events. -/
structure Receipt where
  key : String
  /-- The events of a commit that was accepted. -/
  submitted : List Event
  /-- The events that the strategy dropped without asking anybody. -/
  refused : List Event
  /-- The events that conflict routes declined in a merge that was settled. -/
  declined : List Event

/-- The events of a batch that a resolver has merged or dropped, rather than staged. -/
def CommitOutcome.merged : CommitOutcome → List Event → List Event
  | resolved .committed, batch | resolved .discarded, batch => batch
  | _, _ => []

namespace Node

/-- The receipt of a commit of an entity. The events that conflict routes were asked about are
those that have left the staging area and those of the batch, if it was merged; the routes
started from the state that the log held. -/
def commitReceipt (n : Node) (routes : Routes Id S) (e : Entity S) (w w' : World)
    (r : Except CommitError CommitOutcome) : Receipt :=
  let key := e.timeline.key .domain
  let merged :=
    match r with
    | .ok outcome => outcome.merged e.timeline.batch
    | .error _ => []
  { key
    submitted :=
      match r with
      | .ok _ => e.timeline.batch
      | .error _ => []
    refused := n.settings.strategy.refused merged
    declined :=
      match (w.forget n.cache key).loaded n.cache routes e.timeline.stream with
      | .ok found => n.settings.strategy.declined routes found.state
          (w.taken w' n.area key ++ merged)
      | .error _ => [] }

def handleReceipt (n : Node) (routes : Routes Id S) (stream : StreamRef) (w w' : World) :
    Receipt where
  key := stream.key .domain
  submitted := []
  refused := []
  declined :=
    match w.loaded n.cache routes stream with
    | .ok found => routes.declined found.state (w.taken w' n.area (stream.key .domain))
    | .error _ => []

variable {n : Node} {w w' : World} {routes : Routes Id S}

theorem lane_of_declined_commit {e : Entity S} {r : Except CommitError CommitOutcome} :
    ∀ event ∈ (n.commitReceipt routes e w w' r).declined, event.lane = .domain := by
  intro event hmem
  simp only [commitReceipt] at hmem
  split at hmem
  · exact ConflictStrategy.lane_of_declined event hmem
  · cases hmem

theorem lane_of_declined_handle {stream : StreamRef} :
    ∀ event ∈ (n.handleReceipt routes stream w w').declined, event.lane = .domain := by
  intro event hmem
  simp only [handleReceipt] at hmem
  split at hmem
  · exact Routes.lane_of_declined event hmem
  · cases hmem

end Node

namespace World

variable {n : Node} {opened : Moment} {w w' : World} {key : String}
  {routes : Routes Id S} {e e' : Entity S} {commitId : Uuid} {headers : Headers}

theorem continues_staged {m : Type → Type} {routes : Routes m S} {time : Moment}
    (h : e.staged routes time = .ok e') :
    e.timeline.Continues e'.timeline ∧ e'.timeline.batch = e.timeline.batch := by
  rcases Entity.staged_eq_ok h with ⟨-, rfl⟩ | ⟨-, _, memento, -, -, rfl⟩
  · exact ⟨.refl _, rfl⟩
  · exact ⟨.addSnapshot .., rfl⟩

theorem commitReceipt_staged {m : Type → Type} {routes' : Routes m S} {time : Moment}
    (h : e.staged routes' time = .ok e') (r : Except CommitError CommitOutcome) :
    n.commitReceipt routes e w w' r = n.commitReceipt routes e' w w' r := by
  obtain ⟨hcontinues, hbatch⟩ := continues_staged h
  simp only [Node.commitReceipt, Timeline.key, hcontinues.stream, hbatch]

theorem commitReceipt_of_unmerged {r : Except CommitError CommitOutcome}
    (hareas : w'.areas = w.areas)
    (hr : ∀ outcome, r = .ok outcome → outcome.merged e.timeline.batch = []) :
    (n.commitReceipt routes e w w' r).refused ++ (n.commitReceipt routes e w w' r).declined =
      [] := by
  have htaken : w.taken w' n.area (e.timeline.key .domain) = [] :=
    taken_eq_nil (by simp [queue_eq_of_areas hareas])
  have hmerged : (match r with
      | .ok outcome => outcome.merged e.timeline.batch
      | .error _ => []) = [] := by
    cases r with
    | ok outcome => exact hr outcome rfl
    | error err => rfl
  simp only [Node.commitReceipt, hmerged, htaken, ConflictStrategy.refused_nil,
    ConflictStrategy.declined_nil, List.append_nil, List.nil_append]
  split <;> rfl

/-- A batch that met a newer history is resolved on the entity that the log holds. -/
theorem passes_resolveConflict {r : Except CommitError CommitOutcome}
    (h : Runs ((n.repository (site opened)).resolveConflict routes.lift e commitId headers)
      (w.forget n.cache (e.timeline.key .domain)) (r, e') w') (hc : w.Consistent)
    (he : e.timeline.Rooted w.log) :
    e'.timeline.Rooted w'.log ∧ w.Passes n.area w' (n.commitReceipt routes e w w' r).key
      (n.commitReceipt routes e w w' r).submitted
      ((n.commitReceipt routes e w w' r).refused ++
        (n.commitReceipt routes e w w' r).declined) := by
  have hforgot := Passes.forget hc n.cache (e.timeline.key .domain) n.area (e.timeline.key .domain)
  have hviewed := hforgot.trans (.viewed hforgot.consistent n.cache e.timeline.stream n.area _)
  have hareas : ((w.forget n.cache (e.timeline.key .domain)).viewed n.cache
      e.timeline.stream).areas = w.areas := areas_viewed ..
  rcases runs_resolveConflict h with ⟨err, hload, rfl, rfl, rfl⟩ |
    ⟨found, result, d, hload, hresolves, hend⟩
  · refine ⟨hviewed.rooted hc he, ?_⟩
    rw [commitReceipt_of_unmerged hareas (by simp)]
    exact hviewed
  obtain ⟨hview, hkey, hrooted, hclean⟩ := hforgot.consistent.loaded hload
  obtain ⟨hstream, hversion, -⟩ :=
    EventLog.timeline_spec hc.numbered hc.recorded ((view_forget w n.cache _).symm.trans hview)
  have htallied := tallied_resolve hresolves hviewed.consistent (hviewed.rooted hc hrooted) hclean
    he.sound.routable (by rw [hstream, World.loaded, view_viewed]; exact hload)
    (by rw [log_viewed, hkey]; exact hversion)
  have htaken : ((w.forget n.cache (e.timeline.key .domain)).viewed n.cache
      e.timeline.stream).taken w' n.area (e.timeline.key .domain) =
        w.taken w' n.area (e.timeline.key .domain) := taken_congr hareas
  rw [hkey] at htallied
  rw [loaded_lift] at hload
  rcases hend with ⟨resolution, rfl, rfl, rfl⟩ | ⟨err, rfl, rfl, rfl⟩
  · simp only [Node.commitReceipt, hload, ← htaken]
    cases resolution with
    | committed | discarded | deferred => exact ⟨htallied.1, hviewed.trans htallied.2⟩
  · simp only [Node.commitReceipt, hload, ← htaken]
    have hpass := hviewed.trans htallied
    exact ⟨hpass.rooted hc he, hpass⟩

/-- What a commit gains and loses is what its receipt says. -/
theorem Committed.passes {r : Except CommitError CommitOutcome}
    (h : Committed n opened routes.lift e commitId headers w (r, e') w') (hc : w.Consistent)
    (he : e.timeline.Rooted w.log) :
    e'.timeline.Rooted w'.log ∧ w.Passes n.area w' (n.commitReceipt routes e w w' r).key
      (n.commitReceipt routes e w w' r).submitted
      ((n.commitReceipt routes e w w' r).refused ++
        (n.commitReceipt routes e w w' r).declined) := by
  cases h with
  | clean hdirty =>
    rw [commitReceipt_of_unmerged rfl (by rintro _ ⟨⟩; rfl)]
    simp only [Node.commitReceipt, Timeline.batch_eq_nil hdirty]
    exact ⟨he, .refl hc ..⟩
  | unrecorded hdirty hstaged =>
    rw [commitReceipt_of_unmerged rfl (by simp)]
    exact ⟨he, .refl hc ..⟩
  | held hdirty hstaged =>
    rw [commitReceipt_of_unmerged rfl (by simp)]
    exact ⟨he.continues (continues_staged hstaged).1, .refl hc ..⟩
  | @written e₁ v w' hdirty hstaged hwrote =>
    have hrooted := he.continues (continues_staged hstaged).1
    rw [commitReceipt_staged hstaged]
    cases hwrote with
    | @stored i log hversion hstored =>
      have hlog := Passes.stored hc i hstored hrooted n.area
      have hsettled := hrooted.settle hstored hc.numbered hversion
      have hcached : (w.logged i log).Passes n.area ((w.logged i log).remember n.cache
          (e₁.timeline.key .domain) e₁.timeline.settle) (e₁.timeline.key .domain) [] [] :=
        .remember hlog.consistent n.cache hsettled rfl ..
      rw [commitReceipt_of_unmerged (by rfl) (by rintro _ ⟨⟩; rfl)]
      refine ⟨hcached.rooted hlog.consistent hsettled, ?_⟩
      have hpass := hlog.trans hcached
      rw [List.append_nil, List.append_nil] at hpass
      exact hpass
  | conflict hdirty hstaged hpending hversion hresolve =>
    rw [commitReceipt_staged hstaged]
    exact passes_resolveConflict hresolve hc (he.continues (continues_staged hstaged).1)

theorem passes_handleStaged {stream : StreamRef} {r : Except ResolveError Resolution}
    (h : Runs ((n.weak (site opened)).handleStaged routes.lift stream) w r w')
    (hc : w.Consistent) :
    w.Passes n.area w' (n.handleReceipt routes stream w w').key []
      (n.handleReceipt routes stream w w').declined := by
  have hviewed := Passes.viewed hc n.cache stream n.area (stream.key .domain)
  rcases runs_handleStaged h with ⟨err, hfound, -, hscheduled⟩ |
    ⟨e, i, commitId, e', hfound, hresolve⟩
  · have hpass : w.Passes n.area w' (stream.key .domain) [] [] :=
      hviewed.trans (.idle hviewed.consistent (idle_scheduled hscheduled) ..)
    simp only [Node.handleReceipt, hfound]
    exact hpass
  · obtain ⟨-, hkey, hrooted, hclean⟩ := hc.loaded hfound
    have hissued := hviewed.trans (.idle hviewed.consistent (.issued _ i) ..)
    have htallied := passes_resolveStaged hresolve hissued.consistent
      (hissued.rooted hc hrooted) hclean (by simp) (by simp)
    have htaken : ((w.viewed n.cache stream).logged i (w.viewed n.cache stream).log).taken w'
        n.area (stream.key .domain) = w.taken w' n.area (stream.key .domain) :=
      taken_congr (areas_viewed w n.cache stream)
    rw [hkey] at htallied
    simp only [Node.handleReceipt, hfound, ← htaken]
    have hdropped := htallied.of_nil
    rw [List.append_nil] at hdropped
    exact hissued.trans hdropped

end World

end Chronicle
