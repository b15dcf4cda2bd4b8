import Chronicle.Proofs.Committing
import Chronicle.Proofs.Hydrating

/-!
# What a reload gives after a commit

A commit that writes leaves the settled timeline in the cache, and a reload through the same
node builds the entity from it. Without a new snapshot the whole history is applied to the state
before it, which gives the state that was committed. With one, the history that the new snapshot
covers is still settled, and it is applied once more to the state that the snapshot records.
-/

namespace Chronicle

variable {S : Type}

/-- Events were recorded on an entity and committed. `covered` are the settled events that a
snapshot taken since then covers. -/
inductive Entity.Evolves {m : Type → Type} (routes : Routes m S) (start : Entity S) :
    Entity S → List Event → Prop where
  | refl : Evolves routes start start []
  | apply {e e' : Entity S} {covered : List Event} (h : Evolves routes start e covered)
      (stamp : Stamp) {move : Move S} (hrouted : move.Routed routes)
      (happly : e.apply stamp move = .ok e') : Evolves routes start e' covered
  | raise {e e' : Entity S} {covered : List Event} (h : Evolves routes start e covered)
      (stamp : Stamp) {move : Move S} {channel : String} {transient : Bool}
      {daysToLive : Option Nat}
      (hraise : e.raise stamp move channel transient daysToLive = .ok e') :
      Evolves routes start e' covered
  | commit {e e' : Entity S} {covered : List Event} (h : Evolves routes start e covered)
      {time : Moment} (hstaged : e.staged routes time = .ok e') :
      Evolves routes start e'.settle
        (if e.shouldTakeSnapshot routes then e'.settle.timeline.settled else covered)

/-- The requests of a repository that load the entity of a stream. -/
inductive Repository.Loads {m : Type → Type} [Monad m] (r : Repository m) (routes : Routes m S) :
    StreamRef → ExceptT LoadError m (Entity S) → Prop where
  | get (id : String) : Loads r routes (r.streamRef routes id []) (r.get routes id)
  | child {P : Type} (parentRoutes : Routes m P) (parent : Entity P) (id : String) :
      Loads r routes (r.streamRef routes id (childParents parentRoutes parent))
        (r.getChild routes parentRoutes parent id)

namespace Entity

variable {m : Type → Type} {routes : Routes m S} {start e : Entity S}

/-- The entity can be told from the snapshot of its timeline: the events that the snapshot does
not cover lead from the recorded state to its own. -/
structure Told (routes : Routes m S) (e : Entity S) (covered : List Event) (recorded : S)
    (rest : List Event) : Prop where
  start : startState routes e.timeline = .ok recorded
  settled : e.timeline.settled = covered ++ rest
  state : routes.Hydrates recorded (rest ++ e.timeline.pending) e.state
  readable : ∃ s s', routes.Hydrates s (e.timeline.settled ++ e.timeline.pending) s'
  unstaged : e.timeline.pendingSnapshot = none

theorem told_of_ofTimeline {t : Timeline} (hclean : t.dirty = false)
    (h : ofTimeline routes t = .ok e) : ∃ recorded rest, Told routes e [] recorded rest := by
  obtain ⟨rfl, -, first, hfirst, hsettled⟩ := ofTimeline_eq_ok.1 h
  obtain ⟨hpending, -, hsnapshot⟩ := Timeline.dirty_eq_false.1 hclean
  have hall : routes.Hydrates first (e.timeline.settled ++ e.timeline.pending) e.state := by
    simpa [hpending] using hsettled
  exact ⟨first, e.timeline.settled, hfirst, rfl, hall, ⟨_, _, hall⟩, hsnapshot⟩

theorem Told.apply {e' : Entity S} {covered rest : List Event} {recorded : S}
    (h : Told routes e covered recorded rest) {stamp : Stamp} {move : Move S}
    (hrouted : move.Routed routes) (happly : e.apply stamp move = .ok e') :
    Told routes e' covered recorded rest := by
  obtain ⟨payload, hp, rfl⟩ := Entity.apply_eq_ok happly
  have hnew : ∀ s, routes.Hydrates s [e.timeline.draft .domain (e.timeline.nextVersion + 1) stamp
      move.kind payload ∅] (move.apply s) := hrouted.hydrates hp rfl rfl
  obtain ⟨s, s', hreadable⟩ := h.readable
  refine ⟨h.start, h.settled, ?_, ⟨s, move.apply s', ?_⟩, h.unstaged⟩
  · rw [Timeline.pending_add, ← List.append_assoc]
    exact Routes.hydrates_append.2 ⟨_, h.state, hnew _⟩
  · rw [Timeline.pending_add, ← List.append_assoc]
    exact Routes.hydrates_append.2 ⟨_, hreadable, hnew _⟩

theorem Told.raise {e' : Entity S} {covered rest : List Event} {recorded : S}
    (h : Told routes e covered recorded rest) {stamp : Stamp} {move : Move S} {channel : String}
    {transient : Bool} {daysToLive : Option Nat}
    (hraise : e.raise stamp move channel transient daysToLive = .ok e') :
    Told routes e' covered recorded rest := by
  obtain ⟨payload, _, rfl⟩ := Entity.raise_eq_ok hraise
  exact ⟨h.start, h.settled, h.state, h.readable, h.unstaged⟩

/-- A commit settles the pending events. A snapshot that is due records the state and covers all
of them. -/
theorem Told.commit {e' : Entity S} {covered rest : List Event} {recorded : S}
    (h : Told routes e covered recorded rest) (hfaithful : routes.RecordsFaithfully)
    {time : Moment} (hstaged : e.staged routes time = .ok e') :
    ∃ recorded' rest', Told routes e'.settle
      (if e.shouldTakeSnapshot routes then e'.settle.timeline.settled else covered)
      recorded' rest' := by
  rcases staged_eq_ok hstaged with
    ⟨hdue, rfl⟩ | ⟨hdue, snapshots, memento, hsnapshots, hencode, rfl⟩
  · rw [hdue]
    refine ⟨recorded, rest ++ e'.timeline.pending, ?_, ?_, ?_, ?_, rfl⟩
    · rw [← h.start]
      simp [startState, Entity.settle, Timeline.settle, h.unstaged]
    · simp [Entity.settle, Timeline.settle, h.settled]
    · simpa [Entity.settle, Timeline.settle] using h.state
    · simpa [Entity.settle, Timeline.settle] using h.readable
  · rw [hdue, if_pos rfl]
    refine ⟨e.state, [], ?_, by simp, ?_, ?_, rfl⟩
    · simp [startState, Entity.settle, Timeline.settle, Timeline.addSnapshot,
        Routes.decodeSnapshot, hsnapshots, hfaithful snapshots hsnapshots _ _ hencode, Except.map]
    · simp [Entity.settle, Timeline.settle]
    · simpa [Entity.settle, Timeline.settle, Timeline.addSnapshot] using h.readable

theorem Evolves.told (hfaithful : routes.RecordsFaithfully) {t : Timeline}
    (hclean : t.dirty = false) (hstart : ofTimeline routes t = .ok start) {covered : List Event}
    (h : Evolves routes start e covered) :
    ∃ recorded rest, Told routes e covered recorded rest := by
  induction h with
  | refl => exact told_of_ofTimeline hclean hstart
  | apply _ stamp hrouted happly ih =>
    obtain ⟨recorded, rest, ht⟩ := ih
    exact ⟨recorded, rest, ht.apply hrouted happly⟩
  | raise _ stamp hraise ih =>
    obtain ⟨recorded, rest, ht⟩ := ih
    exact ⟨recorded, rest, ht.raise hraise⟩
  | commit _ hstaged ih =>
    obtain ⟨recorded, rest, ht⟩ := ih
    exact ht.commit hfaithful hstaged

end Entity

namespace World

variable {n : Node} {opened : Moment} {w w' : World}

theorem load_of_loads {routes : Routes (StateM World) S} {stream : StreamRef}
    {load : ExceptT LoadError (StateM World) (Entity S)}
    (h : (n.repository (site opened)).Loads routes stream load) :
    load = loadEntity (n.store (site opened)) routes stream := by
  cases h <;> rfl

/-- A reload after a commit that wrote gives an entity of the same version, built from the cached
timeline: the whole settled history is applied to the recorded state, though `covered` is part of
that state already. The reloaded state is the committed one exactly if this makes no difference,
as when no snapshot was taken since the entity was loaded. -/
theorem reload_after_written {routes : Routes (StateM World) S}
    (hfaithful : routes.RecordsFaithfully) {t : Timeline} {start e e' : Entity S}
    {covered : List Event} (hclean : t.dirty = false)
    (hstart : Entity.ofTimeline routes t = .ok start)
    (hevolves : Entity.Evolves routes start e covered) {commitId : Uuid} {headers : Headers}
    {v : Int} (hcommit : Runs ((n.repository (site opened)).commit routes e commitId headers) w
      (.ok (.written v), e') w')
    {load : ExceptT LoadError (StateM World) (Entity S)}
    (hload : (n.repository (site opened)).Loads routes e.timeline.stream load) :
    ∃ found w'' recorded covered' rest, Runs load.run w' (.ok found) w'' ∧
      found.version = e'.version ∧ Entity.startState routes e'.timeline = .ok recorded ∧
      covered' = (if e.shouldTakeSnapshot routes then e'.timeline.settled else covered) ∧
      e'.timeline.settled = covered' ++ rest ∧
      routes.Hydrates recorded rest e'.state ∧
      routes.Hydrates recorded (covered' ++ rest) found.state ∧
      (found.state = e'.state ↔ routes.Hydrates recorded (covered' ++ rest) e'.state) := by
  obtain ⟨e₁, hstaged, hwrote, rfl⟩ := (committed_of_runs hcommit).of_written
  obtain ⟨recorded, rest, htold⟩ :=
    (hevolves.commit hstaged).told hfaithful hclean hstart
  have hc : (w'.cache n.cache)[e₁.timeline.key .domain]? = some e₁.settle.timeline := by
    cases hwrote with
    | stored hversion hstored => simp [getElem?_cache_remember, Entity.settle]
  have hstream : e₁.timeline.stream = e.timeline.stream := by
    rcases Entity.staged_eq_ok hstaged with ⟨-, rfl⟩ | ⟨-, _, _, -, -, rfl⟩ <;> rfl
  have hp : e₁.settle.timeline.pending = [] := rfl
  obtain ⟨s, s', hreadable⟩ := htold.readable
  obtain ⟨state, hagain⟩ : ∃ state,
      routes.Hydrates recorded e₁.settle.timeline.settled state := by
    rw [hp, List.append_nil] at hreadable
    exact ⟨_, hreadable.exists recorded⟩
  -- The cache holds the settled timeline, so the entity is built from it.
  have hfound : Entity.ofTimeline routes e₁.settle.timeline =
      .ok ⟨state, e₁.settle.timeline, 0⟩ :=
    Entity.ofTimeline_eq_ok.2 ⟨rfl, rfl, recorded, htold.start, hagain⟩
  have hstate := htold.state
  rw [hp, List.append_nil] at hstate
  rw [htold.settled] at hagain
  refine ⟨⟨state, e₁.settle.timeline, 0⟩, w'.viewed n.cache e.timeline.stream, recorded, _, rest,
    ?_, rfl, htold.start, rfl, htold.settled, hstate, hagain, ?_⟩
  · rw [load_of_loads hload]
    refine runs_loadEntity.2 ⟨?_, rfl⟩
    rw [Timeline.key, hstream] at hc
    simp only [loaded, view, hc]
    rw [hfound]
    rfl
  · constructor
    · intro he
      rw [← he]
      exact hagain
    · intro hh
      exact hagain.state_eq.symm.trans hh.state_eq

def addend : EventType Int where
  kind := "sum.added"
  encode n := .ok (.int n)
  decode
    | .int n => .ok n
    | v => Json.Decoder.wrongType v "a number"

def sumRoutes : Routes (StateM World) Int :=
  ((Routes.new "sum" 0).handle addend fun n s => s + n).withSnapshots .always addend.encode
    addend.decode

def sumNode : Node := ⟨.numbered 0, "default", .standard, 0, 0, 0, none, none⟩

def newSum : Entity Int := ⟨0, .empty ⟨"sum", "default", "s-1", []⟩, 0⟩

def sumOfTwo : Entity Int :=
  { newSum with
    state := 2
    timeline := newSum.timeline.add ⟨.numbered 1, .epoch⟩ "sum.added" (.int 2) ∅ }

/-- A sum of two is a sum of four after a commit and a reload. -/
theorem reload_doubles_sumOfTwo : ∃ e' w' found w'',
    Runs ((sumNode.repository (site .epoch)).commit sumRoutes sumOfTwo (.numbered 2) ∅)
      (start .epoch) (.ok (.written 0), e') w' ∧
    Runs ((sumNode.repository (site .epoch)).get sumRoutes "s-1").run w' (.ok found) w'' ∧
    found.version = e'.version ∧ e'.state = 2 ∧ found.state = 4 := by
  have hfaithful : sumRoutes.RecordsFaithfully := by
    rintro snapshots ⟨⟩ s memento ⟨⟩
    rfl
  have hrouted : (addend.move 2 fun n s => s + n).Routed sumRoutes :=
    Routes.routed_handle _ addend _ 2 (by rintro payload ⟨⟩; rfl)
  have hevolves : Entity.Evolves sumRoutes newSum sumOfTwo [] :=
    .apply .refl ⟨.numbered 1, .epoch⟩ hrouted rfl
  obtain ⟨p, hp⟩ : ∃ p, p = ((sumNode.repository (site .epoch)).commit sumRoutes sumOfTwo
    (.numbered 2) ∅).run (start .epoch) := ⟨_, rfl⟩
  have hresult : p.1.1 = .ok (.written 0) := by
    rw [hp]
    decide +kernel
  have hstate : p.1.2.state = 2 ∧
      (sumRoutes.hydrate 2 p.1.2.timeline.settled).2 = 4 := by
    rw [hp]
    decide +kernel
  have hstarted : Entity.startState sumRoutes p.1.2.timeline = .ok 2 := by
    rw [hp]
    rfl
  have hcommit : Runs ((sumNode.repository (site .epoch)).commit sumRoutes sumOfTwo
      (.numbered 2) ∅) (start .epoch) (.ok (.written 0), p.1.2) p.2 :=
    hp.symm.trans (Prod.ext (Prod.ext hresult rfl) rfl)
  obtain ⟨found, w'', recorded, covered, rest, hget, hversion, hrecorded, -, hsettled, -, hfound,
    -⟩ :=
    reload_after_written hfaithful (Timeline.dirty_ofHistory _ [] none) rfl hevolves hcommit
      (.get "s-1")
  refine ⟨p.1.2, p.2, found, w'', hcommit, hget, hversion, hstate.1, ?_⟩
  rw [← hsettled] at hfound
  cases hstarted.symm.trans hrecorded
  exact hfound.state_eq.symm.trans hstate.2

end World

end Chronicle
