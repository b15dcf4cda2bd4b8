import Mathlib.Data.List.Induction
import Chronicle.Proofs.DueTimes
import Chronicle.Proofs.Receipts
import Chronicle.Samples.States

/-!
# Histories of a cluster

Any number of participants work on one log and one staging area, each with a cache, an agenda and
settings of its own; participants may share these, too. The entities in use stand in slots, and any
participant may commit any of them. An operation runs to completion before the next one begins. The
entries of an agenda may come in another order at any time, so that a worker may take streams that
are due at the same time in any order. Each commit and each handling of a due stream leaves a
receipt, and the receipts of a history account for every event that was ever submitted.
-/

namespace Chronicle

/-- Kinds of entities with their states and routes. -/
structure Catalog where
  Kind : Type
  State : Kind → Type
  routes : (kind : Kind) → Routes Id (State kind)

variable {C : Catalog}

def sharedArea : Nat := 0

/-- Someone who works in a cluster, with the kinds that are registered with its worker in order. -/
structure Participant (C : Catalog) where
  owner : Uuid
  bucket : String
  settings : ConflictSettings
  cache : Nat
  agenda : Nat
  registered : List C.Kind
  age : Option WaitingTime := none
  timeout : Option Span := none

/-- An entity of some kind. -/
structure LiveEntity (C : Catalog) where
  kind : C.Kind
  entity : Entity (C.State kind)

/-- A world with the entities in use and all receipts so far. -/
structure Cluster (C : Catalog) where
  world : World
  slots : List (LiveEntity C)
  receipts : List Receipt

/-- What can be asked of a cluster. Slots are named by their number; an operation on a slot that
is not in use does nothing. A move is given for every kind, and the one of the slot's kind is
recorded. -/
inductive Operation (C : Catalog) where
  | get (p : Participant C) (kind : C.Kind) (id : String)
  | newEntity (p : Participant C) (kind : C.Kind) (id : String)
  | getChild (p : Participant C) (kind : C.Kind) (parent : Nat) (id : String)
  | newChild (p : Participant C) (kind : C.Kind) (parent : Nat) (id : String)
  | apply (slot : Nat) (move : (kind : C.Kind) → Move (C.State kind))
  | raise (slot : Nat) (move : (kind : C.Kind) → Move (C.State kind)) (channel : String)
      (transient : Bool) (daysToLive : Option Nat)
  | commit (p : Participant C) (slot : Nat) (commitId : Uuid) (headers : Headers)
  | runDue (p : Participant C)
  | freeze (p : Participant C) (slot : Nat)
  | unfreeze (p : Participant C) (slot : Nat)
  | advance (span : Span)
  | setWall (time : Moment)
  | shuffle (agenda : Nat) (entries : List (StreamRef × Span))

namespace Participant

def node (p : Participant C) : Node :=
  ⟨p.owner, p.bucket, p.settings, p.cache, p.agenda, sharedArea, p.age, p.timeout⟩

def repository (p : Participant C) (opened : Moment) : Repository (StateM World) :=
  p.node.repository (World.site opened)

def worker (p : Participant C) (opened : Moment) : Worker (StateM World) :=
  p.registered.foldl (fun worker kind => worker.register (C.routes kind).lift)
    (p.node.worker (World.site opened))

def kind? (p : Participant C) (entity : String) : Option C.Kind :=
  p.registered.reverse.find? fun kind => (C.routes kind).entity == entity

/-- The receipts of handling streams one after the other. A stream of a kind that is not
registered leaves none. -/
def handleReceipts (p : Participant C) (opened : Moment) : List StreamRef → World → List Receipt
  | [], _ => []
  | stream :: rest, w =>
    let w' := (((p.worker opened).handle stream).run w).2
    match p.kind? stream.entity with
    | some kind =>
      p.node.handleReceipt (C.routes kind) stream w w' :: p.handleReceipts opened rest w'
    | none => p.handleReceipts opened rest w'

def dueReceipts (p : Participant C) (opened : Moment) (w : World) : List Receipt :=
  let (due, w') := ((World.agendaCell World.cell p.agenda).takeDue
    (World.surroundings World.cell)).run w
  p.handleReceipts opened due w'

end Participant

/-- The world with the entries of an agenda in another order. -/
def World.shuffled (w : World) (agenda : Nat) (entries : List (StreamRef × Span)) : World :=
  { w with agendas := w.agendas.insert agenda ((w.agenda agenda).shuffle entries) }

theorem World.Idle.shuffled (w : World) (agenda : Nat) (entries : List (StreamRef × Span)) :
    w.Idle (w.shuffled agenda entries) :=
  ⟨rfl, rfl, rfl⟩

namespace Cluster

def start (wall : Moment) : Cluster C := ⟨.start wall, [], []⟩

def keep {ε : Type} (c : Cluster C) (kind : C.Kind) (found : Except ε (Entity (C.State kind)))
    (world : World) : Cluster C :=
  match found with
  | .ok e => { c with world, slots := c.slots ++ [⟨kind, e⟩] }
  | .error _ => { c with world }

def record (c : Cluster C) (slot : Nat)
    (f : (kind : C.Kind) → Entity (C.State kind) → Stamp →
      Except RouteError (Entity (C.State kind))) : Cluster C :=
  match c.slots[slot]? with
  | none => c
  | some ⟨kind, e⟩ =>
    let (stamp, world) := (World.surroundings World.cell).stamp.run c.world
    match f kind e stamp with
    | .ok e => { c with world, slots := c.slots.set slot ⟨kind, e⟩ }
    | .error _ => { c with world }

def step (opened : Moment) (c : Cluster C) : Operation C → Cluster C
  | .get p kind id =>
    let (found, world) := ((p.repository opened).get (C.routes kind).lift id).run.run c.world
    c.keep kind found world
  | .newEntity p kind id =>
    c.keep kind ((p.repository opened).newEntity (C.routes kind).lift id) c.world
  | .getChild p kind parent id =>
    match c.slots[parent]? with
    | none => c
    | some ⟨parentKind, e⟩ =>
      let (found, world) := ((p.repository opened).getChild (C.routes kind).lift
        (C.routes parentKind).lift e id).run.run c.world
      c.keep kind found world
  | .newChild p kind parent id =>
    match c.slots[parent]? with
    | none => c
    | some ⟨parentKind, e⟩ =>
      c.keep kind ((p.repository opened).newChild (C.routes kind).lift
        (C.routes parentKind).lift e id) c.world
  | .apply slot move => c.record slot fun kind e stamp => e.apply stamp (move kind)
  | .raise slot move channel transient daysToLive =>
    c.record slot fun kind e stamp => e.raise stamp (move kind) channel transient daysToLive
  | .commit p slot commitId headers =>
    match c.slots[slot]? with
    | none => c
    | some ⟨kind, e⟩ =>
      let ((r, e'), world) :=
        ((p.repository opened).commit (C.routes kind).lift e commitId headers).run c.world
      { world
        slots := c.slots.set slot ⟨kind, e'⟩
        receipts := c.receipts ++ [p.node.commitReceipt (C.routes kind) e c.world world r] }
  | .runDue p =>
    { c with
      world := ((p.worker opened).runDue.run c.world).2
      receipts := c.receipts ++ p.dueReceipts opened c.world }
  | .freeze p slot =>
    match c.slots[slot]? with
    | none => c
    | some ⟨_, e⟩ =>
      { c with world := (((p.node.store (World.site opened)).freeze e.timeline).run c.world).2 }
  | .unfreeze p slot =>
    match c.slots[slot]? with
    | none => c
    | some ⟨_, e⟩ =>
      { c with world := (((p.node.store (World.site opened)).unfreeze e.timeline).run c.world).2 }
  | .advance span => { c with world := c.world.advance span }
  | .setWall time => { c with world := { c.world with wall := time } }
  | .shuffle agenda entries => { c with world := c.world.shuffled agenda entries }

def run (opened : Moment) (c : Cluster C) (operations : List (Operation C)) : Cluster C :=
  operations.foldl (step opened) c

end Cluster

namespace Receipt

/-- The events that were submitted under a domain key. -/
def submittedTo (key : String) (receipts : List Receipt) : List Event :=
  receipts.flatMap fun r => if r.key = key then r.submitted else []

/-- The events that were dropped under a domain key. -/
def droppedFrom (key : String) (receipts : List Receipt) : List Event :=
  receipts.flatMap fun r => if r.key = key then r.refused ++ r.declined else []

@[simp] theorem submittedTo_append (key : String) (rs ss : List Receipt) :
    submittedTo key (rs ++ ss) = submittedTo key rs ++ submittedTo key ss :=
  List.flatMap_append

@[simp] theorem droppedFrom_append (key : String) (rs ss : List Receipt) :
    droppedFrom key (rs ++ ss) = droppedFrom key rs ++ droppedFrom key ss :=
  List.flatMap_append

end Receipt

/-- A consistent world in which the log has only grown, and which holds what the former one held
and what was submitted, but for what was dropped. -/
structure World.Books (w w' : World) (receipts : List Receipt) : Prop where
  consistent : w'.Consistent
  grows : ∀ key, w.log.events key <+: w'.log.events key
  domain : ∀ (stream : StreamRef) (x : Lane × String × Json), x.1 = .domain →
    w'.held sharedArea (stream.key .domain) x +
        occurrences x (Receipt.droppedFrom (stream.key .domain) receipts) =
      w.held sharedArea (stream.key .domain) x +
        occurrences x (Receipt.submittedTo (stream.key .domain) receipts)
  oobs : ∀ x : Lane × String × Json, x.1 = .oob →
    w'.heldAll sharedArea x + occurrences x (receipts.flatMap Receipt.refused) =
      w.heldAll sharedArea x + occurrences x (receipts.flatMap Receipt.submitted)

namespace World.Books

variable {w w' w'' : World} {rs ss : List Receipt} {r : Receipt} {key : String} {t : Timeline}

theorem rooted (h : w.Books w' rs) (hc : w.Consistent) (ht : t.Rooted w.log) : t.Rooted w'.log :=
  ht.mono hc.numbered h.consistent.numbered h.grows

theorem trans (h : w.Books w' rs) (h' : w'.Books w'' ss) : w.Books w'' (rs ++ ss) where
  consistent := h'.consistent
  grows key := (h.grows key).trans (h'.grows key)
  domain stream x hx := by
    have := h.domain stream x hx
    have := h'.domain stream x hx
    simp only [Receipt.submittedTo_append, Receipt.droppedFrom_append, occurrences_append]
    omega
  oobs x hx := by
    have := h.oobs x hx
    have := h'.oobs x hx
    simp only [List.flatMap_append, occurrences_append]
    omega

theorem single (h : w.Passes sharedArea w' r.key r.submitted (r.refused ++ r.declined))
    (hd : ∀ e ∈ r.declined, e.lane = .domain) : w.Books w' [r] where
  consistent := h.consistent
  grows := h.grows
  domain stream x hx := by
    by_cases hk : r.key = stream.key .domain
    · have := h.here x hx
      simpa [Receipt.droppedFrom, Receipt.submittedTo, hk] using this
    · have := h.elsewhere stream (Ne.symm hk) x
      simpa [Receipt.droppedFrom, Receipt.submittedTo, hk] using this
  oobs x hx := by
    have := h.oobs x hx
    have hdeclined : occurrences x r.declined = 0 :=
      occurrences_eq_zero fun e he => by simp [hd e he, hx]
    simpa [hdeclined] using this

theorem silent (h : w.Passes sharedArea w' key [] []) : w.Books w' [] where
  consistent := h.consistent
  grows := h.grows
  domain stream x hx := by
    by_cases hk : stream.key .domain = key
    · have := h.here x hx
      simpa [Receipt.droppedFrom, Receipt.submittedTo, ← hk] using this
    · have := h.elsewhere stream hk x
      simpa [Receipt.droppedFrom, Receipt.submittedTo] using this
  oobs x hx := by simpa using h.oobs x hx

theorem idle (hc : w.Consistent) (hi : w.Idle w') : w.Books w' [] := silent (.idle hc hi _ "")

end World.Books

def World.due (w : World) (agenda : Nat) : List StreamRef := ((w.agenda agenda).takeDue w.elapsed).1

def World.cleared (w : World) (agenda : Nat) : World :=
  { w with agendas := w.agendas.insert agenda ((w.agenda agenda).takeDue w.elapsed).2 }

theorem World.Idle.cleared (w : World) (agenda : Nat) : w.Idle (w.cleared agenda) :=
  ⟨rfl, rfl, rfl⟩

namespace Participant

variable {p : Participant C} {opened : Moment} {w w' : World} {stream : StreamRef}

private theorem handlers_foldl (base : Worker (StateM World)) (hb : base.handlers = ∅)
    (kinds : List C.Kind) (entity : String) :
    let worker := kinds.foldl (fun worker kind => worker.register (C.routes kind).lift) base
    worker.resolver = base.resolver ∧ worker.handlers[entity]? =
      (kinds.reverse.find? fun kind => (C.routes kind).entity == entity).map fun kind =>
        base.resolver.handleStaged (C.routes kind).lift := by
  induction kinds using List.reverseRecOn with
  | nil => simp [hb]
  | append_singleton kinds kind ih =>
    obtain ⟨hresolver, hhandlers⟩ := ih
    rw [List.foldl_append, List.reverse_append, List.reverse_singleton, List.singleton_append,
      List.find?_cons]
    -- The worker with the former kinds is kept whole, since `register` opens up inside it, too.
    generalize kinds.foldl (fun worker kind => worker.register (C.routes kind).lift) base =
      worker at hresolver hhandlers
    refine ⟨hresolver, ?_⟩
    simp only [List.foldl_cons, List.foldl_nil, Worker.register, Routes.entity_lift, hresolver,
      Std.ExtTreeMap.getElem?_insert, hhandlers]
    by_cases hk : (C.routes kind).entity = entity
    · simp [hk]
    · simp [hk, beq_false_of_ne hk]

theorem handlers_worker (p : Participant C) (opened : Moment) (entity : String) :
    (p.worker opened).handlers[entity]? = (p.kind? entity).map fun kind =>
      (p.node.weak (World.site opened)).handleStaged (C.routes kind).lift :=
  (handlers_foldl (p.node.worker (World.site opened)) rfl p.registered entity).2

theorem resolver_worker (p : Participant C) (opened : Moment) :
    (p.worker opened).resolver = p.node.weak (World.site opened) :=
  (handlers_foldl (p.node.worker (World.site opened)) rfl p.registered "").1

theorem runs_handle {r : Except ResolveError Resolution}
    (h : Runs ((p.worker opened).handle stream) w r w') :
    (p.kind? stream.entity = none ∧ w' = w) ∨ ∃ kind, p.kind? stream.entity = some kind ∧
      Runs ((p.node.weak (World.site opened)).handleStaged (C.routes kind).lift stream) w r w' := by
  unfold Worker.handle at h
  rw [handlers_worker] at h
  cases hk : p.kind? stream.entity with
  | none =>
    rw [hk] at h
    exact .inl ⟨rfl, (runs_pure.1 h).2⟩
  | some kind =>
    rw [hk] at h
    exact .inr ⟨kind, rfl, h⟩

theorem runs_handleAll_cons {rest : List StreamRef} {u : Unit}
    (h : Runs ((p.worker opened).handleAll (stream :: rest)) w u w') :
    ∃ r w₁, Runs ((p.worker opened).handle stream) w r w₁ ∧
      Runs ((p.worker opened).handleAll rest) w₁ u w' := by
  rw [Worker.handleAll, runs_bind] at h
  obtain ⟨_, w₁, hfirst, hrest⟩ := h
  obtain ⟨r, hfirst⟩ := runs_discard.1 hfirst
  exact ⟨r, w₁, hfirst, hrest⟩

theorem runs_takeDue {agenda : Nat} {due : List StreamRef}
    (h : Runs ((World.agendaCell World.cell agenda).takeDue (World.surroundings World.cell)) w
      due w') : due = w.due agenda ∧ w' = w.cleared agenda := by
  simp only [Cell.takeDue, runs_bind, runs_pure] at h
  obtain ⟨span, w₁, helapsed, agenda, w₂, hget, u, w₃, hset, rfl, rfl⟩ := h
  obtain ⟨rfl, rfl⟩ := World.runs_elapsed.1 helapsed
  obtain ⟨rfl, rfl⟩ := World.runs_agenda_get.1 hget
  exact ⟨rfl, World.runs_agenda_set.1 hset⟩

/-- What is due is taken off the agenda, and handled after that. -/
theorem runs_runDue {count : Nat} (h : Runs (p.worker opened).runDue w count w') :
    Runs ((p.worker opened).handleAll (w.due p.agenda)) (w.cleared p.agenda) () w' := by
  unfold Worker.runDue at h
  rw [resolver_worker, runs_bind] at h
  obtain ⟨due, w₁, hdue, h⟩ := h
  change Runs ((World.agendaCell World.cell p.agenda).takeDue (World.surroundings World.cell)) w
    due w₁ at hdue
  rw [runs_bind] at h
  obtain ⟨_, w₂, hall, hcount⟩ := h
  obtain ⟨-, rfl⟩ := runs_pure.1 hcount
  obtain ⟨rfl, rfl⟩ := runs_takeDue hdue
  exact hall

theorem dueReceipts_eq (p : Participant C) (opened : Moment) (w : World) :
    p.dueReceipts opened w = p.handleReceipts opened (w.due p.agenda) (w.cleared p.agenda) := by
  obtain ⟨due, w₁, hdue⟩ := Runs.total ((World.agendaCell World.cell p.agenda).takeDue
    (World.surroundings World.cell)) w
  rw [dueReceipts, hdue.run_eq]
  obtain ⟨rfl, rfl⟩ := runs_takeDue hdue
  rfl

theorem books_handle {r : Except ResolveError Resolution} (hc : w.Consistent)
    (h : Runs ((p.worker opened).handle stream) w r w') :
    w.Books w' (match p.kind? stream.entity with
      | some kind => [p.node.handleReceipt (C.routes kind) stream w w']
      | none => []) := by
  rcases runs_handle h with ⟨hk, rfl⟩ | ⟨kind, hk, hhandled⟩
  · rw [hk]
    exact .idle hc (.refl _)
  · rw [hk]
    exact .single (World.passes_handleStaged hhandled hc) Node.lane_of_declined_handle

theorem books_handleAll {streams : List StreamRef} {a : Unit} (hc : w.Consistent)
    (h : Runs ((p.worker opened).handleAll streams) w a w') :
    w.Books w' (p.handleReceipts opened streams w) := by
  induction streams generalizing w with
  | nil =>
    obtain ⟨-, rfl⟩ := runs_pure.1 h
    exact .idle hc (.refl _)
  | cons stream rest ih =>
    obtain ⟨r, w₁, hfirst, hrest⟩ := runs_handleAll_cons h
    have hbooks := books_handle hc hfirst
    have hall := hbooks.trans (ih hbooks.consistent hrest)
    simp only [handleReceipts, hfirst.run_eq]
    cases hk : p.kind? stream.entity with
    | none => simpa [hk] using hall
    | some kind => simpa [hk] using hall

theorem books_runDue {count : Nat} (hc : w.Consistent)
    (h : Runs (p.worker opened).runDue w count w') : w.Books w' (p.dueReceipts opened w) := by
  have hidle : w.Books (w.cleared p.agenda) [] := .idle hc (.cleared ..)
  rw [dueReceipts_eq]
  exact hidle.trans (books_handleAll hidle.consistent (runs_runDue h))

end Participant

namespace Cluster

variable {c c' c'' : Cluster C} {opened wall : Moment} {rs ss : List Receipt} {world : World}

/-- What an operation does to a cluster, in terms of the parts of it that run. -/
inductive Moves (opened : Moment) (c : Cluster C) : Operation C → Cluster C → Prop where
  | idle {operation : Operation C} : Moves opened c operation c
  | loaded {operation : Operation C} {n : Node} {kind : C.Kind} {stream : StreamRef}
      {found : Except LoadError (Entity (C.State kind))} {world : World}
      (hload : Runs (loadEntity (n.store (World.site opened)) (C.routes kind).lift stream).run
        c.world found world) (hentity : stream.entity = (C.routes kind).entity) :
      Moves opened c operation (c.keep kind found world)
  | made {operation : Operation C} {kind : C.Kind} {stream : StreamRef}
      (hentity : stream.entity = (C.routes kind).entity) :
      Moves opened c operation (c.keep kind (Entity.ofTimeline
        ((C.routes kind).lift : Routes (StateM World) (C.State kind)) (.empty stream)) c.world)
  | applied {slot : Nat} {move : (kind : C.Kind) → Move (C.State kind)} :
      Moves opened c (.apply slot move)
        (c.record slot fun kind e stamp => e.apply stamp (move kind))
  | raised {slot : Nat} {move : (kind : C.Kind) → Move (C.State kind)} {channel : String}
      {transient : Bool} {daysToLive : Option Nat} :
      Moves opened c (.raise slot move channel transient daysToLive)
        (c.record slot fun kind e stamp => e.raise stamp (move kind) channel transient daysToLive)
  | committed {p : Participant C} {slot : Nat} {commitId : Uuid} {headers : Headers} {kind : C.Kind}
      {e e' : Entity (C.State kind)} {r : Except CommitError CommitOutcome} {world : World}
      (hslot : c.slots[slot]? = some ⟨kind, e⟩)
      (hcommit : Runs ((p.repository opened).commit (C.routes kind).lift e commitId headers) c.world
        (r, e') world) :
      Moves opened c (.commit p slot commitId headers)
        ⟨world, c.slots.set slot ⟨kind, e'⟩,
          c.receipts ++ [p.node.commitReceipt (C.routes kind) e c.world world r]⟩
  | handled {p : Participant C} {count : Nat} {world : World}
      (hdue : Runs (p.worker opened).runDue c.world count world) :
      Moves opened c (.runDue p)
        { c with world, receipts := c.receipts ++ p.dueReceipts opened c.world }
  | frozen {p : Participant C} {slot : Nat} {s : LiveEntity C} {r : Except StoreError Unit}
      {world : World}
      (hfreeze : Runs ((p.node.store (World.site opened)).freeze s.entity.timeline) c.world r
        world) :
      Moves opened c (.freeze p slot) { c with world }
  | released {p : Participant C} {slot : Nat} {s : LiveEntity C} {r : Except StoreError Unit}
      {world : World}
      (hunfreeze : Runs ((p.node.store (World.site opened)).unfreeze s.entity.timeline) c.world r
        world) :
      Moves opened c (.unfreeze p slot) { c with world }
  | advanced {span : Span} :
      Moves opened c (.advance span) { c with world := c.world.advance span }
  | set {time : Moment} :
      Moves opened c (.setWall time) { c with world := { c.world with wall := time } }
  | shuffled {agenda : Nat} {entries : List (StreamRef × Span)} :
      Moves opened c (.shuffle agenda entries) { c with world := c.world.shuffled agenda entries }

theorem moves_step (opened : Moment) (c : Cluster C) (operation : Operation C) :
    c.Moves opened operation (c.step opened operation) := by
  cases operation with
  | get p kind id =>
    obtain ⟨found, world, hload⟩ :=
      Runs.total ((p.repository opened).get (C.routes kind).lift id).run c.world
    simp only [step, hload.run_eq]
    exact .loaded hload rfl
  | newEntity p kind id => exact .made rfl
  | getChild p kind parent id =>
    simp only [step]
    cases c.slots[parent]? with
    | none => exact .idle
    | some s =>
      obtain ⟨parentKind, e⟩ := s
      obtain ⟨found, world, hload⟩ := Runs.total ((p.repository opened).getChild
        (C.routes kind).lift (C.routes parentKind).lift e id).run c.world
      simp only [hload.run_eq]
      exact .loaded hload rfl
  | newChild p kind parent id =>
    simp only [step]
    cases c.slots[parent]? with
    | none => exact .idle
    | some s => exact .made rfl
  | apply slot move => exact .applied
  | raise slot move channel transient daysToLive => exact .raised
  | commit p slot commitId headers =>
    simp only [step]
    cases hslot : c.slots[slot]? with
    | none => exact .idle
    | some s =>
      obtain ⟨kind, e⟩ := s
      obtain ⟨⟨r, e'⟩, world, hcommit⟩ := Runs.total
        ((p.repository opened).commit (C.routes kind).lift e commitId headers) c.world
      simp only [hcommit.run_eq]
      exact .committed hslot hcommit
  | runDue p =>
    obtain ⟨count, world, hdue⟩ := Runs.total (p.worker opened).runDue c.world
    simp only [step, hdue.run_eq]
    exact .handled hdue
  | freeze p slot =>
    simp only [step]
    cases c.slots[slot]? with
    | none => exact .idle
    | some s =>
      obtain ⟨r, world, hfreeze⟩ :=
        Runs.total ((p.node.store (World.site opened)).freeze s.entity.timeline) c.world
      simp only [hfreeze.run_eq]
      exact .frozen hfreeze
  | unfreeze p slot =>
    simp only [step]
    cases c.slots[slot]? with
    | none => exact .idle
    | some s =>
      obtain ⟨r, world, hunfreeze⟩ :=
        Runs.total ((p.node.store (World.site opened)).unfreeze s.entity.timeline) c.world
      simp only [hunfreeze.run_eq]
      exact .released hunfreeze
  | advance span => exact .advanced
  | setWall time => exact .set
  | shuffle agenda entries => exact .shuffled

/-- The world is consistent, and every entity in use fits its log. -/
structure Steady (c : Cluster C) : Prop where
  consistent : c.world.Consistent
  rooted : ∀ s ∈ c.slots, s.entity.timeline.Rooted c.world.log

/-- From one steady cluster to a later one, with the receipts in between. -/
structure Leads (c c' : Cluster C) (rs : List Receipt) : Prop where
  receipts : c'.receipts = c.receipts ++ rs
  books : c.world.Books c'.world rs
  steady : c'.Steady

theorem steady_start (wall : Moment) : (start wall : Cluster C).Steady where
  consistent := .start wall
  rooted := by simp [start]

/-- What is in the slots after one of them was filled with an entity that fits the log. -/
private theorem mem_set (slot : Nat) {kind : C.Kind} {e : Entity (C.State kind)} {log : EventLog}
    (he : e.timeline.Rooted log) :
    ∀ s ∈ c.slots.set slot ⟨kind, e⟩, s ∈ c.slots ∨ s.entity.timeline.Rooted log := by
  intro s hs
  rcases List.mem_or_eq_of_mem_set hs with hold | rfl
  · exact .inl hold
  · exact .inr he

namespace Leads

theorem refl (h : c.Steady) : c.Leads c [] where
  receipts := by simp
  books := .idle h.consistent (.refl _)
  steady := h

theorem trans (h : c.Leads c' rs) (h' : c'.Leads c'' ss) : c.Leads c'' (rs ++ ss) where
  receipts := by rw [h'.receipts, h.receipts, List.append_assoc]
  books := h.books.trans h'.books
  steady := h'.steady

/-- An operation leaves the slots alone, or puts an entity into one that fits the log. -/
theorem of_slots (h : c.Steady) (hb : c.world.Books world rs) {slots : List (LiveEntity C)}
    (hs : ∀ s ∈ slots, s ∈ c.slots ∨ s.entity.timeline.Rooted world.log) :
    c.Leads ⟨world, slots, c.receipts ++ rs⟩ rs where
  receipts := rfl
  books := hb
  steady := {
    consistent := hb.consistent
    rooted := fun s hmem => (hs s hmem).elim
      (fun hold => hb.rooted h.consistent (h.rooted s hold)) id }

theorem silent (h : c.Steady) (hb : c.world.Books world []) {slots : List (LiveEntity C)}
    (hs : ∀ s ∈ slots, s ∈ c.slots ∨ s.entity.timeline.Rooted world.log) :
    c.Leads { c with world, slots } [] := by
  have hleads := of_slots h hb hs
  rwa [List.append_nil] at hleads

/-- A step that changes nothing but the clock or what is known about the streams. -/
theorem of_idle (h : c.Steady) (hi : c.world.Idle world) : c.Leads { c with world } [] :=
  silent h (.idle h.consistent hi) fun _ hmem => .inl hmem

theorem keep {ε : Type} {kind : C.Kind} {found : Except ε (Entity (C.State kind))} (h : c.Steady)
    (hb : c.world.Books world []) (hf : ∀ e, found = .ok e → e.timeline.Rooted world.log) :
    c.Leads (c.keep kind found world) [] := by
  cases found with
  | error err => exact silent h hb fun _ hmem => .inl hmem
  | ok e =>
    refine silent h hb fun s hs => ?_
    rcases List.mem_append.1 hs with hold | hnew
    · exact .inl hold
    · rw [List.mem_singleton.1 hnew]
      exact .inr (hf e rfl)

theorem record (h : c.Steady) (slot : Nat)
    {f : (kind : C.Kind) → Entity (C.State kind) → Stamp →
      Except RouteError (Entity (C.State kind))}
    (hf : ∀ kind e stamp e', f kind e stamp = .ok e' → e.timeline.Continues e'.timeline) :
    c.Leads (c.record slot f) [] := by
  unfold Cluster.record
  cases hslot : c.slots[slot]? with
  | none => exact refl h
  | some s =>
    obtain ⟨kind, e⟩ := s
    obtain ⟨stamp, world, hstamp⟩ := Runs.total (World.surroundings World.cell).stamp c.world
    obtain ⟨i, rfl⟩ := World.runs_stamp hstamp
    have hidle := World.Idle.issued c.world i
    simp only [hstamp.run_eq]
    cases he : f kind e stamp with
    | error err => exact of_idle h hidle
    | ok e' =>
      have hb := World.Books.idle h.consistent hidle
      have hrooted := hb.rooted h.consistent (h.rooted _ (List.mem_of_getElem? hslot))
      exact silent h hb (mem_set slot (hrooted.continues (hf kind e stamp e' he)))

end Leads

private theorem keep_loaded (h : c.Steady) {n : Node} {kind : C.Kind} {stream : StreamRef}
    {found : Except LoadError (Entity (C.State kind))}
    (hl : Runs (loadEntity (n.store (World.site opened)) (C.routes kind).lift stream).run c.world
      found world) : c.Leads (c.keep kind found world) [] := by
  obtain ⟨rfl, rfl⟩ := World.runs_loadEntity.1 hl
  have hviewed := World.Passes.viewed h.consistent n.cache stream sharedArea ""
  exact .keep h (.silent hviewed) fun e he =>
    hviewed.rooted h.consistent (h.consistent.loaded he).2.2.1

private theorem keep_made (h : c.Steady) {kind : C.Kind} {stream : StreamRef} :
    c.Leads (c.keep kind (Entity.ofTimeline
      ((C.routes kind).lift : Routes (StateM World) (C.State kind)) (.empty stream)) c.world) [] :=
  .keep h (.idle h.consistent (.refl _)) fun e he => by
    rw [Entity.timeline_ofTimeline he]
    exact .empty h.consistent.numbered stream

/-- Each operation is accounted for by the receipts that it leaves. -/
theorem Moves.leads {operation : Operation C} (hm : c.Moves opened operation c') (h : c.Steady) :
    ∃ rs, c.Leads c' rs := by
  cases hm with
  | idle => exact ⟨[], .refl h⟩
  | loaded hload => exact ⟨[], keep_loaded h hload⟩
  | made => exact ⟨[], keep_made h⟩
  | applied => exact ⟨[], .record h _ fun _ _ _ _ he => .of_apply he⟩
  | raised => exact ⟨[], .record h _ fun _ _ _ _ he => .of_raise he⟩
  | committed hslot hcommit =>
    have hrooted := h.rooted _ (List.mem_of_getElem? hslot)
    obtain ⟨he', hpass⟩ := (World.committed_of_runs hcommit).passes h.consistent hrooted
    exact ⟨_, .of_slots h (.single hpass Node.lane_of_declined_commit) (mem_set _ he')⟩
  | handled hdue =>
    exact ⟨_, .of_slots h (Participant.books_runDue h.consistent hdue) fun _ hmem => .inl hmem⟩
  | frozen hfreeze =>
    obtain ⟨data, rfl⟩ := World.runs_freeze hfreeze
    exact ⟨[], .of_idle h (.annotated ..)⟩
  | released hunfreeze =>
    obtain ⟨-, data, rfl⟩ := World.runs_unfreeze hunfreeze
    exact ⟨[], .of_idle h (.annotated ..)⟩
  | advanced => exact ⟨[], .of_idle h ⟨rfl, rfl, rfl⟩⟩
  | set => exact ⟨[], .of_idle h ⟨rfl, rfl, rfl⟩⟩
  | shuffled => exact ⟨[], .of_idle h (.shuffled ..)⟩

/-- Whatever the operations, what they leave of a cluster is accounted for by their receipts. -/
theorem leads_run (opened : Moment) (h : c.Steady) (operations : List (Operation C)) :
    ∃ rs, c.Leads (c.run opened operations) rs := by
  induction operations generalizing c with
  | nil => exact ⟨[], .refl h⟩
  | cons operation rest ih =>
    obtain ⟨rs, hfirst⟩ := (moves_step opened c operation).leads h
    obtain ⟨ss, hrest⟩ := ih hfirst.steady
    exact ⟨rs ++ ss, hfirst.trans hrest⟩

/-- Every event of an accepted commit is in the log, staged, or was dropped, and each of these once:
the domain events under their domain key, and the out-of-band events in the whole of the log and
the staging area. A conflict route drops none of the latter. -/
theorem balanced (opened wall : Moment) (operations : List (Operation C)) :
    let c := (start wall : Cluster C).run opened operations
    (∀ (stream : StreamRef) (kind : String) (payload : Json),
      let key := stream.key .domain
      let count := occurrences (.domain, kind, payload)
      count (c.world.log.events key) + count (stagedEvents (c.world.queue sharedArea key)) +
          count (Receipt.droppedFrom key c.receipts) =
        count (Receipt.submittedTo key c.receipts)) ∧
    ∀ (kind : String) (payload : Json),
      let count := occurrences (.oob, kind, payload)
      count c.world.log.all + count (c.world.area sharedArea).all +
          count (c.receipts.flatMap Receipt.refused) =
        count (c.receipts.flatMap Receipt.submitted) := by
  intro c
  obtain ⟨rs, hleads⟩ := leads_run opened (steady_start (C := C) wall) operations
  have hreceipts : c.receipts = rs := hleads.receipts
  rw [hreceipts]
  constructor
  · intro stream kind payload
    have h := hleads.books.domain stream (.domain, kind, payload) rfl
    rw [start, World.held_start, Nat.zero_add] at h
    exact h
  · intro kind payload
    have h := hleads.books.oobs (.oob, kind, payload) rfl
    rw [start, World.heldAll_start, Nat.zero_add] at h
    exact h

def tallies : Catalog where
  Kind := Unit
  State _ := Samples.Tally
  routes _ := Samples.Tally.routes fun _ => ()

def teller (i : Nat) : Participant tallies where
  owner := .numbered i
  bucket := "default"
  settings := { ConflictSettings.standard with strategy := .resolveWeakly }
  cache := i
  agenda := i
  registered := [()]

def stepBy (slot n : Nat) : Operation tallies :=
  .apply slot fun _ => Samples.Step.type.move ⟨n⟩ Samples.Tally.step

def tallyStream : StreamRef := ⟨"tally", "default", "t-1", []⟩

/-- A step of two is stored, and steps of three and of zero that know nothing of it are staged
and merged a minute later. -/
def lateSteps : List (Operation tallies) :=
  [.newEntity (teller 0) () "t-1", .newEntity (teller 1) () "t-1", stepBy 0 2,
    .commit (teller 0) 0 (.numbered 100) ∅, stepBy 1 3, stepBy 1 0,
    .commit (teller 1) 1 (.numbered 101) ∅, .advance (.ofSeconds 60), .runDue (teller 1)]

/-- The step of zero was dropped by its conflict route. -/
example :
    let c := (start .epoch).run .epoch lateSteps
    let key := tallyStream.key .domain
    (c.world.log.events key).length = 2 ∧ stagedEvents (c.world.queue sharedArea key) = [] ∧
      (Receipt.droppedFrom key c.receipts).length = 1 ∧
      (Receipt.submittedTo key c.receipts).length = 3 := by
  decide +kernel

end Cluster

end Chronicle
