import Chronicle.Proofs.Reload
import Chronicle.Proofs.Serving

/-!
# Clients that resolve conflicts strongly

Any number of clients share one log. All of them have their conflicts resolved at once, what they
record can be merged or discarded, and nobody freezes a stream by hand. Then no commit ever fails,
and each domain stream is what the commits submitted, one commit after the other, but for the
events that conflict routes declined.
-/

namespace Chronicle

variable {C : Catalog} {kindOf : String → C.Kind}

def Operation.Strong : Operation C → Prop
  | .apply _ move => ∀ kind payload, (move kind).payload = .ok payload →
      (C.routes kind).Mergeable (move kind).kind payload
  | .commit p _ _ _ => p.settings.strategy = .resolveStrongly
  | .freeze _ _ => False
  | .setWall time => time.Legible
  | _ => True

namespace World

variable {n : Node} {opened : Moment} {w w' : World} {S : Type}

protected theorem Readable.restaged (h : w.Readable kindOf) (area : Nat) (key : String) :
    (w.restaged area key []).Readable kindOf where
  recorded := h.recorded
  readable := h.readable
  restorable := h.restorable
  cached := h.cached
  unstaged := by
    intro other k
    by_cases ha : other = area
    · subst ha
      by_cases hk : k = key
      · rw [hk, queue_restaged]
      · rw [queue_restaged_of_ne w other hk]
        exact h.unstaged other k
    · rw [queue, area_restaged, if_neg ha]
      exact h.unstaged other k

theorem Serves.handleStaged (h : w.Serves kindOf) {routes : Routes Id S} {stream : StreamRef}
    {r : Except ResolveError Resolution}
    (hrun : Runs ((n.weak (site opened)).handleStaged routes.lift stream) w r w') :
    w'.Serves kindOf ∧ w'.log = w.log := by
  have hviewed := h.toReadable.viewed n.cache stream
  suffices hsuff : w'.Readable kindOf ∧ w'.log = w.log ∧ w'.wall = w.wall by
    obtain ⟨hreadable, hlog, hwall⟩ := hsuff
    exact ⟨⟨hreadable, h.unfrozen.congr (by rw [hlog]), hwall ▸ h.wall⟩, hlog⟩
  rcases runs_handleStaged hrun with ⟨err, -, -, ⟨-, rfl⟩ | hschedule⟩ |
    ⟨e, i, commitId, e', -, hresolve⟩
  · exact ⟨hviewed, log_viewed .., wall_viewed ..⟩
  · obtain rfl := runs_schedule hschedule
    exact ⟨hviewed.idle ⟨rfl, rfl, rfl⟩, log_viewed .., wall_viewed ..⟩
  · have hissued := hviewed.idle (.issued _ i)
    obtain ⟨waiting, pulled, w₄, w₅, hsize, hpull, hcourse⟩ :=
      WeakResolver.course_of_resolveStaged (granting_weak n opened) hresolve
    obtain ⟨-, rfl⟩ := runs_size.1 hsize
    obtain ⟨count, hpulled, rfl, -⟩ := runs_pull hpull
    rw [hissued.unstaged, List.take_nil, Except.ok.injEq] at hpulled
    subst hpulled
    have hrestaged := hissued.restaged n.area (e.timeline.key .domain)
    rw [hissued.unstaged, List.drop_nil] at hcourse
    cases hcourse with
    | empty => exact ⟨hrestaged, log_viewed .., wall_viewed ..⟩
    | together hevents => exact absurd rfl hevents
    | alone _ _ hcurrent => exact absurd rfl hcurrent
    | refused _ hcurrent => exact absurd rfl hcurrent
    | returned hpulled => exact absurd rfl hpulled

end World

namespace Participant

variable {p : Participant C} {opened : Moment} {w w' : World} {stream : StreamRef}

theorem serves_handle (h : w.Serves kindOf) {r : Except ResolveError Resolution}
    (hrun : Runs ((p.worker opened).handle stream) w r w') : w'.Serves kindOf ∧ w'.log = w.log := by
  rcases runs_handle hrun with ⟨-, rfl⟩ | ⟨kind, -, hhandled⟩
  · exact ⟨h, rfl⟩
  · exact h.handleStaged hhandled

theorem serves_handleAll {streams : List StreamRef} {a : Unit} (h : w.Serves kindOf)
    (hrun : Runs ((p.worker opened).handleAll streams) w a w') :
    w'.Serves kindOf ∧ w'.log = w.log := by
  induction streams generalizing w with
  | nil =>
    obtain ⟨-, rfl⟩ := runs_pure.1 hrun
    exact ⟨h, rfl⟩
  | cons stream rest ih =>
    obtain ⟨r, w₁, hfirst, hrest⟩ := runs_handleAll_cons hrun
    obtain ⟨hserves, hlog⟩ := serves_handle h hfirst
    obtain ⟨hserves', hlog'⟩ := ih hserves hrest
    exact ⟨hserves', hlog'.trans hlog⟩

theorem serves_runDue {count : Nat} (h : w.Serves kindOf)
    (hrun : Runs (p.worker opened).runDue w count w') : w'.Serves kindOf ∧ w'.log = w.log := by
  have hserves : (w.cleared p.agenda).Serves kindOf :=
    ⟨h.toReadable.idle (.cleared ..), h.unfrozen, h.wall⟩
  have hend := serves_handleAll hserves (runs_runDue hrun)
  exact hend

theorem storedUnder_handleReceipts (key : String) (streams : List StreamRef) (w : World) :
    Receipt.storedUnder key (p.handleReceipts opened streams w) = [] := by
  induction streams generalizing w with
  | nil => rfl
  | cons stream rest ih =>
    simp only [handleReceipts]
    cases p.kind? stream.entity with
    | none => exact ih _
    | some kind =>
      dsimp only
      rw [← List.singleton_append, Receipt.storedUnder_append, ih]
      simp [Receipt.storedUnder, Receipt.stored, Node.handleReceipt]

end Participant

namespace Cluster

variable {c : Cluster C} {opened : Moment} {world : World}

/-- Each entity in use is of the kind that its key belongs to. -/
def Sorted (kindOf : String → C.Kind) (c : Cluster C) : Prop :=
  ∀ s ∈ c.slots, kindOf (s.entity.timeline.key .domain) = s.kind

/-- Every commit can succeed, and each domain stream is what the receipts say was stored there. -/
structure Serial (kindOf : String → C.Kind) (c : Cluster C) : Prop where
  serves : c.world.Serves kindOf
  ready : ∀ s ∈ c.slots, s.entity.Ready (C.routes s.kind)
  stored : ∀ stream : StreamRef, (c.world.log.events (stream.key .domain)).map Event.content =
    (Receipt.storedUnder (stream.key .domain) c.receipts).map Event.content

namespace Serial

theorem quiet (h : c.Serial kindOf) (hserves : world.Serves kindOf)
    (hstreams : world.log.streams = c.world.log.streams) {slots : List (LiveEntity C)}
    (hready : ∀ s ∈ slots, s ∈ c.slots ∨ s.entity.Ready (C.routes s.kind))
    {rs : List Receipt} (hrs : ∀ key, Receipt.storedUnder key rs = []) :
    Serial kindOf (⟨world, slots, c.receipts ++ rs⟩ : Cluster C) where
  serves := hserves
  ready s hs := (hready s hs).elim (h.ready s) id
  stored := by
    intro stream
    rw [EventLog.events_congr hstreams, Receipt.storedUnder_append, hrs, List.append_nil]
    exact h.stored stream

theorem silent (h : c.Serial kindOf) (hserves : world.Serves kindOf)
    (hstreams : world.log.streams = c.world.log.streams) {slots : List (LiveEntity C)}
    (hready : ∀ s ∈ slots, s ∈ c.slots ∨ s.entity.Ready (C.routes s.kind)) :
    Serial kindOf { c with world, slots } := by
  have hquiet : Serial kindOf (⟨world, slots, c.receipts ++ []⟩ : Cluster C) :=
    h.quiet hserves hstreams hready fun _ => rfl
  rwa [List.append_nil] at hquiet

theorem keep {ε : Type} {kind : C.Kind} {found : Except ε (Entity (C.State kind))}
    (h : c.Serial kindOf) (hserves : world.Serves kindOf)
    (hstreams : world.log.streams = c.world.log.streams)
    (hfound : ∀ e, found = .ok e → e.Ready (C.routes kind)) :
    (c.keep kind found world).Serial kindOf := by
  cases found with
  | error err => exact h.silent hserves hstreams fun _ hs => .inl hs
  | ok e =>
    refine h.silent hserves hstreams fun s hs => ?_
    rcases List.mem_append.1 hs with hold | hnew
    · exact .inl hold
    · rw [List.mem_singleton.1 hnew]
      exact .inr (hfound e rfl)

theorem record (h : c.Serial kindOf) (slot : Nat)
    {f : (kind : C.Kind) → Entity (C.State kind) → Stamp →
      Except RouteError (Entity (C.State kind))}
    (hf : ∀ kind e stamp e', f kind e stamp = .ok e' → e.Ready (C.routes kind) →
      e'.Ready (C.routes kind)) : (c.record slot f).Serial kindOf := by
  unfold Cluster.record
  cases hslot : c.slots[slot]? with
  | none => exact h
  | some s =>
    obtain ⟨kind, e⟩ := s
    obtain ⟨stamp, world, hstamp⟩ := Runs.total (World.surroundings World.cell).stamp c.world
    obtain ⟨i, rfl⟩ := World.runs_stamp hstamp
    have hserves : (c.world.logged i c.world.log).Serves kindOf :=
      ⟨h.serves.toReadable.idle (.issued _ i), h.serves.unfrozen, h.serves.wall⟩
    simp only [hstamp.run_eq]
    cases he : f kind e stamp with
    | error err => exact h.silent hserves rfl fun _ hs => .inl hs
    | ok e' =>
      refine h.silent hserves rfl fun s hs => ?_
      rcases List.mem_or_eq_of_mem_set hs with hold | rfl
      · exact .inl hold
      · exact .inr (hf kind e stamp e' he (h.ready _ (List.mem_of_getElem? hslot)))

private theorem loaded (h : c.Serial kindOf) (hsteady : c.Steady) {n : Node} {kind : C.Kind}
    {stream : StreamRef} {found : Except LoadError (Entity (C.State kind))}
    (hl : Runs (loadEntity (n.store (World.site opened)) (C.routes kind).lift stream).run c.world
      found world) (hsorted : (c.keep kind found world).Sorted kindOf) :
    (c.keep kind found world).Serial kindOf := by
  obtain ⟨rfl, rfl⟩ := World.runs_loadEntity.1 hl
  refine h.keep ⟨h.serves.toReadable.viewed .., h.serves.unfrozen.congr (by rw [World.log_viewed]),
    by rw [World.wall_viewed]; exact h.serves.wall⟩ (by rw [World.log_viewed]) fun e he => ?_
  obtain ⟨hview, hkey, -, hclean⟩ := hsteady.consistent.loaded he
  obtain ⟨hpending, -, hunstaged⟩ := Timeline.dirty_eq_false.1 hclean
  have hkind : kindOf (e.timeline.key .domain) = kind :=
    hsorted ⟨kind, e⟩ (by simp [Cluster.keep, he])
  rw [hkey] at hkind
  exact ⟨by simp [hpending], hunstaged, fun s hs => hkind ▸ h.serves.view hview s hs⟩

private theorem made (h : c.Serial kindOf) {kind : C.Kind} {stream : StreamRef} :
    (c.keep kind (Entity.ofTimeline ((C.routes kind).lift : Routes (StateM World) (C.State kind))
      (.empty stream)) c.world).Serial kindOf :=
  h.keep h.serves rfl fun e he => by
    have ht := Entity.timeline_ofTimeline he
    exact ⟨by simp [ht, Timeline.empty, Timeline.ofHistory], by rw [ht]; rfl,
      by simp [ht, Timeline.empty, Timeline.ofHistory]⟩

private theorem committed (h : c.Serial kindOf) (hsteady : c.Steady) {p : Participant C}
    {slot : Nat} {kind : C.Kind} {e e' : Entity (C.State kind)} {commitId : Uuid}
    {headers : Headers} {r : Except CommitError CommitOutcome}
    (hslot : c.slots[slot]? = some ⟨kind, e⟩) (hkind : kindOf (e.timeline.key .domain) = kind)
    (hrecords : (C.routes kind).Records) (hstrategy : p.settings.strategy = .resolveStrongly)
    (hv : c.world.log.version (e.timeline.key .domain) ≤ 0x7fffffffffffffff)
    (hcommit : Runs ((p.repository opened).commit (C.routes kind).lift e commitId headers) c.world
      (r, e') world) :
    (∃ outcome, r = .ok outcome) ∧ Serial kindOf { c with
      world
      slots := c.slots.set slot ⟨kind, e'⟩
      receipts := c.receipts ++ [p.node.commitReceipt (C.routes kind) e c.world world r] } := by
  have hmem := List.mem_of_getElem? hslot
  obtain ⟨hok, hserves, hready, -, hadds⟩ := h.serves.commit hsteady.consistent
    (hsteady.rooted _ hmem) (h.ready _ hmem) hkind hrecords hstrategy hv
    (World.committed_of_runs hcommit)
  refine ⟨hok, hserves, fun s hs => ?_, fun stream => ?_⟩
  · rcases List.mem_or_eq_of_mem_set hs with hold | rfl
    · exact h.ready s hold
    · exact hready
  · rw [Receipt.storedUnder_append, List.map_append, ← h.stored stream]
    by_cases hk : e.timeline.key .domain = stream.key .domain
    · rw [← hk, hadds.here]
      simp [Receipt.storedUnder, Node.commitReceipt]
    · rw [hadds.elsewhere stream (Ne.symm hk)]
      simp [Receipt.storedUnder, Node.commitReceipt, hk]

end Serial

theorem Moves.serial {c' : Cluster C} {operation : Operation C}
    (hm : c.Moves opened operation c') (h : c.Serial kindOf) (hsteady : c.Steady)
    (hrecords : ∀ kind, (C.routes kind).Records) (hstrong : operation.Strong)
    (hsorted : c.Sorted kindOf) (hsorted' : c'.Sorted kindOf)
    (hv : ∀ key, c.world.log.version key ≤ 0x7fffffffffffffff) : c'.Serial kindOf := by
  cases hm with
  | idle => exact h
  | loaded hload => exact h.loaded hsteady hload hsorted'
  | made => exact h.made
  | @applied slot move =>
    refine h.record slot fun kind e stamp e' he hready => ?_
    obtain ⟨payload, hpayload, rfl⟩ := Entity.apply_eq_ok he
    refine ⟨fun event hevent => ?_, hready.unstaged, hready.snapshot⟩
    rcases List.mem_append.1 hevent with hold | hnew
    · exact hready.pending event hold
    · rw [List.mem_singleton.1 hnew]
      exact hstrong kind payload hpayload
  | @raised slot =>
    refine h.record slot fun kind e stamp e' he hready => ?_
    obtain ⟨payload, headers, rfl⟩ := Entity.raise_eq_ok he
    exact ⟨hready.pending, hready.unstaged, hready.snapshot⟩
  | @committed _ _ _ _ kind e _ _ _ hslot hcommit =>
    have hkind : kindOf (e.timeline.key .domain) = kind :=
      hsorted ⟨kind, e⟩ (List.mem_of_getElem? hslot)
    -- Only here do the log and the receipts grow, and they grow by the same events.
    exact (h.committed hsteady hslot hkind (hrecords kind) hstrong (hv _) hcommit).2
  | handled hdue =>
    -- Nothing is ever staged, so that a worker finds nothing to merge.
    obtain ⟨hserves, hlog⟩ := Participant.serves_runDue h.serves hdue
    exact h.quiet hserves (by rw [hlog]) (fun _ hs => .inl hs)
      fun key => Participant.storedUnder_handleReceipts ..
  | frozen => exact hstrong.elim
  | released hunfreeze =>
    obtain ⟨-, data, rfl, hfrozen⟩ := World.runs_unfreeze_of_owner
      (by simp [h.serves.unfrozen _]) hunfreeze
    have hserves : (c.world.annotated data).Serves kindOf := by
      refine ⟨h.serves.toReadable.idle (.annotated ..), fun key => ?_, h.serves.wall⟩
      rw [hfrozen, h.serves.unfrozen, ite_self]
    exact h.silent hserves rfl fun _ hs => .inl hs
  | @advanced span =>
    have hserves : (c.world.advance span).Serves kindOf :=
      ⟨h.serves.toReadable.idle ⟨rfl, rfl, rfl⟩, h.serves.unfrozen, h.serves.wall⟩
    exact h.silent hserves rfl fun _ hs => .inl hs
  | @set time =>
    have hserves : ({ c.world with wall := time } : World).Serves kindOf :=
      ⟨h.serves.toReadable.idle ⟨rfl, rfl, rfl⟩, h.serves.unfrozen, hstrong⟩
    exact h.silent hserves rfl fun _ hs => .inl hs
  | @shuffled agenda entries =>
    have hserves : (c.world.shuffled agenda entries).Serves kindOf :=
      ⟨h.serves.toReadable.idle (.shuffled ..), h.serves.unfrozen, h.serves.wall⟩
    exact h.silent hserves rfl fun _ hs => .inl hs

theorem version_le_run (opened : Moment) (h : c.Steady) (operations : List (Operation C))
    (key : String) : c.world.log.version key ≤ (c.run opened operations).world.log.version key := by
  obtain ⟨rs, hleads⟩ := leads_run opened h operations
  exact h.consistent.numbered.version_le hleads.steady.consistent.numbered (hleads.books.grows key)

/-- Whatever clients do, every commit goes on being successful. -/
theorem serial_run (opened : Moment) (h : c.Serial kindOf) (hsteady : c.Steady)
    (hrecords : ∀ kind, (C.routes kind).Records) {operations : List (Operation C)}
    (hstrong : ∀ operation ∈ operations, operation.Strong)
    (hsorted : ∀ pre, pre <+: operations → (c.run opened pre).Sorted kindOf)
    (hv : ∀ key, (c.run opened operations).world.log.version key ≤ 0x7fffffffffffffff) :
    (c.run opened operations).Serial kindOf := by
  induction operations generalizing c with
  | nil => exact h
  | cons operation rest ih =>
    have hmoves := moves_step opened c operation
    obtain ⟨rs, hleads⟩ := hmoves.leads hsteady
    have hbound : ∀ key, c.world.log.version key ≤ 0x7fffffffffffffff := fun key =>
      Int.le_trans (version_le_run opened hsteady (operation :: rest) key) (hv key)
    have hfirst := hmoves.serial h hsteady hrecords (hstrong _ (List.mem_cons_self ..))
      (hsorted [] (List.nil_prefix ..)) (hsorted [operation] ⟨rest, rfl⟩) hbound
    exact ih hfirst hleads.steady
      (fun other hother => hstrong other (List.mem_cons_of_mem _ hother))
      (fun pre hpre => hsorted (operation :: pre) (List.cons_prefix_cons.2 ⟨rfl, hpre⟩)) hv

/-- A cluster in which nothing has happened, but that metadata may have been written. -/
def annotated (wall : Moment) (data : Std.ExtTreeMap String (Int × StreamMetadata)) : Cluster C :=
  ⟨(World.start wall).annotated data, [], []⟩

variable {wall : Moment} {data : Std.ExtTreeMap String (Int × StreamMetadata)}

theorem steady_annotated : (annotated wall data : Cluster C).Steady where
  consistent := (World.Consistent.start wall).idle (.annotated ..)
  rooted := by simp [annotated]

theorem serial_annotated (hwall : wall.Legible)
    (hfree : ((World.start wall).annotated data).Unfrozen) :
    (annotated wall data : Cluster C).Serial kindOf where
  serves := ⟨(World.Readable.start wall).idle (.annotated ..), hfree, hwall⟩
  ready := by simp [annotated]
  stored := by
    simp [annotated, World.start, World.annotated, EventLog.events, EventLog.empty,
      Receipt.storedUnder]

/-- Strong resolution serializes all clients: every commit succeeds, no stream stays frozen, and
each domain stream is what the commits submitted in their order, but for what was declined. -/
theorem serializes (opened : Moment) {operations : List (Operation C)} (hwall : wall.Legible)
    (hfree : ((World.start wall).annotated data).Unfrozen)
    (hrecords : ∀ kind, (C.routes kind).Records)
    (hstrong : ∀ operation ∈ operations, operation.Strong)
    (hsorted : ∀ pre, pre <+: operations → ((annotated wall data).run opened pre).Sorted kindOf)
    (hv : ∀ key, ((annotated wall data : Cluster C).run opened operations).world.log.version key ≤
      0x7fffffffffffffff) :
    let c := (annotated wall data : Cluster C).run opened operations
    (∀ pre (p : Participant C) slot commitId headers,
      pre ++ [.commit p slot commitId headers] <+: operations →
        ∀ s, ((annotated wall data).run opened pre).slots[slot]? = some s → ∃ outcome e' w',
          Runs ((p.repository opened).commit (C.routes s.kind).lift s.entity commitId headers)
            ((annotated wall data).run opened pre).world (.ok outcome, e') w') ∧
    c.world.Unfrozen ∧
    ∀ stream : StreamRef, (c.world.log.events (stream.key .domain)).map Event.content =
      (Receipt.storedUnder (stream.key .domain) c.receipts).map Event.content := by
  intro c
  have hend := serial_run opened (serial_annotated hwall hfree) steady_annotated hrecords hstrong
    hsorted hv
  refine ⟨?_, hend.serves.unfrozen, hend.stored⟩
  rintro pre p slot commitId headers ⟨rest, hrest⟩ ⟨kind, e⟩ hslot
  rw [List.append_assoc] at hrest
  have hsteady : (annotated wall data : Cluster C).Steady := steady_annotated
  obtain ⟨rs, hleads⟩ := leads_run opened hsteady pre
  have hbound : ∀ key, ((annotated wall data).run opened pre).world.log.version key ≤
      0x7fffffffffffffff := by
    intro key
    have hlater :=
      version_le_run opened hleads.steady ([.commit p slot commitId headers] ++ rest) key
    rw [run, run, ← List.foldl_append, hrest] at hlater
    exact Int.le_trans hlater (hv key)
  have hpre : pre <+: operations := ⟨_, hrest⟩
  have hserial := serial_run opened (serial_annotated hwall hfree) steady_annotated hrecords
    (fun operation hop => hstrong operation (hpre.subset hop))
    (fun pre' hpre' => hsorted pre' (hpre'.trans hpre)) hbound
  have hstrategy : (Operation.commit p slot commitId headers).Strong :=
    hstrong _ (by rw [← hrest]; simp)
  obtain ⟨⟨r, e'⟩, w', hcommit⟩ := Runs.total ((p.repository opened).commit (C.routes kind).lift e
    commitId headers) ((annotated wall data).run opened pre).world
  obtain ⟨⟨outcome, rfl⟩, -⟩ := hserial.committed hleads.steady hslot
    (hsorted pre hpre ⟨kind, e⟩ (List.mem_of_getElem? hslot)) (hrecords kind) hstrategy (hbound _)
    hcommit
  exact ⟨outcome, e', w', hcommit⟩

def mergeAddend (n : Int) : ConflictRoute Id Int := fun s =>
  if n = 0 then Samples.discarded s else Samples.merged (s + n)

theorem mergeAddend_spec (n s s' : Int) :
    (Id.run (mergeAddend n s) = (.ok (), s') → s' = s + n) ∧
      (Id.run (mergeAddend n s) = (.error .discard, s') → s' = s) := by
  unfold mergeAddend
  split
  · exact ⟨nofun, by rintro ⟨⟩; rfl⟩
  · exact ⟨by rintro ⟨⟩; rfl, nofun⟩

def tillRoutes : Routes Id Int :=
  Routes.new "sum" 0
    |>.handle World.addend (fun n s => s + n)
    |>.conflict World.addend mergeAddend
    |>.withSnapshots .always World.addend.encode World.addend.decode

def sums : Catalog := ⟨Unit, fun _ => Int, fun _ => tillRoutes⟩

/-- A participant with a cache of its own that freezes a stream for every merge. -/
def till (i : Nat) : Participant sums where
  owner := .numbered i
  bucket := "default"
  settings :=
    { ConflictSettings.standard with strategy := .resolveStrongly, freezeThreshold := 0 }
  cache := i
  agenda := i
  registered := [()]

def enter (slot : Nat) (n : Int) : Operation sums :=
  .apply slot fun _ => World.addend.move n fun n (s : Int) => s + n

def lateEntries : List (Operation sums) :=
  [.newEntity (till 0) () "s-1", .newEntity (till 1) () "s-1", enter 0 2,
    .commit (till 0) 0 (.numbered 100) ∅, enter 1 3, enter 1 0, enter 1 4,
    .commit (till 1) 1 (.numbered 101) ∅]

theorem mergeable_addend {routes : Routes Id Int}
    (hmerge : routes.conflicts[World.addend.kind]? =
      some fun v => (World.addend.decode v).map mergeAddend)
    (hhandle : routes.handlers[World.addend.kind]? =
      some fun v => (World.addend.decode v).map fun n s => s + n) (n : Int) :
    routes.Mergeable World.addend.kind (.int n) where
  merges := by
    refine ⟨_, mergeAddend n, hmerge, rfl, fun s => ?_⟩
    unfold mergeAddend
    by_cases hn : n = 0
    · rw [if_pos hn]
      exact .inr rfl
    · rw [if_neg hn]
      exact .inl rfl
  reads := by
    intro route hroute
    cases hhandle.symm.trans hroute
    exact ⟨_, rfl⟩

theorem records_tillRoutes : tillRoutes.Records := by
  rintro snapshots ⟨⟩ s
  exact ⟨.int s, s, rfl, rfl⟩

theorem strong_enter (slot : Nat) (n : Int) : (enter slot n).Strong := by
  rintro kind payload ⟨⟩
  exact mergeable_addend Std.ExtTreeMap.getElem?_insert_self Std.ExtTreeMap.getElem?_insert_self n

theorem strong_lateEntries : ∀ operation ∈ lateEntries, operation.Strong := by
  simp only [lateEntries, List.forall_mem_cons]
  exact ⟨trivial, trivial, strong_enter 0 2, rfl, strong_enter 1 3, strong_enter 1 0,
    strong_enter 1 4, rfl, by simp⟩

def sumStream : StreamRef := ⟨"sum", "default", "s-1", []⟩

/-- The zero is declined, and the other numbers are in the order in which they were committed. -/
theorem serializes_lateEntries :
    let c := (annotated .epoch ∅ : Cluster sums).run .epoch lateEntries
    (c.world.log.events (sumStream.key .domain)).map Event.content =
        [("sum.added", .int 2), ("sum.added", .int 3), ("sum.added", .int 4)] ∧
      (c.receipts.flatMap Receipt.declined).map Event.content = [("sum.added", .int 0)] ∧
      c.world.Unfrozen := by
  obtain ⟨c, hc⟩ : ∃ c, c = (annotated .epoch ∅ : Cluster sums).run .epoch lateEntries := ⟨_, rfl⟩
  have hfree : ((World.start .epoch).annotated ∅).Unfrozen := by
    intro key
    simp only [EventLog.freeze?, EventLog.metadataOf, World.annotated, Std.ExtTreeMap.getD_empty]
    rfl
  have hbound : ∀ key ∈ c.world.log.keys, c.world.log.version key ≤ 0x7fffffffffffffff := by
    rw [hc]
    decide +kernel
  have hstored : (Receipt.storedUnder (sumStream.key .domain) c.receipts).map Event.content =
      [("sum.added", .int 2), ("sum.added", .int 3), ("sum.added", .int 4)] := by
    rw [hc]
    decide +kernel
  have hdeclined : (c.receipts.flatMap Receipt.declined).map Event.content =
      [("sum.added", .int 0)] := by
    rw [hc]
    decide +kernel
  rw [hc] at hbound hstored hdeclined
  have hsorted : ∀ pre, pre <+: lateEntries →
      ((annotated .epoch ∅ : Cluster sums).run .epoch pre).Sorted fun _ => () :=
    fun _ _ _ _ => rfl
  obtain ⟨-, hunfrozen, hcontents⟩ := serializes .epoch (by decide) hfree
    (fun _ => records_tillRoutes) strong_lateEntries hsorted
    (EventLog.version_le_of_keys (by decide) hbound)
  exact ⟨(hcontents sumStream).trans hstored, hdeclined, hunfrozen⟩

end Cluster

end Chronicle
