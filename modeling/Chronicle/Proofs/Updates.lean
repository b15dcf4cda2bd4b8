import Chronicle.Proofs.Histories

/-!
# Commits that are written

Any number of participants may hold copies of one stream, some of them old, and so may their
caches. A commit that is written has nevertheless checked that the stream is where the entity was
loaded, and the events that it adds follow what the entity was built from.
-/

namespace Chronicle

/-- A log at the version of a timeline holds the settled events of the timeline, each at its
version, and the later log goes on with the pending ones in order, up to the given version. -/
structure Timeline.Extends (t : Timeline) (log log' : EventLog) (v : Int) : Prop where
  loaded : log.version (t.key .domain) = t.version
  agrees : ∀ e ∈ t.settled, ∃ d, (log.events (t.key .domain))[e.version.toNat]? = some d ∧
    d.version = e.version ∧ d.content = e.content
  appended : ∃ time headers ids, log'.events (t.key .domain) = log.events (t.key .domain) ++
    EventLog.stamped t.version time headers ids t.pending
  reached : log'.version (t.key .domain) = v

namespace Timeline

variable {log log' : EventLog} {t t' : Timeline} {v : Int}

theorem Based.getElem? (h : t.Based log) (hn : log.Numbered) {e : Event} (he : e ∈ t.settled) :
    ∃ d, (log.events (t.key .domain))[e.version.toNat]? = some d ∧
      d.version = e.version ∧ d.content = e.content := by
  obtain ⟨d, hd, hversion, hcontent⟩ := h.settled e he
  have hplace := (hn (t.key .domain)).getElem?_eq hd
  rw [hversion, Int.sub_zero] at hplace
  exact ⟨d, hplace, hversion, hcontent⟩

/-- What is stored of a timeline with pending events extends the log that it was loaded from. -/
theorem Rooted.extends (h : t.Rooted log) (hs : Stored log log' t) (hn : log.Numbered)
    (hp : t.pending ≠ []) (hv : log.version (t.key .domain) = t.version) :
    t.Extends log log' (t.storedVersion log) where
  loaded := hv
  agrees _ he := h.based.getElem? hn he
  appended := by
    obtain ⟨time, headers, ids, hev⟩ := hs.domain
    exact ⟨time, headers, ids, hv ▸ hev⟩
  reached := by
    rw [hs.version hn, storedVersion, if_neg hp]

theorem Extends.of_addSnapshot {time : Moment} {memento : Json}
    (h : (t.addSnapshot time memento).Extends log log' v) : t.Extends log log' v :=
  ⟨h.loaded, h.agrees, h.appended, h.reached⟩

end Timeline

namespace World

variable {S : Type} {n : Node} {opened : Moment} {w w' : World} {e e' : Entity S}
  {commitId : Uuid} {headers : Headers}

/-- What a commit writes extends the history that the entity was loaded from. -/
theorem Committed.extends {routes : Routes (StateM World) S} {v : Int}
    (h : Committed n opened routes e commitId headers w (.ok (.written v), e') w')
    (hc : w.Consistent) (he : e.timeline.Rooted w.log) (hp : e.timeline.pending ≠ []) :
    e.timeline.Extends w.log w'.log v := by
  obtain ⟨e₁, hstaged, hwrote, -⟩ := h.of_written
  have hrooted := he.continues (continues_staged hstaged).1
  cases hwrote with
  | stored hversion hstored =>
    rcases Entity.staged_eq_ok hstaged with ⟨-, rfl⟩ | ⟨-, snapshots, memento, -, -, rfl⟩
    · exact hrooted.extends hstored hc.numbered hp (hversion hp)
    · exact (hrooted.extends hstored hc.numbered hp (hversion hp)).of_addSnapshot

end World

namespace Cluster

variable {C : Catalog}

/-- No update is lost: after any operations of any participants, a commit of any entity in use
that is written finds the stream at the version of the entity, with the events that the entity
was built from, and leaves it with the pending ones behind them. -/
theorem extends_of_written (opened wall : Moment) (operations : List (Operation C))
    (p : Participant C) {slot : Nat} {kind : C.Kind} {e e' : Entity (C.State kind)}
    {commitId : Uuid} {headers : Headers} {v : Int} {w' : World}
    (hslot : ((start wall).run opened operations).slots[slot]? = some ⟨kind, e⟩)
    (hcommit : Runs ((p.repository opened).commit (C.routes kind).lift e commitId headers)
      ((start wall).run opened operations).world (.ok (.written v), e') w')
    (hpending : e.timeline.pending ≠ []) :
    e.timeline.Extends ((start wall).run opened operations).world.log w'.log v := by
  obtain ⟨rs, hleads⟩ := leads_run opened (steady_start wall) operations
  exact (World.committed_of_runs hcommit).extends hleads.steady.consistent
    (hleads.steady.rooted _ (List.mem_of_getElem? hslot)) hpending

/-- One teller stores a step of two, and another one loads the tally and steps by three. -/
def twoThenThree : List (Operation tallies) :=
  [.newEntity (teller 0) () "t-1", stepBy 0 2, .commit (teller 0) 0 (.numbered 100) ∅,
    .get (teller 1) () "t-1", stepBy 1 3]

/-- The step of three is written behind the step of two, which the other teller has loaded. -/
theorem extends_twoThenThree : ∃ e e' w',
    ((start .epoch).run .epoch twoThenThree).slots[1]? = some ⟨(), e⟩ ∧
    Runs (((teller 1).repository .epoch).commit (tallies.routes ()).lift e (.numbered 101) ∅)
      ((start .epoch).run .epoch twoThenThree).world (.ok (.written 1), e') w' ∧
    e.timeline.settled.length = 1 ∧ e.timeline.pending.length = 1 ∧
    e.timeline.Extends ((start .epoch).run .epoch twoThenThree).world.log w'.log 1 := by
  obtain ⟨c, hc⟩ : ∃ c, c = (start .epoch).run .epoch twoThenThree := ⟨_, rfl⟩
  have hfacts : c.slots[1]?.map (fun s =>
      (s.entity.timeline.settled.length, s.entity.timeline.pending.length,
        ((((teller 1).repository .epoch).commit (tallies.routes s.kind).lift s.entity
          (.numbered 101) ∅).run c.world).1.1)) = some (1, 1, .ok (.written 1)) := by
    rw [hc]
    decide +kernel
  obtain ⟨⟨⟨⟩, e⟩, hslot, hs⟩ := Option.map_eq_some_iff.1 hfacts
  simp only [Prod.mk.injEq] at hs
  obtain ⟨hsettled, hpending, hresult⟩ := hs
  obtain ⟨⟨r, e'⟩, w', hcommit⟩ := Runs.total (((teller 1).repository .epoch).commit
    (tallies.routes ()).lift e (.numbered 101) ∅) c.world
  rw [hcommit.run_eq] at hresult
  subst hresult
  rw [hc] at hslot hcommit
  refine ⟨e, e', w', hslot, hcommit, hsettled, hpending, ?_⟩
  exact extends_of_written .epoch .epoch twoThenThree (teller 1) hslot hcommit
    (List.ne_nil_of_length_pos (by omega))

end Cluster

end Chronicle
