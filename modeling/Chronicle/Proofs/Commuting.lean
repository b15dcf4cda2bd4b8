import Chronicle.Proofs.Addressing
import Chronicle.Proofs.Handling

/-!
# The order of a pass

A worker takes the streams that are due in no particular order. If nothing is stored for two of them
under the same key, the order does not matter: each stream is left as if it had been handled alone,
and whatever belongs to none of them is left alone.
-/

namespace Chronicle

namespace StreamRef

variable {r s : StreamRef}

/-- No part of the keys of the stream has a dot in it. -/
structure Dotless (r : StreamRef) : Prop where
  bucket : '.' ∉ r.bucket.toList
  entity : '.' ∉ r.entity.toList
  id : '.' ∉ r.id.toList
  parents : ∀ p ∈ r.parents, '.' ∉ p.id.toList

theorem Dotless.key (h : r.Dotless) (lane : Lane) : '.' ∉ (r.key lane).toList := by
  have hlane : '.' ∉ lane.name.toList := by cases lane <;> decide
  have hchain : '.' ∉ (":".intercalate (r.parents.map ParentRef.id)).toList := by
    refine not_mem_intercalate (by decide) fun id hid => ?_
    obtain ⟨parent, hparent, rfl⟩ := List.mem_map.1 hid
    exact h.parents parent hparent
  simp only [StreamRef.key, streamKey, String.toList_append, List.mem_append, not_or]
  have hsign : ∀ sign ∈ ["-", "-[", "]-"], '.' ∉ sign.toList := by decide
  exact ⟨⟨⟨⟨⟨⟨⟨⟨hlane, hsign _ (by simp)⟩, h.bucket⟩, hsign _ (by simp)⟩, hchain⟩,
    hsign _ (by simp)⟩, h.entity⟩, hsign _ (by simp)⟩, h.id⟩

theorem channelKey_eq (r : StreamRef) (channel : String) :
    r.channelKey channel = r.key .oob ++ "." ++ channel := by
  simp only [channelKey, StreamRef.key, streamKey, String.append_assoc]

theorem Apart.symm (h : r.Apart s) : s.Apart r := fun key hs hr => h key hr hs

theorem Dotless.apart (h : r.Dotless) (h' : s.Dotless) (hne : r.key .domain ≠ s.key .domain) :
    r.Apart s := by
  have hlane : ∀ lane, r.key lane ≠ s.key lane := fun lane heq => hne (key_eq_key heq .domain)
  have hchannel : ∀ channel channel', r.channelKey channel ≠ s.channelKey channel' := by
    intro channel channel' heq
    rw [channelKey_eq, channelKey_eq, ← String.toList_inj] at heq
    simp only [String.toList_append, List.append_assoc] at heq
    have hcut := (append_cons_inj (h.key .oob) (h'.key .oob)).1 heq
    exact hlane .oob (String.toList_inj.1 hcut.1)
  rintro key (rfl | rfl | ⟨channel, rfl⟩) (heq | heq | ⟨channel', heq⟩)
  · exact hlane _ heq
  · exact key_ne_key _ _ (by decide) heq
  · exact key_ne_channelKey _ _ (by decide) _ heq
  · exact key_ne_key _ _ (by decide) heq
  · exact hlane _ heq
  · exact key_ne_channelKey _ _ (by decide) _ heq
  · exact key_ne_channelKey _ _ (by decide) _ heq.symm
  · exact key_ne_channelKey _ _ (by decide) _ heq.symm
  · exact hchannel _ _ heq

end StreamRef

namespace World

variable {r s : StreamRef} {streams : List StreamRef} {w u u' v : World}

/-- A cache holds timelines under their own domain keys. -/
def Filed (w : World) : Prop :=
  ∀ c key (t : Timeline), (w.cache c)[key]? = some t → t.key .domain = key

theorem Consistent.filed (h : w.Consistent) : w.Filed := fun c key t ht => (h.cached c key t ht).1

theorem Filed.near (h : w.Filed) (r : StreamRef) : w.Near r w :=
  ⟨fun _ _ => rfl, rfl, fun _ => rfl, fun c => h c _, fun _ => rfl, fun _ _ _ => rfl, rfl, rfl⟩

theorem Filed.confined (h : w.Filed) (hc : w.Confined [s] u) (hn : u.Near s u') : u.Filed := by
  intro c key t ht
  by_cases hk : s.key .domain = key
  · subst hk
    exact hn.filed c t ht
  · rw [hc.cached c key (by simpa using hk)] at ht
    exact h c key t ht

theorem Near.trans (h : w.Near r u) (h' : u.Near r v) : w.Near r v where
  events key hk := (h.events key hk).trans (h'.events key hk)
  metadata := h.metadata.trans h'.metadata
  cached c := (h.cached c).trans (h'.cached c)
  filed := h.filed
  queue a := (h.queue a).trans (h'.queue a)
  due a item hi := (h.due a item hi).trans (h'.due a item hi)
  wall := h.wall.trans h'.wall
  elapsed := h.elapsed.trans h'.elapsed

theorem Confined.near (h : w.Confined streams u) (ha : ∀ s ∈ streams, s.Apart r) (hw : w.Filed) :
    w.Near r u where
  events key hk := by rw [h.events key fun s hs howns => ha s hs key howns hk]
  metadata := (h.metadata _ fun s hs => (ha s hs).key_ne.symm).symm
  cached c := by rw [h.cached c _ fun s hs => (ha s hs).key_ne.symm]
  filed c := hw c _
  queue a := by
    refine (h.groups a ⟨weakChannel, r.key .domain⟩ fun s hs heq => ?_).symm
    exact (ha s hs).key_ne (congrArg GroupName.key heq).symm
  due a item hi := by
    refine (h.due a item fun s hs => ?_).symm
    rw [hi]
    exact (ha s hs).key_ne.symm
  wall := h.wall.symm
  elapsed := h.elapsed.symm

/-- The worlds hold the same but for the names of events and commits: events and metadata under
every key, staged batches in every group, cached timelines, and when each stream is due. -/
structure Matches (w w' : World) : Prop where
  events : ∀ key, (w.log.events key).map Event.nameless = (w'.log.events key).map Event.nameless
  metadata : ∀ key, w.log.metadataOf key = w'.log.metadataOf key
  groups : ∀ a g, (w.area a).group g = (w'.area a).group g
  cached : ∀ c (key : String), ((w.cache c)[key]?).map Timeline.nameless =
    ((w'.cache c)[key]?).map Timeline.nameless
  due : ∀ a item, (w.agenda a).dueTime item = (w'.agenda a).dueTime item
  wall : w.wall = w'.wall
  elapsed : w.elapsed = w'.elapsed

private theorem seen_eq {α : Type} {f : World → α} {p : StreamRef → Prop}
    (hsame : ∀ s ∈ streams, ∃ alone : World, alone.Near s u ∧ alone.Near s u')
    (hnear : ∀ s alone v, p s → World.Near s alone v → f alone = f v)
    (hrest : (∀ s ∈ streams, ¬ p s) → f u = f u') : f u = f u' := by
  by_cases hp : ∃ s ∈ streams, p s
  · obtain ⟨s, hs, hp⟩ := hp
    obtain ⟨alone, hn, hn'⟩ := hsame s hs
    exact (hnear s alone u hp hn).symm.trans (hnear s alone u' hp hn')
  · exact hrest fun s hs h => hp ⟨s, hs, h⟩

/-- Worlds match that hold the same for each of the streams to which they are confined. -/
theorem Matches.of_confined (h : w.Confined streams u) (h' : w.Confined streams u')
    (hsame : ∀ s ∈ streams, ∃ alone : World, alone.Near s u ∧ alone.Near s u') : u.Matches u' where
  -- What belongs to one of the streams is as that stream left it when it was handled alone, and
  -- nothing else was touched.
  events key := by
    refine seen_eq (f := fun w => (w.log.events key).map Event.nameless) (p := (·.Owns key)) hsame
      (fun s alone v howns hn => hn.events key howns) fun hk => ?_
    rw [h.events key hk, h'.events key hk]
  metadata key := by
    refine seen_eq (f := fun w => w.log.metadataOf key) (p := (·.key .domain = key)) hsame ?_
      fun hk => ?_
    · rintro s alone v rfl hn
      exact hn.metadata
    · rw [h.metadata key hk, h'.metadata key hk]
  groups a g := by
    refine seen_eq (f := fun w => (w.area a).group g)
      (p := fun s => ⟨weakChannel, s.key .domain⟩ = g) hsame ?_ fun hg => ?_
    · rintro s alone v rfl hn
      exact hn.queue a
    · rw [h.groups a g hg, h'.groups a g hg]
  cached c key := by
    refine seen_eq (f := fun w => ((w.cache c)[key]?).map Timeline.nameless)
      (p := (·.key .domain = key)) hsame ?_ fun hk => ?_
    · rintro s alone v rfl hn
      exact hn.cached c
    · rw [h.cached c key hk, h'.cached c key hk]
  due a item := by
    refine seen_eq (f := fun w => (w.agenda a).dueTime item)
      (p := (·.key .domain = item.key .domain)) hsame (fun s alone v hi hn => hn.due a item hi.symm)
      fun hi => ?_
    rw [h.due a item hi, h'.due a item hi]
  wall := h.wall.trans h'.wall.symm
  elapsed := h.elapsed.trans h'.elapsed.symm

end World

namespace Participant

variable {C : Catalog} {p : Participant C} {opened : Moment} {s : StreamRef}
  {streams : List StreamRef} {w w' : World}

theorem twin_handle (p : Participant C) (opened : Moment) (s : StreamRef) :
    Twin s Eq ((p.worker opened).handle s) ((p.worker opened).handle s) := by
  unfold Worker.handle
  rw [handlers_worker]
  cases p.kind? s.entity with
  | none => exact .pure rfl
  | some kind => exact World.twin_handleStaged p.node opened (C.routes kind) s

/-- A pass over streams that are apart leaves each of them as if it had been handled alone, and
everything else as it is. -/
theorem alone_of_handleAll {a : Unit} (hapart : streams.Pairwise StreamRef.Apart) (hw : w.Filed)
    (h : Runs ((p.worker opened).handleAll streams) w a w') :
    w.Confined streams w' ∧ ∀ s ∈ streams, ∀ r alone,
      Runs ((p.worker opened).handle s) w r alone → alone.Near s w' := by
  induction streams generalizing w with
  | nil =>
    obtain ⟨-, rfl⟩ := runs_pure.1 h
    exact ⟨.refl .., by simp⟩
  | cons first rest ih =>
    obtain ⟨r₁, w₁, hfirst, hrest⟩ := runs_handleAll_cons h
    obtain ⟨hfar, hpairs⟩ := List.pairwise_cons.1 hapart
    obtain ⟨-, hself, hconfined⟩ := twin_handle p opened first (hw.near first) hfirst hfirst
    have hw₁ : w₁.Filed := hw.confined hconfined hself
    obtain ⟨hothers, halone⟩ := ih hpairs hw₁ hrest
    refine ⟨(hconfined.mono (by simp)).trans (hothers.mono (List.subset_cons_self ..)), ?_⟩
    intro s hs r alone hrun
    rcases List.mem_cons.1 hs with rfl | hs
    · obtain ⟨-, rfl⟩ := Prod.mk.inj (hrun.run_eq.symm.trans hfirst.run_eq)
      exact hothers.near (fun other hother => (hfar other hother).symm) hw₁
    · -- What came first is confined to another stream, so the stream is handled as in `w`.
      have hbefore : w.Near s w₁ := hconfined.near (by simpa using hfar s hs) hw
      obtain ⟨r', alone', hrun'⟩ := Runs.total ((p.worker opened).handle s) w₁
      obtain ⟨-, hsame, -⟩ := twin_handle p opened s hbefore hrun hrun'
      exact hsame.trans (halone s hs r' alone' hrun')

/-- In whatever order a worker handles streams with different domain keys and without dots in them,
it leaves the same, and it answers for each of them as if that one had been handled alone. -/
theorem commuting (p : Participant C) (opened : Moment) {w : World} (hw : w.Filed)
    {streams streams' : List StreamRef} (hkeys : (streams.map fun s => s.key .domain).Nodup)
    (hdotless : ∀ s ∈ streams, s.Dotless) (hperm : streams.Perm streams') :
    let after := fun order w => (((p.worker opened).handleAll order).run w).2
    let answer := fun s w => (((p.worker opened).handle s).run w).1
    (after streams w).Matches (after streams' w) ∧
      ∀ before s rest, streams' = before ++ s :: rest → answer s (after before w) = answer s w := by
  intro after answer
  have hapart : streams.Pairwise StreamRef.Apart := by
    refine (List.pairwise_map.1 hkeys).imp_of_mem fun hr hs hne => ?_
    exact (hdotless _ hr).apart (hdotless _ hs) hne
  have hapart' : streams'.Pairwise StreamRef.Apart :=
    (hperm.pairwise_iff StreamRef.Apart.symm).1 hapart
  have hpass : ∀ order, Runs ((p.worker opened).handleAll order) w () (after order w) :=
    fun _ => rfl
  constructor
  · obtain ⟨hconfined, halone⟩ := alone_of_handleAll hapart hw (hpass streams)
    obtain ⟨hconfined', halone'⟩ := alone_of_handleAll hapart' hw (hpass streams')
    refine .of_confined hconfined (hconfined'.mono hperm.symm.subset) fun s hs => ?_
    obtain ⟨r, alone, hrun⟩ := Runs.total ((p.worker opened).handle s) w
    exact ⟨alone, halone s hs r alone hrun, halone' s (hperm.subset hs) r alone hrun⟩
  · rintro before s rest rfl
    obtain ⟨hbefore, -, hcross⟩ := List.pairwise_append.1 hapart'
    obtain ⟨hconfined, -⟩ := alone_of_handleAll hbefore hw (hpass before)
    have hnear : w.Near s (after before w) :=
      hconfined.near (fun other hother => hcross other hother s (List.mem_cons_self ..)) hw
    obtain ⟨hsame, -⟩ := twin_handle p opened s hnear rfl rfl
    exact hsame.symm

end Participant

namespace Cluster

/-- Whatever the operations, every timeline is cached under its own key. -/
theorem filed_run {C : Catalog} (opened wall : Moment) (operations : List (Operation C)) :
    ((start wall : Cluster C).run opened operations).world.Filed := by
  obtain ⟨rs, hleads⟩ := leads_run opened (steady_start wall) operations
  exact hleads.steady.consistent.filed

def otherTally : StreamRef := { tallyStream with id := "t-2" }

/-- A step is stored for each of two tallies, and one that knows nothing of it is staged. Then the
second tally is held, and a minute passes. -/
def lateStepsOnTwo : List (Operation tallies) :=
  [.newEntity (teller 0) () "t-1", .newEntity (teller 1) () "t-1", .newEntity (teller 0) () "t-2",
    .newEntity (teller 1) () "t-2", stepBy 0 2, .commit (teller 0) 0 (.numbered 100) ∅, stepBy 2 5,
    .commit (teller 0) 2 (.numbered 101) ∅, stepBy 1 3, .commit (teller 1) 1 (.numbered 102) ∅,
    stepBy 3 4, .commit (teller 1) 3 (.numbered 103) ∅, .freeze (teller 0) 2,
    .advance (.ofSeconds 60)]

/-- What is due is taken off the agenda. One of the tallies is merged and the other is put off, in
either order. -/
theorem commuting_lateStepsOnTwo :
    let w := ((start .epoch).run .epoch lateStepsOnTwo).world.cleared 1
    let worker := (teller 1).worker .epoch
    let after := fun order w => ((worker.handleAll order).run w).2
    let answer := fun s w => ((worker.handle s).run w).1
    answer tallyStream w = .ok .committed ∧
      answer otherTally w = .error (.frozen (otherTally.key .domain) (.numbered 0)) ∧
      (after [tallyStream, otherTally] w).Matches (after [otherTally, tallyStream] w) ∧
      answer tallyStream (after [otherTally] w) = answer tallyStream w := by
  intro w worker after answer
  have hanswers : answer tallyStream w = .ok .committed ∧
      answer otherTally w = .error (.frozen (otherTally.key .domain) (.numbered 0)) := by
    decide +kernel
  have hfiled : w.Filed := filed_run .epoch .epoch lateStepsOnTwo
  have hdotless : ∀ s ∈ [tallyStream, otherTally], s.Dotless := by
    intro s hs
    rcases List.mem_pair.1 hs with rfl | rfl
    · exact ⟨by decide, by decide, by decide, by simp [tallyStream]⟩
    · exact ⟨by decide, by decide, by decide, by simp [otherTally, tallyStream]⟩
  obtain ⟨hmatches, hanswer⟩ := (teller 1).commuting .epoch hfiled (by decide) hdotless
    (.swap otherTally tallyStream [])
  exact ⟨hanswers.1, hanswers.2, hmatches, hanswer [otherTally] tallyStream [] rfl⟩

end Cluster

end Chronicle
