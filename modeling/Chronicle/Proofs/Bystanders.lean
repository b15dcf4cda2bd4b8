import Mathlib.Data.List.Nodup
import Chronicle.Proofs.Sweeping

/-!
# Streams that are left alone

Two streams are apart if nothing is stored for both of them under the same key. Handling a stream
leaves alone whatever concerns a stream apart from it: what is stored for it, who holds it, what is
cached and staged of it, and when it is due. So among several streams that are due a worker does to
one of them what it does by handling that one alone.
-/

namespace Chronicle

variable {S : Type}

namespace StreamRef

variable {r r' s : StreamRef}

/-- Nothing is stored for both streams under the same key. -/
def Apart (r s : StreamRef) : Prop := ∀ key, r.Owns key → ¬ s.Owns key

theorem owns_congr (h : r.key .domain = r'.key .domain) (key : String) :
    r.Owns key ↔ r'.Owns key := by
  have hchannel : ∀ channel, r.channelKey channel = r'.channelKey channel := by
    intro channel
    simp only [StreamRef.key, streamKey, String.append_assoc, String.append_right_inj] at h
    simp only [channelKey, streamKey, ← String.append_assoc, String.append_left_inj]
    simp only [String.append_assoc, String.append_right_inj]
    exact h
  simp only [Owns, h, key_eq_key h .snapshot, hchannel]

theorem Apart.congr (h : r.Apart s) (hk : r'.key .domain = r.key .domain) : r'.Apart s :=
  fun key howns => h key ((owns_congr hk key).1 howns)

theorem Apart.key_ne (h : r.Apart s) : s.key .domain ≠ r.key .domain :=
  fun hk => h _ (.inl rfl) (.inl hk.symm)

end StreamRef

namespace Agenda

variable {now : Span}

/-- No stream is on the agenda twice, and the domain keys of all streams but one have a property. -/
structure Tidy (a : Agenda StreamRef) (stream : StreamRef) (p : String → Prop) : Prop where
  nodup : (a.entries.map Prod.fst).Nodup
  others : ∀ other ∈ a.entries.map Prod.fst, other ≠ stream → p (other.key .domain)

namespace Tidy

variable {a : Agenda StreamRef} {stream other : StreamRef} {p : String → Prop}

theorem schedule (h : a.Tidy stream p) (ho : other ≠ stream → p (other.key .domain))
    (due : Span) : (a.schedule other due).Tidy stream p := by
  refine ⟨nodup_schedule h.nodup other due, ?_⟩
  rw [Agenda.schedule, map_fst_scheduleIn]
  split
  · exact h.others
  · intro item hitem
    rcases List.mem_append.1 hitem with hitem | hitem
    · exact h.others item hitem
    · rw [List.mem_singleton.1 hitem]
      exact ho

theorem rest (h : a.Tidy stream p) (now : Span) : (a.takeDue now).2.Tidy stream p := by
  have hsub : ((a.takeDue now).2.entries.map Prod.fst).Sublist (a.entries.map Prod.fst) :=
    List.filter_sublist.map _
  exact ⟨h.nodup.sublist hsub, fun item hitem => h.others item (hsub.subset hitem)⟩

theorem exists_split (h : a.Tidy stream p) (hmem : stream ∈ (a.takeDue now).1) :
    ∃ before after, (a.takeDue now).1 = before ++ stream :: after ∧
      ∀ other ∈ before ++ after, p (other.key .domain) := by
  obtain ⟨before, after, hsplit⟩ := List.append_of_mem hmem
  refine ⟨before, after, hsplit, fun other hother => ?_⟩
  have hnodup := (List.nodup_append.1 (nodup_takeDue h.nodup now)).1
  rw [hsplit] at hnodup
  have hnot : stream ∉ before ++ after := (List.nodup_cons.1 (List.nodup_middle.1 hnodup)).1
  have htaken : other ∈ (a.takeDue now).1 := by
    rw [hsplit]
    rcases List.mem_append.1 hother with hother | hother
    · exact List.mem_append_left _ hother
    · exact List.mem_append_right _ (List.mem_cons_of_mem _ hother)
  exact h.others other (mem_entries_of_mem_takeDue htaken) fun heq => hnot (heq ▸ hother)

end Tidy

/-- Another stream on the agenda has the domain key. -/
def Beside (a : Agenda StreamRef) (stream : StreamRef) (key : String) : Prop :=
  ∃ other ∈ a.entries.map Prod.fst, other ≠ stream ∧ other.key .domain = key

theorem tidy_beside {a : Agenda StreamRef} (h : (a.entries.map Prod.fst).Nodup)
    (stream : StreamRef) : a.Tidy stream (a.Beside stream) :=
  ⟨h, fun other hmem hne => ⟨other, hmem, hne, rfl⟩⟩

theorem apart_of_beside {a : Agenda StreamRef} {stream item : StreamRef}
    (h : ∀ other ∈ a.entries.map Prod.fst, other ≠ stream → other.Apart stream)
    (hitem : a.Beside stream (item.key .domain)) : item.Apart stream := by
  obtain ⟨other, hmem, hne, hkey⟩ := hitem
  exact (h other hmem hne).congr hkey.symm

end Agenda

theorem EventLog.timeline_eq {log log' : EventLog} {stream : StreamRef}
    (h : ∀ key, stream.Owns key → log'.events key = log.events key) :
    log'.timeline stream = log.timeline stream := by
  have hdomain := h _ (.inl rfl)
  have hsnapshot := h _ (.inr (.inl rfl))
  simp only [timeline, lastSnapshot, readBack, read, hdomain, hsnapshot]

namespace World

variable {n : Node} {opened : Moment} {stream other : StreamRef} {p : String → Prop}
  {w w' w'' : World} {c : Nat} {key : String} {t : Timeline}

/-- Nothing that concerns a stream has changed, and neither has the time. -/
structure Spares (stream : StreamRef) (w w' : World) : Prop where
  events : ∀ key, stream.Owns key → w'.log.events key = w.log.events key
  freeze : w'.log.freeze? (stream.key .domain) = w.log.freeze? (stream.key .domain)
  cached : ∀ c, (w'.cache c)[stream.key .domain]? = (w.cache c)[stream.key .domain]?
  queue : ∀ a, w'.queue a (stream.key .domain) = w.queue a (stream.key .domain)
  wall : w'.wall = w.wall
  elapsed : w'.elapsed = w.elapsed

namespace Spares

theorem refl (stream : StreamRef) (w : World) : w.Spares stream w :=
  ⟨fun _ _ => rfl, rfl, fun _ => rfl, fun _ => rfl, rfl, rfl⟩

theorem trans (h : w.Spares stream w') (h' : w'.Spares stream w'') : w.Spares stream w'' where
  events key howns := (h'.events key howns).trans (h.events key howns)
  freeze := h'.freeze.trans h.freeze
  cached c := (h'.cached c).trans (h.cached c)
  queue a := (h'.queue a).trans (h.queue a)
  wall := h'.wall.trans h.wall
  elapsed := h'.elapsed.trans h.elapsed

theorem of_idle (hi : w.Idle w') (ht : w.Simultaneous w')
    (hf : w'.log.freeze? (stream.key .domain) = w.log.freeze? (stream.key .domain)) :
    w.Spares stream w' where
  events key _ := EventLog.events_congr hi.streams key
  freeze := hf
  cached c := by rw [hi.cache]
  queue a := queue_eq_of_areas hi.areas a _
  wall := ht.wall
  elapsed := ht.elapsed

theorem issued (stream : StreamRef) (w : World) (i : Nat) : w.Spares stream (w.logged i w.log) :=
  of_idle (.issued w i) ⟨rfl, rfl, rfl⟩ rfl

theorem cleared (stream : StreamRef) (w : World) (a : Nat) : w.Spares stream (w.cleared a) :=
  ⟨fun _ _ => rfl, rfl, fun _ => rfl, fun _ => rfl, rfl, rfl⟩

theorem forget (h : stream.key .domain ≠ key) (w : World) (c : Nat) :
    w.Spares stream (w.forget c key) where
  events _ _ := rfl
  freeze := rfl
  cached d := by rw [getElem?_cache_forget, if_neg fun hk => h hk.2]
  queue _ := rfl
  wall := rfl
  elapsed := rfl

theorem remember (h : stream.key .domain ≠ key) (w : World) (c : Nat) (t : Timeline) :
    w.Spares stream (w.remember c key t) where
  events _ _ := rfl
  freeze := rfl
  cached d := by rw [getElem?_cache_remember, if_neg fun hk => h hk.2]
  queue _ := rfl
  wall := rfl
  elapsed := rfl

theorem viewed (h : other.Apart stream) (w : World) (c : Nat) :
    w.Spares stream (w.viewed c other) := by
  unfold World.viewed
  split
  · exact .remember h.key_ne w c _
  · exact .refl stream w

theorem restaged (h : stream.key .domain ≠ key) (w : World) (a : Nat)
    (messages : List (Staged ConflictBatch)) : w.Spares stream (w.restaged a key messages) where
  events _ _ := rfl
  freeze := rfl
  cached _ := rfl
  queue b := by
    by_cases hb : b = a
    · rw [hb, queue_restaged_of_ne w a h]
    · rw [World.queue, area_restaged, if_neg hb]
      rfl
  wall := rfl
  elapsed := rfl

theorem claimed (h : stream.key .domain ≠ key) (w : World) (frozen : Option Freeze) :
    w.Spares stream (w.claimed key frozen) :=
  of_idle (.annotated ..) ⟨rfl, rfl, rfl⟩ (by rw [freeze?_claimed, if_neg h])

theorem freezes {r : Except StoreError Unit} (ht : t.stream.Apart stream)
    (h : Runs ((n.store (site opened)).freeze t) w r w') : w.Spares stream w' := by
  rw [runs_freeze_iff] at h
  split at h
  · split at h
    · exact h.2 ▸ .claimed ht.key_ne ..
    · exact h.2 ▸ .refl ..
  · exact h.2 ▸ .claimed ht.key_ne ..

theorem unfreezes {r : Except StoreError Unit} (ht : t.stream.Apart stream)
    (h : Runs ((n.store (site opened)).unfreeze t) w r w') : w.Spares stream w' := by
  obtain ⟨-, rfl⟩ := runs_unfreeze_iff.1 h
  split
  · split
    · exact .claimed ht.key_ne ..
    · exact .refl ..
  · exact .refl ..

theorem writes {commitId : Uuid} {headers : Headers} {r : Except StoreError Int} (hs : t.Sound)
    (ht : t.stream.Apart stream)
    (h : Runs ((n.store (site opened)).write commitId t headers) w r w') : w.Spares stream w' := by
  cases wrote_of_runs h with
  | held => exact .refl ..
  | conflict => exact .forget ht.key_ne ..
  | @stored i log hversion hstored =>
    have hextended := extended_of_write hs h
    refine trans ?_ (.remember ht.key_ne (w.logged i log) n.cache _)
    exact {
      events := fun key howns => hextended.elsewhere key fun hother => ht key hother howns
      freeze := EventLog.freeze?_congr hstored.metadata _
      cached := fun _ => rfl
      queue := fun _ => rfl
      wall := rfl
      elapsed := rfl }

variable {routes : Routes Id S} {events : List Event} {commitId : Uuid} {headers : Headers}
  {e d : Entity S} {r : Except ResolveError Resolution}

private theorem of_course (hs : e.timeline.Sound) (ht : e.timeline.stream.Apart stream)
    (h : MergeCourse (n.store (site opened)) (surroundings cell) unnumbered routes events commitId
      headers e w r d w') : w.Spares stream w' := by
  have hissued : ∀ {w₁ : World}, w₁.unnumbered = w.unnumbered → w.Spares stream w₁ := by
    intro w₁ hsame
    rw [eq_logged_of_unnumbered hsame]
    exact .issued ..
  cases h with
  | stopped _ _ hsame => exact hissued hsame
  | nothing _ _ hsame => exact hissued hsame
  | refused hmerges hsame hwrite =>
    have hcontinues := hmerges.continues
    exact (hissued hsame).trans
      (.writes (hcontinues.sound hs) (hcontinues.stream ▸ ht) hwrite)
  | stored hmerges hsame hwrite =>
    have hcontinues := hmerges.continues
    exact (hissued hsame).trans
      (.writes (hcontinues.sound hs) (hcontinues.stream ▸ ht) hwrite)

theorem settles {strategy : ConflictStrategy} {threshold : Nat} (hs : e.timeline.Sound)
    (ht : e.timeline.stream.Apart stream)
    (h : Resolves (settleBatch (n.store (site opened)) (surroundings cell) routes.lift events
      commitId headers strategy threshold) e w r d w') : w.Spares stream w' := by
  have hstream := (merged_of_settleBatch h).stream_eq
  cases course_of_settleBatch unobserved_surroundings h with
  | light _ hmerge => exact .of_course hs ht hmerge
  | barred hfreeze => exact .freezes ht hfreeze
  | released _ hfreeze hmerge hrelease =>
    exact ((Spares.freezes ht hfreeze).trans (.of_course hs ht hmerge)).trans
      (.unfreezes (hstream ▸ ht) hrelease)
  | stuck _ hfreeze hmerge hrelease =>
    exact ((Spares.freezes ht hfreeze).trans (.of_course hs ht hmerge)).trans
      (.unfreezes (hstream ▸ ht) hrelease)

theorem view (h : w.Spares stream w') (c : Nat) : w'.view c stream = w.view c stream := by
  rw [World.view, World.view, h.cached, EventLog.timeline_eq h.events]

end Spares

theorem UpToDate.spared (h : w.UpToDate c stream t) (hs : w.Spares stream w') :
    w'.UpToDate c stream t where
  view := (hs.view c).trans h.view
  ref := h.ref
  sound := h.sound
  clean := h.clean
  version := by
    rw [EventLog.version_congr (hs.events _ (.inl rfl))]
    exact h.version

/-- Nothing that concerns a stream has changed, and it is on the agendas as before. -/
structure Bypasses (stream : StreamRef) (p : String → Prop) (w w' : World) : Prop
    extends w.Spares stream w' where
  agenda : ∀ a, (w.agenda a).Tidy stream p → (w'.agenda a).Tidy stream p ∧
    (w'.agenda a).dueTime stream = (w.agenda a).dueTime stream

namespace Bypasses

theorem of_agendas (h : w.Spares stream w') (ha : w'.agendas = w.agendas) :
    w.Bypasses stream p w' where
  toSpares := h
  agenda a htidy := by
    have hsame : w'.agenda a = w.agenda a := by
      rw [World.agenda, ha]
      rfl
    exact ⟨hsame ▸ htidy, by rw [hsame]⟩

theorem refl (stream : StreamRef) (p : String → Prop) (w : World) : w.Bypasses stream p w :=
  .of_agendas (.refl ..) rfl

theorem trans (h : w.Bypasses stream p w') (h' : w'.Bypasses stream p w'') :
    w.Bypasses stream p w'' where
  toSpares := h.toSpares.trans h'.toSpares
  agenda a htidy := by
    obtain ⟨htidy₁, hdue₁⟩ := h.agenda a htidy
    obtain ⟨htidy₂, hdue₂⟩ := h'.agenda a htidy₁
    exact ⟨htidy₂, hdue₂.trans hdue₁⟩

theorem viewed (h : other.Apart stream) (w : World) (c : Nat) :
    w.Bypasses stream p (w.viewed c other) := by
  refine .of_agendas (.viewed h w c) ?_
  unfold World.viewed
  split <;> rfl

theorem scheduled (h : stream.key .domain ≠ other.key .domain) (hp : p (other.key .domain))
    (w : World) (a : Nat) (delay : Span) : w.Bypasses stream p (w.scheduled a other delay) where
  toSpares := ⟨fun _ _ => rfl, rfl, fun _ => rfl, fun _ => rfl, rfl, rfl⟩
  agenda b htidy := by
    rw [agenda_scheduled]
    split
    · rename_i hb
      subst hb
      exact ⟨htidy.schedule (fun _ => hp) _,
        Agenda.dueTime_schedule_of_ne _ (fun heq => h (by rw [heq])) _⟩
    · exact ⟨htidy, rfl⟩

end Bypasses

variable {routes : Routes Id S} {e d : Entity S} {r : Except ResolveError Resolution}

private theorem bypasses_passed {commitId : Uuid} {headers : Headers} {waiting : Nat}
    {pulled : List (Staged ConflictBatch)} (ho : e.timeline.stream.Apart stream)
    (hp : p (e.timeline.key .domain)) (hs : e.timeline.Sound)
    (h : (n.weak (site opened)).Passed routes commitId headers waiting pulled
      (e.timeline.key .domain) e w r d w') : w.Bypasses stream p w' := by
  have hsettled : ∀ {result : Except ResolveError Resolution} {d : Entity S} {w₁ : World},
      Resolves (settleBatch (n.store (site opened)) (surroundings cell) routes.lift
        (stagedEvents pulled) commitId headers .resolveWeakly n.settings.freezeThreshold) e w
        result d w₁ → w.Bypasses stream p w₁ ∧ ∀ {w₂ w₃ : World} {delay : Span},
          Runs ((n.weak (site opened)).schedule d.timeline.stream delay) w₂ () w₃ →
            w₂.Bypasses stream p w₃ := by
    intro result d w₁ hmerge
    refine ⟨.of_agendas (.settles hs ho hmerge) (simultaneous_of_settleBatch hmerge).agendas, ?_⟩
    intro w₂ w₃ delay hschedule
    obtain rfl := runs_schedule hschedule
    rw [(merged_of_settleBatch hmerge).stream_eq]
    exact .scheduled ho.key_ne hp ..
  cases h with
  | empty => exact .refl ..
  | merged hmerge hrest =>
    obtain ⟨hmerged, hagain⟩ := hsettled hmerge
    rcases hrest with ⟨-, rfl⟩ | ⟨-, hschedule⟩
    · exact hmerged
    · exact hmerged.trans (hagain hschedule)
  | returned hmerge hrequeue hschedule =>
    obtain ⟨hmerged, hagain⟩ := hsettled hmerge
    obtain ⟨-, rfl⟩ := runs_requeue.1 hrequeue
    exact (hmerged.trans (.of_agendas (.restaged ho.key_ne ..) rfl)).trans (hagain hschedule)

/-- Handling a stream leaves one alone that is apart from it, whatever comes of it. -/
theorem bypasses_handleStaged (ho : other.Apart stream) (hp : p (other.key .domain))
    (hc : w.Consistent)
    (h : Runs ((n.weak (site opened)).handleStaged routes.lift other) w r w') :
    w.Bypasses stream p w' := by
  have hviewed := Bypasses.viewed (p := p) ho w n.cache
  rcases runs_handleStaged h with ⟨err, -, -, hend⟩ | ⟨e, i, commitId, d, hfound, hresolve⟩
  · rcases hend with ⟨-, rfl⟩ | hschedule
    · exact hviewed
    · obtain rfl := runs_schedule hschedule
      exact hviewed.trans (.scheduled ho.key_ne hp ..)
  · -- What is loaded may be the timeline of another stream with the same keys.
    obtain ⟨-, hkey, hrooted, -⟩ := hc.loaded hfound
    obtain ⟨waiting, pulled, w₁, w₂, hsize, hpull, hpassed⟩ :=
      WeakResolver.passed_of_resolveStaged (granting_weak n opened) hresolve
    obtain ⟨-, rfl⟩ := runs_size.1 hsize
    obtain ⟨-, rfl⟩ := runs_pullMax.1 hpull
    have hapart : e.timeline.stream.Apart stream := ho.congr hkey
    have hissued := hviewed.trans (.of_agendas (.issued stream (w.viewed n.cache other) i) rfl)
    have hopen := hissued.trans (.of_agendas (.restaged hapart.key_ne _ n.area (leftBy n
      (((w.viewed n.cache other).logged i (w.viewed n.cache other).log).queue n.area
        (e.timeline.key .domain)))) rfl)
    exact hopen.trans (bypasses_passed hapart (hkey ▸ hp) hrooted.sound hpassed)

end World

namespace Participant

variable {C : Catalog} {part : Participant C} {opened : Moment} {stream : StreamRef}
  {p : String → Prop} {w w' : World}

/-- A worker that handles streams apart from another one leaves that one alone. -/
theorem bypasses_handleAll (hp : ∀ other, p (StreamRef.key other .domain) → other.Apart stream)
    {streams : List StreamRef} (hstreams : ∀ other ∈ streams, p (other.key .domain)) {u : Unit}
    (hc : w.Consistent) (h : Runs ((part.worker opened).handleAll streams) w u w') :
    w.Bypasses stream p w' ∧ w'.Consistent := by
  induction streams generalizing w with
  | nil =>
    obtain ⟨-, rfl⟩ := runs_pure.1 h
    exact ⟨.refl .., hc⟩
  | cons other rest ih =>
    obtain ⟨r, w₁, hfirst, hrest⟩ := runs_handleAll_cons h
    have hother := hstreams other (List.mem_cons_self ..)
    have hbypasses : w.Bypasses stream p w₁ := by
      rcases runs_handle hfirst with ⟨-, rfl⟩ | ⟨kind, -, hhandled⟩
      · exact .refl ..
      · exact World.bypasses_handleStaged (hp other hother) hother hc hhandled
    obtain ⟨hothers, hc'⟩ := ih (fun item hitem => hstreams item (List.mem_cons_of_mem _ hitem))
      (books_handle hc hfirst).consistent hrest
    exact ⟨hbypasses.trans hothers, hc'⟩

/-- A worker that looks for due streams leaves a stream alone that is not due. -/
theorem bypasses_runDue (hp : ∀ other, p (StreamRef.key other .domain) → other.Apart stream)
    (htidy : (w.agenda part.agenda).Tidy stream p) (hdue : stream ∉ w.due part.agenda)
    (hc : w.Consistent) {count : Nat} (h : Runs (part.worker opened).runDue w count w') :
    (w.cleared part.agenda).Bypasses stream p w' ∧ w'.Consistent := by
  refine bypasses_handleAll hp (fun other hother => ?_) (hc.idle (.cleared ..)) (runs_runDue h)
  refine htidy.others other (Agenda.mem_entries_of_mem_takeDue hother) ?_
  rintro rfl
  exact hdue hother

theorem runs_handleAll_append {first last : List StreamRef} {u : Unit}
    (h : Runs ((part.worker opened).handleAll (first ++ last)) w u w') :
    ∃ w₁, Runs ((part.worker opened).handleAll first) w () w₁ ∧
      Runs ((part.worker opened).handleAll last) w₁ u w' := by
  induction first generalizing w with
  | nil => exact ⟨w, runs_pure.2 ⟨rfl, rfl⟩, h⟩
  | cons other rest ih =>
    obtain ⟨r, w₁, hfirst, hrest⟩ := runs_handleAll_cons h
    obtain ⟨w₂, hmiddle, hlast⟩ := ih hrest
    refine ⟨w₂, ?_, hlast⟩
    rw [Worker.handleAll, runs_bind]
    exact ⟨(), w₁, runs_discard.2 ⟨r, hfirst⟩, hmiddle⟩

/-- A worker that looks for due streams handles one of them between others, which leave it alone. -/
theorem handled_of_runDue (hp : ∀ other, p (StreamRef.key other .domain) → other.Apart stream)
    (htidy : (w.agenda part.agenda).Tidy stream p) (hdue : stream ∈ w.due part.agenda)
    (hc : w.Consistent) {count : Nat} (h : Runs (part.worker opened).runDue w count w') :
    ∃ r w₁ w₂, (w.cleared part.agenda).Bypasses stream p w₁ ∧ w₁.Consistent ∧
      Runs ((part.worker opened).handle stream) w₁ r w₂ ∧ w₂.Bypasses stream p w' := by
  obtain ⟨before, after, hsplit, hothers⟩ := htidy.exists_split hdue
  have hall := runs_runDue h
  rw [World.due, hsplit] at hall
  obtain ⟨w₁, hbefore, hall⟩ := runs_handleAll_append hall
  obtain ⟨r, w₂, hhandle, hafter⟩ := runs_handleAll_cons hall
  obtain ⟨hfirst, hc₁⟩ := bypasses_handleAll hp
    (fun other hmem => hothers other (List.mem_append_left _ hmem)) (hc.idle (.cleared ..)) hbefore
  obtain ⟨hlast, -⟩ := bypasses_handleAll hp
    (fun other hmem => hothers other (List.mem_append_right _ hmem))
    (books_handle hc₁ hhandle).consistent hafter
  exact ⟨r, w₁, w₂, hfirst, hc₁, hhandle, hlast⟩

end Participant

end Chronicle
