import Chronicle.Proofs.Drawing
import Chronicle.Proofs.DueTimes

/-!
# Wake-ups for staged batches

A batch that is staged is merged when a worker takes its stream off an agenda. Taking it off comes
first, so that whatever keeps the batch from being merged has to put the stream back. `Attended`
says of a domain key that what is staged under it has a wake-up: its stream is on the agenda of one
of the nodes, and due within the age threshold.

Merging what is staged leaves its key attended whatever comes of it, and every other key as it was.
The one exception is a stream that cannot be loaded for good; it does not occur as long as what is
stored for it can be read.
-/

namespace Chronicle

variable {S : Type}

/-- The agendas of some nodes that share a staging area, and how long a batch waits there. -/
structure Rota where
  agendas : List Nat
  area : Nat
  threshold : Span

/-- A node takes part: it has one of the agendas, and never pulls no batch at all. -/
structure Rota.Includes (rota : Rota) (n : Node) : Prop where
  agenda : n.agenda ∈ rota.agendas
  area : n.area = rota.area
  threshold : n.ageThreshold = rota.threshold
  pullMax : n.settings.weakPullMax ≠ some 0

theorem Rota.Includes.delay_le {rota : Rota} {n : Node} (h : rota.Includes n) :
    n.ageThreshold ≤ rota.threshold :=
  Nat.le_of_eq (congrArg Span.nanos h.threshold)

namespace World

variable {rota : Rota} {n : Node} {opened : Moment} {w w' w'' : World} {key other : String}
  {stream : StreamRef}

/-- A stream with the domain key is on one of the agendas, and due within the threshold. -/
def Awaits (w : World) (rota : Rota) (key : String) : Prop :=
  ∃ a ∈ rota.agendas, ∃ (stream : StreamRef) (due : Span), stream.key .domain = key ∧
    (w.agenda a).dueTime stream = some due ∧ due ≤ w.elapsed + rota.threshold

/-- What is staged under a domain key has a wake-up. -/
def Attended (w : World) (rota : Rota) (key : String) : Prop :=
  w.queue rota.area key ≠ [] → w.Awaits rota key

theorem agenda_scheduled (w : World) (a b : Nat) (stream : StreamRef) (delay : Span) :
    (w.scheduled a stream delay).agenda b =
      if b = a then (w.agenda a).schedule stream (w.elapsed + delay) else w.agenda b := by
  by_cases hb : b = a
  · subst hb
    simp [scheduled, agenda]
  · simp [scheduled, agenda, Std.ExtTreeMap.getD_insert, Ne.symm hb, hb]

theorem agenda_cleared (w : World) (a b : Nat) :
    (w.cleared a).agenda b = if b = a then ((w.agenda a).takeDue w.elapsed).2 else w.agenda b := by
  by_cases hb : b = a
  · subst hb
    simp [cleared, agenda]
  · simp [cleared, agenda, Std.ExtTreeMap.getD_insert, Ne.symm hb, hb]

theorem dueTime_shuffled (w : World) (a b : Nat) (entries : List (StreamRef × Span))
    (stream : StreamRef) :
    ((w.shuffled a entries).agenda b).dueTime stream = (w.agenda b).dueTime stream := by
  by_cases hb : b = a
  · subst hb
    simp [shuffled, agenda]
  · simp [shuffled, agenda, Std.ExtTreeMap.getD_insert, Ne.symm hb]

theorem awaits_scheduled (w : World) (stream : StreamRef) {a : Nat} {delay : Span}
    (ha : a ∈ rota.agendas) (hdelay : delay ≤ rota.threshold) :
    (w.scheduled a stream delay).Awaits rota (stream.key .domain) := by
  obtain ⟨due, hdue, htime⟩ :=
    (w.agenda a).exists_dueTime_schedule_self stream (w.elapsed + delay)
  refine ⟨a, ha, stream, due, rfl, ?_, Nat.le_trans hdue (Nat.add_le_add_left hdelay _)⟩
  rw [agenda_scheduled, if_pos rfl]
  exact htime

namespace Awaits

theorem congr (h : w.Awaits rota key) (ht : w.Simultaneous w') : w'.Awaits rota key := by
  obtain ⟨a, ha, stream, due, hkey, htime, hdue⟩ := h
  have hagenda : w'.agenda a = w.agenda a := by
    rw [agenda, ht.agendas]
    rfl
  exact ⟨a, ha, stream, due, hkey, hagenda ▸ htime, ht.elapsed ▸ hdue⟩

protected theorem scheduled (h : w.Awaits rota key) (b : Nat) (other : StreamRef) (delay : Span) :
    (w.scheduled b other delay).Awaits rota key := by
  obtain ⟨a, ha, stream, due, hkey, htime, hdue⟩ := h
  by_cases hb : a = b
  · subst hb
    obtain ⟨known, hle, hknown⟩ :=
      Agenda.exists_dueTime_schedule htime other (w.elapsed + delay)
    refine ⟨a, ha, stream, known, hkey, ?_, Nat.le_trans hle hdue⟩
    rw [agenda_scheduled, if_pos rfl]
    exact hknown
  · refine ⟨a, ha, stream, due, hkey, ?_, hdue⟩
    rw [agenda_scheduled, if_neg hb]
    exact htime

protected theorem advance (h : w.Awaits rota key) (s : Span) : (w.advance s).Awaits rota key := by
  obtain ⟨a, ha, stream, due, hkey, htime, hdue⟩ := h
  refine ⟨a, ha, stream, due, hkey, htime, Nat.le_trans hdue ?_⟩
  exact Nat.add_le_add_right (Nat.le_add_right w.elapsed.nanos s.nanos) _

protected theorem shuffled (h : w.Awaits rota key) (b : Nat) (entries : List (StreamRef × Span)) :
    (w.shuffled b entries).Awaits rota key := by
  obtain ⟨a, ha, stream, due, hkey, htime, hdue⟩ := h
  exact ⟨a, ha, stream, due, hkey, (w.dueTime_shuffled ..).trans htime, hdue⟩

theorem cleared_or (h : w.Awaits rota key) (b : Nat) :
    (w.cleared b).Awaits rota key ∨ ∃ stream ∈ w.due b, stream.key .domain = key := by
  obtain ⟨a, ha, stream, due, hkey, htime, hdue⟩ := h
  by_cases hb : a = b
  · subst hb
    rcases Agenda.mem_takeDue_or htime w.elapsed with htaken | hstays
    · exact .inr ⟨stream, htaken, hkey⟩
    · refine .inl ⟨a, ha, stream, due, hkey, ?_, hdue⟩
      rw [agenda_cleared, if_pos rfl]
      exact hstays
  · refine .inl ⟨a, ha, stream, due, hkey, ?_, hdue⟩
    rw [agenda_cleared, if_neg hb]
    exact htime

end Awaits

/-- From one world to a later one in which nothing is less awaited than before, and which stages the
same under other domain keys. -/
structure Handles (rota : Rota) (key : String) (w w' : World) : Prop where
  stocked : w'.Stocked
  grows : ∀ k, w.log.events k <+: w'.log.events k
  awaits : ∀ k, w.Awaits rota k → w'.Awaits rota k
  elsewhere : ∀ k, k ≠ key → w'.queue rota.area k = w.queue rota.area k

namespace Handles

theorem of_works (h : w.Works w') (rota : Rota) (key : String) : w.Handles rota key w' where
  stocked := h.stocked
  grows := h.grows
  awaits _ ha := ha.congr h.time
  elsewhere k _ := queue_eq_of_areas h.areas rota.area k

theorem refl (h : w.Stocked) (rota : Rota) (key : String) : w.Handles rota key w :=
  of_works (.refl h) rota key

theorem trans (h : w.Handles rota key w') (h' : w'.Handles rota key w'') :
    w.Handles rota key w'' where
  stocked := h'.stocked
  grows k := (h.grows k).trans (h'.grows k)
  awaits k ha := h'.awaits k (h.awaits k ha)
  elsewhere k hk := (h'.elsewhere k hk).trans (h.elsewhere k hk)

theorem restaged (h : w.Stocked) (rota : Rota) (key : String)
    {messages : List (Staged ConflictBatch)} (hm : ∀ s ∈ messages, s.message.events ≠ []) :
    w.Handles rota key (w.restaged rota.area key messages) where
  stocked := h.restaged rota.area key hm
  grows _ := List.prefix_refl _
  awaits _ ha := ha
  elsewhere _ hk := queue_restaged_of_ne w rota.area hk messages

theorem scheduled (h : w.Stocked) (rota : Rota) (key : String) (a : Nat) (stream : StreamRef)
    (delay : Span) : w.Handles rota key (w.scheduled a stream delay) where
  stocked := h.mono (fun _ => List.prefix_refl _) rfl rfl
  grows _ := List.prefix_refl _
  awaits _ ha := ha.scheduled a stream delay
  elsewhere _ _ := rfl

theorem attended_of_ne (h : w.Handles rota key w') (hk : other ≠ key)
    (ha : w.Attended rota other) : w'.Attended rota other := by
  intro hq
  rw [h.elsewhere other hk] at hq
  exact h.awaits other (ha hq)

end Handles

variable {routes : Routes Id S} {e e' : Entity S} {current batch : List Event} {commitId : Uuid}
  {headers : Headers} {r : Except ResolveError Resolution}

private theorem handles_scheduled {delay : Span} {p : Prop} (hn : rota.Includes n) (hs : w.Stocked)
    (hkey : stream.key .domain = key) (hdelay : delay ≤ rota.threshold)
    (hp : p → w.queue rota.area key = [])
    (h : p ∧ w' = w ∨ Runs ((n.weak (site opened)).schedule stream delay) w () w') :
    w.Handles rota key w' ∧ w'.Attended rota key := by
  rcases h with ⟨hdone, rfl⟩ | h
  · exact ⟨.refl hs .., fun hq => absurd (hp hdone) hq⟩
  · obtain rfl := runs_schedule h
    subst hkey
    exact ⟨.scheduled hs .., fun _ => awaits_scheduled w stream hn.agenda hdelay⟩

/-- Merging pulled batches without another one draws on what the node loads then. -/
private theorem yields_alone {pulled : List (Staged ConflictBatch)} {fresh d : Entity S} {id : Uuid}
    {w₁ w₂ : World}
    (hload : Runs (loadEntity (n.store (site opened)) routes.lift stream).run w (.ok fresh) w₁)
    (hid : Runs (surroundings cell).freshId w₁ id w₂)
    (hmerge : Resolves (settleBatch (n.store (site opened)) (surroundings cell) routes.lift
      (stagedEvents pulled) id ∅ .resolveWeakly n.settings.freezeThreshold) fresh w₂ r d w')
    (hs : w.Stocked) :
    w.Works w' ∧ d.timeline.Drawn w'.log ∧ d.timeline.key .domain = stream.key .domain := by
  obtain ⟨hfound, rfl⟩ := runs_loadEntity.1 hload
  obtain ⟨i, rfl⟩ := runs_freshId hid
  have hviewed := Works.viewed hs n.cache stream
  have hissued := hviewed.trans (.issued hviewed.stocked i)
  obtain ⟨hkey, hdrawn⟩ := hs.loaded hfound.symm
  have hmerged := yields_of_settleBatch hmerge hissued.stocked (hdrawn.mono hissued.grows)
  exact ⟨hissued.trans hmerged.toWorks, hmerged.drawn, hmerged.key_domain.trans hkey⟩

private theorem works_unmerged {pulled : List (Staged ConflictBatch)}
    (h : (n.weak (site opened)).Unmerged routes pulled stream w w') (hs : w.Stocked) :
    w.Works w' := by
  cases h with
  | untried => exact .refl hs
  | unloaded hload =>
    obtain ⟨-, rfl⟩ := runs_loadEntity.1 hload
    exact .viewed hs ..
  | failed hload hid hmerge => exact (yields_alone hload hid hmerge hs).1

private theorem rest_of_pull {pulled : List (Staged ConflictBatch)} (hn : rota.Includes n)
    (h : Runs ((n.weak (site opened)).staging.pull weakChannel key n.settings.weakPullMax) w
      (.ok pulled) w') :
    ∃ rest, w.queue rota.area key = pulled ++ rest ∧ w' = w.restaged rota.area key rest ∧
      (pulled = [] → rest = []) := by
  obtain ⟨count, hpulled, rfl, hcount⟩ := runs_pull h
  cases hpulled
  rw [hn.area] at hcount ⊢
  refine ⟨_, (List.take_append_drop ..).symm, rfl, fun hnone => ?_⟩
  by_cases hq : w.queue rota.area key = []
  · rw [hq, List.drop_nil]
  · rcases List.take_eq_nil_iff.1 hnone with hzero | hnil
    · exact absurd hzero (Nat.ne_of_gt (hcount hn.pullMax hq))
    · exact absurd hnil hq

/-- Whatever becomes of the staged batches of an entity, its key is attended afterwards. -/
theorem handles_resolveStaged
    (h : Resolves ((n.weak (site opened)).resolveStaged routes.lift current commitId headers) e w
      r e' w') (hn : rota.Includes n) (hs : w.Stocked) (he : e.timeline.Drawn w.log) :
    w.Handles rota (e.timeline.key .domain) w' ∧ w'.Attended rota (e.timeline.key .domain) ∧
      e'.timeline.Drawn w'.log := by
  obtain ⟨waiting, pulled, w₁, w₂, hsize, hpull, hcourse⟩ :=
    WeakResolver.course_of_resolveStaged (granting_weak n opened) h
  obtain ⟨hwaiting, rfl⟩ := runs_size.1 hsize
  obtain ⟨rest, hqueue, rfl, hnone⟩ := rest_of_pull hn hpull
  rw [hn.area, hqueue, Except.ok.injEq] at hwaiting
  have hstaged : ∀ s ∈ pulled ++ rest, s.message.events ≠ [] := hqueue ▸ hs.staged rota.area _
  have hopen := Handles.restaged hs rota (e.timeline.key .domain) fun s hmem =>
    hstaged s (List.mem_append_right pulled hmem)
  have hdrawn := he.mono hopen.grows
  -- Either nothing remains in the group, and nobody has to wake up for it, or the stream is
  -- scheduled at the end: at once if others were waiting behind the pulled batches, else after the
  -- threshold.
  have hall : waiting ≤ pulled.length → rest = [] := by
    intro hle
    rw [hwaiting, List.length_append] at hle
    exact List.length_eq_zero_iff.1 (by omega)
  have hleft : ∀ {w₃ : World},
      w₃.areas = (w₁.restaged rota.area (e.timeline.key .domain) rest).areas →
        w₃.queue rota.area (e.timeline.key .domain) = rest := by
    intro w₃ hareas
    rw [queue_eq_of_areas hareas, queue_restaged]
  cases hcourse with
  | empty hevents =>
    have hnil : pulled = [] := by
      cases pulled with
      | nil => rfl
      | cons s others =>
        have hevents' := (List.append_eq_nil_iff.1 (List.append_eq_nil_iff.1 hevents).1).1
        exact absurd hevents' (hstaged s (List.mem_cons_self ..))
    refine ⟨hopen, fun hq => ?_, hdrawn⟩
    rw [queue_restaged] at hq
    exact absurd (hnone hnil) hq
  | together _ hmerge hscheduled =>
    have hmerged := yields_of_settleBatch hmerge hopen.stocked hdrawn
    obtain ⟨hleaves, hattended⟩ := handles_scheduled hn hmerged.stocked hmerged.key_domain
      (Nat.zero_le _) (fun hle => (hleft hmerged.areas).trans (hall hle)) hscheduled
    exact ⟨(hopen.trans (.of_works hmerged.toWorks ..)).trans hleaves, hattended,
      hmerged.drawn.mono hleaves.grows⟩
  | alone hmerge _ _ hload hid hagain hscheduled =>
    have hmerged := yields_of_settleBatch hmerge hopen.stocked hdrawn
    obtain ⟨hagainWorks, hagainDrawn, hkey⟩ := yields_alone hload hid hagain hmerged.stocked
    have hworks := hmerged.toWorks.trans hagainWorks
    obtain ⟨hleaves, hattended⟩ := handles_scheduled hn hworks.stocked
      (hkey.trans hmerged.key_domain) (Nat.zero_le _)
      (fun hle => (hleft hworks.areas).trans (hall hle)) hscheduled
    exact ⟨(hopen.trans (.of_works hworks ..)).trans hleaves, hattended,
      hagainDrawn.mono hleaves.grows⟩
  | refused hnil _ hmerge =>
    have hmerged := yields_of_settleBatch hmerge hopen.stocked hdrawn
    refine ⟨hopen.trans (.of_works hmerged.toWorks ..), fun hq => ?_, hmerged.drawn⟩
    rw [hleft hmerged.areas] at hq
    exact absurd (hnone hnil) hq
  | returned _ hmerge halone _ hrequeue hschedule =>
    have hmerged := yields_of_settleBatch hmerge hopen.stocked hdrawn
    have htried := works_unmerged halone hmerged.stocked
    have hworks := hmerged.toWorks.trans htried
    obtain ⟨-, rfl⟩ := runs_requeue.1 hrequeue
    rw [hn.area, hleft hworks.areas] at hschedule
    have hback := Handles.restaged hworks.stocked rota (e.timeline.key .domain) hstaged
    obtain ⟨hleaves, hattended⟩ := handles_scheduled hn hback.stocked hmerged.key_domain hn.delay_le
      False.elim (.inr hschedule)
    exact ⟨((hopen.trans (.of_works hworks ..)).trans hback).trans hleaves, hattended,
      ((hmerged.drawn.mono htried.grows).mono hback.grows).mono hleaves.grows⟩

theorem handles_weak
    (h : Resolves ((n.weak (site opened)).resolve routes.lift batch commitId headers) e w r e' w')
    (hn : rota.Includes n) (hbatch : batch ≠ []) (hs : w.Stocked) (he : e.timeline.Drawn w.log) :
    w.Handles rota (e.timeline.key .domain) w' ∧ w'.Attended rota (e.timeline.key .domain) ∧
      e'.timeline.Drawn w'.log := by
  obtain ⟨age, w₁, hage, hcourse⟩ := WeakResolver.course_of_resolve (granting_weak n opened) h
  obtain ⟨-, rfl⟩ := runs_age hage
  rcases hcourse with ⟨-, hmerge⟩ | ⟨delay, w₂, hadd, hschedule, hdelay, -, rfl⟩
  · exact handles_resolveStaged hmerge hn hs he
  · obtain ⟨-, i, id, received, rfl⟩ := runs_add hadd
    rw [hn.area] at hschedule
    have hissued := Works.issued hs i
    have hbehind : ∀ s ∈ w₁.queue rota.area (e'.timeline.key .domain) ++
        [⟨id, received, ⟨routes.entity, e'.parents, batch⟩⟩], s.message.events ≠ [] := by
      intro s hmem
      rcases List.mem_append.1 hmem with hold | hnew
      · exact hs.staged _ _ s hold
      · rw [List.mem_singleton.1 hnew]
        exact hbatch
    have hstaged := Handles.restaged hissued.stocked rota (e'.timeline.key .domain) hbehind
    obtain ⟨hleaves, hattended⟩ := handles_scheduled hn hstaged.stocked rfl
      (Nat.le_trans hdelay hn.delay_le) False.elim (.inr hschedule)
    exact ⟨((Handles.of_works hissued ..).trans hstaged).trans hleaves, hattended,
      ((he.mono hissued.grows).mono hstaged.grows).mono hleaves.grows⟩

/-- From one world to a later one in which nothing that is staged has lost its wake-up. -/
structure Tends (rota : Rota) (w w' : World) : Prop where
  stocked : w'.Stocked
  grows : ∀ key, w.log.events key <+: w'.log.events key
  attended : ∀ key, w.Attended rota key → w'.Attended rota key

namespace Tends

theorem of_works (h : w.Works w') (rota : Rota) : w.Tends rota w' where
  stocked := h.stocked
  grows := h.grows
  attended key ha hq := by
    rw [queue_eq_of_areas h.areas] at hq
    exact (ha hq).congr h.time

theorem trans (h : w.Tends rota w') (h' : w'.Tends rota w'') : w.Tends rota w'' where
  stocked := h'.stocked
  grows key := (h.grows key).trans (h'.grows key)
  attended key ha := h'.attended key (h.attended key ha)

theorem of_handles (h : w.Handles rota key w') (ha : w'.Attended rota key) : w.Tends rota w' where
  stocked := h.stocked
  grows := h.grows
  attended other hother := by
    by_cases hk : other = key
    · exact hk ▸ ha
    · exact h.attended_of_ne hk hother

end Tends

/-- A conflict is resolved, by whatever strategy, without a loss of wake-ups. -/
theorem tends_resolve {strategy : ConflictStrategy}
    (h : Resolves ((n.resolver (site opened) strategy).resolve routes.lift batch commitId headers)
      e w r e' w') (hn : rota.Includes n) (hbatch : batch ≠ []) (hs : w.Stocked)
    (he : e.timeline.Drawn w.log) :
    w.Tends rota w' ∧ ∀ resolution, r = .ok resolution → e'.timeline.Drawn w'.log := by
  cases strategy with
  | throw =>
    obtain ⟨rfl, rfl, rfl⟩ := resolves_throw.1 h
    exact ⟨.of_works (.refl hs) rota, nofun⟩
  | discard =>
    obtain ⟨rfl, rfl, rfl⟩ := resolves_pure.1 h
    exact ⟨.of_works (.refl hs) rota, fun _ _ => he⟩
  | ignore =>
    obtain ⟨hworks, hdrawn⟩ := works_of_ignoring h hs he
    exact ⟨.of_works hworks rota, hdrawn⟩
  | resolveStrongly =>
    have hyields := yields_of_settleBatch h hs he
    exact ⟨.of_works hyields.toWorks rota, fun _ _ => hyields.drawn⟩
  | resolveWeakly =>
    obtain ⟨hhandles, hattended, hdrawn⟩ := handles_weak h hn hbatch hs he
    exact ⟨.of_handles hhandles hattended, fun _ _ => hdrawn⟩

/-- A commit loses no wake-up, either, and the entity that it leaves is drawn from the log. -/
theorem Committed.tends {r : Except CommitError CommitOutcome}
    (h : Committed n opened routes.lift e commitId headers w (r, e') w') (hn : rota.Includes n)
    (hs : w.Stocked) (he : e.timeline.Drawn w.log) :
    w.Tends rota w' ∧ e'.timeline.Drawn w'.log := by
  cases h with
  | clean | unrecorded => exact ⟨.of_works (.refl hs) rota, he⟩
  | held _ hstaged => exact ⟨.of_works (.refl hs) rota, he.continues (continues_staged hstaged).1⟩
  | written _ hstaged hwrote =>
    have hdrawn := he.continues (continues_staged hstaged).1
    obtain ⟨hworks, hsettled⟩ := Works.wrote hs hdrawn hwrote
    exact ⟨.of_works hworks rota, hsettled _ rfl⟩
  | @conflict e₁ _ _ _ hstaged hpending _ hresolve =>
    have hdrawn := he.continues (continues_staged hstaged).1
    have hforgot := Works.forget hs n.cache (e₁.timeline.key .domain)
    have hviewed := hforgot.trans (.viewed hforgot.stocked n.cache e₁.timeline.stream)
    rcases runs_resolveConflict hresolve with ⟨_, -, -, rfl, rfl⟩ |
      ⟨fresh, result, d, hfound, hresolves, hend⟩
    · exact ⟨.of_works hviewed rota, hdrawn.mono hviewed.grows⟩
    · have hbatch : e₁.timeline.batch ≠ [] := by simp [Timeline.batch, hpending]
      obtain ⟨-, hfresh⟩ := hforgot.stocked.loaded hfound
      obtain ⟨htends, hmerged⟩ :=
        tends_resolve hresolves hn hbatch hviewed.stocked (hfresh.mono (by simp))
      refine ⟨(Tends.of_works hviewed rota).trans htends, ?_⟩
      rcases hend with ⟨resolution, hok, -, rfl⟩ | ⟨_, -, -, rfl⟩
      · exact hmerged resolution hok
      · exact (hdrawn.mono hviewed.grows).mono htends.grows

/-- A stream that is handled is attended afterwards, if what is stored for it can be read. -/
theorem handles_handleStaged
    (h : Runs ((n.weak (site opened)).handleStaged routes.lift stream) w r w')
    (hn : rota.Includes n) (hs : w.Stocked) :
    w.Handles rota (stream.key .domain) w' ∧
      (w'.log.Decodes routes stream → w'.Attended rota (stream.key .domain)) := by
  have hviewed := Works.viewed hs n.cache stream
  rcases runs_handleStaged h with ⟨err, hfound, -, ⟨hfinal, rfl⟩ | hschedule⟩ |
    ⟨e, i, commitId, e', hfound, hresolve⟩
  · refine ⟨.of_works hviewed .., fun hdecodes => ?_⟩
    rw [hs.isTransient_of_loaded (hdecodes.of_grows hviewed.grows) hfound] at hfinal
    cases hfinal
  · obtain ⟨hleaves, hattended⟩ :=
      handles_scheduled hn hviewed.stocked rfl hn.delay_le False.elim (.inr hschedule)
    exact ⟨(Handles.of_works hviewed ..).trans hleaves, fun _ => hattended⟩
  · have hissued := hviewed.trans (.issued hviewed.stocked i)
    obtain ⟨hkey, hdrawn⟩ := hs.loaded hfound
    obtain ⟨hhandles, hattended, -⟩ :=
      handles_resolveStaged hresolve hn hissued.stocked (hdrawn.mono hissued.grows)
    rw [hkey] at hhandles hattended
    exact ⟨(Handles.of_works hissued ..).trans hhandles, fun _ => hattended⟩

theorem Attended.cleared_or (h : w.Attended rota key) (a : Nat) :
    (w.cleared a).Attended rota key ∨ ∃ stream ∈ w.due a, stream.key .domain = key := by
  by_cases hq : w.queue rota.area key = []
  · exact .inl fun hne => absurd hq hne
  · exact ((h hq).cleared_or a).imp_left fun hawaits _ => hawaits

end World

variable {C : Catalog} {rota : Rota}

namespace Participant

variable {p : Participant C} {opened : Moment} {w w' : World} {log log' : EventLog}
  {stream : StreamRef}

/-- The kind of a stream is registered with the worker, and what is stored for it can be read by the
routes of the kind. -/
def Knows (p : Participant C) (log : EventLog) (stream : StreamRef) : Prop :=
  ∃ kind, p.kind? stream.entity = some kind ∧ log.Decodes (C.routes kind) stream

theorem Knows.of_grows (h : p.Knows log' stream)
    (hg : ∀ key, log.events key <+: log'.events key) : p.Knows log stream := by
  obtain ⟨kind, hkind, hdecodes⟩ := h
  exact ⟨kind, hkind, hdecodes.of_grows hg⟩

theorem handles_handle {r : Except ResolveError Resolution}
    (h : Runs ((p.worker opened).handle stream) w r w') (hn : rota.Includes p.node)
    (hs : w.Stocked) :
    w.Handles rota (stream.key .domain) w' ∧
      (p.Knows w'.log stream → w'.Attended rota (stream.key .domain)) := by
  rcases runs_handle h with ⟨hnone, rfl⟩ | ⟨kind, hkind, hhandled⟩
  · refine ⟨.refl hs .., ?_⟩
    rintro ⟨kind, hkind, -⟩
    cases hnone.symm.trans hkind
  · obtain ⟨hhandles, hattended⟩ := World.handles_handleStaged hhandled hn hs
    refine ⟨hhandles, ?_⟩
    rintro ⟨known, hknown, hdecodes⟩
    cases hkind.symm.trans hknown
    exact hattended hdecodes

/-- A worker that knows all streams that it handles leaves them attended. -/
theorem attended_handleAll {streams : List StreamRef} {u : Unit}
    (h : Runs ((p.worker opened).handleAll streams) w u w') (hn : rota.Includes p.node)
    (hs : w.Stocked) :
    w'.Stocked ∧ (∀ key, w.log.events key <+: w'.log.events key) ∧
      ((∀ stream ∈ streams, p.Knows w'.log stream) → ∀ key,
        (w.Attended rota key ∨ ∃ stream ∈ streams, stream.key .domain = key) →
          w'.Attended rota key) := by
  induction streams generalizing w with
  | nil =>
    obtain ⟨-, rfl⟩ := runs_pure.1 h
    exact ⟨hs, fun _ => List.prefix_refl _, fun _ key hkey => hkey.elim id (by simp)⟩
  | cons stream rest ih =>
    obtain ⟨r, w₁, hfirst, hrest⟩ := runs_handleAll_cons h
    obtain ⟨hhandles, hattended⟩ := handles_handle hfirst hn hs
    obtain ⟨hstocked, hgrows, hall⟩ := ih hrest hhandles.stocked
    refine ⟨hstocked, fun key => (hhandles.grows key).trans (hgrows key), ?_⟩
    intro hknows key hkey
    obtain ⟨hhere, hothers⟩ := List.forall_mem_cons.1 hknows
    -- What can be read in the end could be read when the first stream was handled.
    refine hall hothers key ?_
    by_cases hk : key = stream.key .domain
    · exact .inl (hk ▸ hattended (hhere.of_grows hgrows))
    · rcases hkey with hbefore | ⟨other, hmem, hother⟩
      · exact .inl (hhandles.attended_of_ne hk hbefore)
      · rcases List.mem_cons.1 hmem with rfl | hmem
        · exact absurd hother.symm hk
        · exact .inr ⟨other, hmem, hother⟩

theorem tends_runDue {count : Nat} (h : Runs (p.worker opened).runDue w count w')
    (hn : rota.Includes p.node) (hs : w.Stocked)
    (hknows : ∀ stream ∈ w.due p.agenda, p.Knows w'.log stream) : w.Tends rota w' := by
  have hcleared : (w.cleared p.agenda).Stocked := hs.mono (fun _ => List.prefix_refl _) rfl rfl
  obtain ⟨hstocked, hgrows, hattended⟩ := attended_handleAll (runs_runDue h) hn hcleared
  exact ⟨hstocked, hgrows, fun key ha => hattended hknows key (ha.cleared_or p.agenda)⟩

end Participant

/-- What a cluster is told to do: an operation, or to give a batch to the weak resolver of a
participant, with the entity of a slot. -/
inductive Command (C : Catalog) where
  | operation (operation : Operation C)
  | resolve (p : Participant C) (slot : Nat) (batch : List Event) (commitId : Uuid)
      (headers : Headers)

/-- Whoever stages batches or handles them is one of the nodes, and no batch is empty. -/
def Command.Fits (nodes : List (Participant C)) : Command C → Prop
  | .operation (.commit p _ _ _) => p ∈ nodes
  | .operation (.runDue p) => p ∈ nodes
  | .operation _ => True
  | .resolve p _ batch _ _ => p ∈ nodes ∧ batch ≠ []

/-- A worker that handles what is due in the cluster `c` knows all of it, as it is stored in `c'`
afterwards. -/
def Command.Known (c c' : Cluster C) : Command C → Prop
  | .operation (.runDue p) => ∀ stream ∈ c.world.due p.agenda, p.Knows c'.world.log stream
  | _ => True

namespace Cluster

variable {c c' : Cluster C} {opened wall : Moment} {world : World} {nodes : List (Participant C)}

def perform (opened : Moment) (c : Cluster C) : Command C → Cluster C
  | .operation operation => c.step opened operation
  | .resolve p slot batch commitId headers =>
    match c.slots[slot]? with
    | none => c
    | some ⟨kind, e⟩ =>
      let ((_, e'), world) := (((p.node.weak (World.site opened)).resolve (C.routes kind).lift batch
        commitId headers).run.run e).run c.world
      { c with world, slots := c.slots.set slot ⟨kind, e'⟩ }

def performAll (opened : Moment) (c : Cluster C) (commands : List (Command C)) : Cluster C :=
  commands.foldl (perform opened) c

/-- Every entity in use is drawn from the log, and everything that is staged has a wake-up. -/
structure Tended (rota : Rota) (c : Cluster C) : Prop where
  stocked : c.world.Stocked
  drawn : ∀ s ∈ c.slots, s.entity.timeline.Drawn c.world.log
  attended : ∀ key, c.world.Attended rota key

namespace Tended

protected theorem start (rota : Rota) (wall : Moment) : (start wall : Cluster C).Tended rota where
  stocked := .start wall
  drawn := by simp [Cluster.start]
  attended key hq := by simp [Cluster.start, World.queue, World.start, World.area] at hq

theorem move (h : c.Tended rota) (ht : c.world.Tends rota world) {slots : List (LiveEntity C)}
    (hslots : ∀ s ∈ slots, s ∈ c.slots ∨ s.entity.timeline.Drawn world.log)
    (receipts : List Receipt) : (⟨world, slots, receipts⟩ : Cluster C).Tended rota where
  stocked := ht.stocked
  drawn s hs := (hslots s hs).elim (fun hold => (h.drawn s hold).mono ht.grows) id
  attended key := ht.attended key (h.attended key)

theorem move_set (h : c.Tended rota) (ht : c.world.Tends rota world) (slot : Nat) {kind : C.Kind}
    {e : Entity (C.State kind)} (he : e.timeline.Drawn world.log) (receipts : List Receipt) :
    (⟨world, c.slots.set slot ⟨kind, e⟩, receipts⟩ : Cluster C).Tended rota := by
  refine h.move ht (fun s hs => ?_) receipts
  rcases List.mem_or_eq_of_mem_set hs with hold | rfl
  · exact .inl hold
  · exact .inr he

theorem keep {ε : Type} {kind : C.Kind} {found : Except ε (Entity (C.State kind))}
    (h : c.Tended rota) (ht : c.world.Tends rota world)
    (hfound : ∀ e, found = .ok e → e.timeline.Drawn world.log) :
    (c.keep kind found world).Tended rota := by
  cases found with
  | error err => exact h.move ht (fun _ hs => .inl hs) _
  | ok e =>
    refine h.move ht (fun s hs => ?_) _
    rcases List.mem_append.1 hs with hold | hnew
    · exact .inl hold
    · rw [List.mem_singleton.1 hnew]
      exact .inr (hfound e rfl)

theorem record (h : c.Tended rota) (slot : Nat)
    {f : (kind : C.Kind) → Entity (C.State kind) → Stamp →
      Except RouteError (Entity (C.State kind))}
    (hf : ∀ kind e stamp e', f kind e stamp = .ok e' → e.timeline.Continues e'.timeline) :
    (c.record slot f).Tended rota := by
  unfold Cluster.record
  cases hslot : c.slots[slot]? with
  | none => exact h
  | some s =>
    obtain ⟨kind, e⟩ := s
    obtain ⟨stamp, world, hstamp⟩ := Runs.total (World.surroundings World.cell).stamp c.world
    obtain ⟨i, rfl⟩ := World.runs_stamp hstamp
    have hissued := World.Works.issued h.stocked i
    simp only [hstamp.run_eq]
    cases he : f kind e stamp with
    | error err => exact h.move (.of_works hissued rota) (fun _ hs => .inl hs) _
    | ok e' =>
      have hdrawn := (h.drawn _ (List.mem_of_getElem? hslot)).continues (hf kind e stamp e' he)
      exact h.move_set (.of_works hissued rota) slot hdrawn _

private theorem loaded (h : c.Tended rota) {n : Node} {kind : C.Kind} {stream : StreamRef}
    {found : Except LoadError (Entity (C.State kind))}
    (hl : Runs (loadEntity (n.store (World.site opened)) (C.routes kind).lift stream).run c.world
      found world) : (c.keep kind found world).Tended rota := by
  obtain ⟨rfl, rfl⟩ := World.runs_loadEntity.1 hl
  have hviewed := World.Works.viewed h.stocked n.cache stream
  exact h.keep (.of_works hviewed rota) fun e he => (h.stocked.loaded he).2.mono hviewed.grows

private theorem made (h : c.Tended rota) {kind : C.Kind} {stream : StreamRef} :
    (c.keep kind (Entity.ofTimeline ((C.routes kind).lift : Routes (StateM World) (C.State kind))
      (.empty stream)) c.world).Tended rota :=
  h.keep (.of_works (.refl h.stocked) rota) fun e he => by
    rw [Entity.timeline_ofTimeline he]
    exact .empty stream _

private theorem annotated (h : c.Tended rota)
    (data : Std.ExtTreeMap String (Int × StreamMetadata)) :
    Tended rota { c with world := c.world.annotated data } :=
  h.move (.of_works (.annotated h.stocked data) rota) (fun _ hs => .inl hs) _

end Tended

theorem Moves.tended {operation : Operation C} (hm : c.Moves opened operation c')
    (h : c.Tended rota) (hnodes : ∀ p ∈ nodes, rota.Includes p.node)
    (hfits : Command.Fits nodes (.operation operation))
    (hknown : Command.Known c c' (.operation operation)) : c'.Tended rota := by
  cases hm with
  | idle => exact h
  | loaded hload => exact h.loaded hload
  | made => exact h.made
  | applied => exact h.record _ fun _ _ _ _ he => .of_apply he
  | raised => exact h.record _ fun _ _ _ _ he => .of_raise he
  | committed hslot hcommit =>
    obtain ⟨htends, hdrawn⟩ := (World.committed_of_runs hcommit).tends (hnodes _ hfits) h.stocked
      (h.drawn _ (List.mem_of_getElem? hslot))
    exact h.move_set htends _ hdrawn _
  | handled hdue =>
    have htends := Participant.tends_runDue hdue (hnodes _ hfits) h.stocked hknown
    exact h.move htends (fun _ hs => .inl hs) _
  | frozen hfreeze =>
    obtain ⟨data, rfl⟩ := World.runs_freeze hfreeze
    exact h.annotated data
  | released hunfreeze =>
    obtain ⟨-, data, rfl⟩ := World.runs_unfreeze hunfreeze
    exact h.annotated data
  | @advanced span =>
    refine ⟨h.stocked.mono (fun _ => List.prefix_refl _) rfl rfl, h.drawn, fun key hq => ?_⟩
    exact (h.attended key hq).advance span
  | set => exact ⟨h.stocked.mono (fun _ => List.prefix_refl _) rfl rfl, h.drawn, h.attended⟩
  | @shuffled agenda entries =>
    refine ⟨h.stocked.mono (fun _ => List.prefix_refl _) rfl rfl, h.drawn, fun key hq => ?_⟩
    exact (h.attended key hq).shuffled agenda entries

theorem tended_perform (opened : Moment) (h : c.Tended rota) {command : Command C}
    (hnodes : ∀ p ∈ nodes, rota.Includes p.node) (hfits : command.Fits nodes)
    (hknown : command.Known c (c.perform opened command)) :
    (c.perform opened command).Tended rota := by
  cases command with
  | operation operation => exact (moves_step opened c operation).tended h hnodes hfits hknown
  | resolve p slot batch commitId headers =>
    simp only [perform]
    cases hslot : c.slots[slot]? with
    | none => exact h
    | some s =>
      obtain ⟨kind, e⟩ := s
      obtain ⟨⟨r, e'⟩, world, hresolve⟩ := Runs.total (((p.node.weak (World.site opened)).resolve
        (C.routes kind).lift batch commitId headers).run.run e) c.world
      obtain ⟨hhandles, hattended, hdrawn⟩ := World.handles_weak hresolve (hnodes p hfits.1) hfits.2
        h.stocked (h.drawn _ (List.mem_of_getElem? hslot))
      simp only [hresolve.run_eq]
      exact h.move_set (.of_handles hhandles hattended) slot hdrawn _

/-- Nor does any number of commands, in any order. -/
theorem tended_performAll (opened : Moment) (h : c.Tended rota) {commands : List (Command C)}
    (hnodes : ∀ p ∈ nodes, rota.Includes p.node) (hfits : ∀ command ∈ commands, command.Fits nodes)
    (hknown : ∀ pre command, pre ++ [command] <+: commands → command.Known
      (c.performAll opened pre) (c.performAll opened (pre ++ [command]))) :
    (c.performAll opened commands).Tended rota := by
  induction commands generalizing c with
  | nil => exact h
  | cons command rest ih =>
    obtain ⟨hfit, hothers⟩ := List.forall_mem_cons.1 hfits
    have hfirst := tended_perform opened h hnodes hfit (hknown [] command (by simp))
    refine ih hfirst hothers fun pre other hpre => ?_
    exact hknown (command :: pre) other (List.cons_prefix_cons.2 ⟨rfl, hpre⟩)

/-- Any number of nodes share a log and a staging area, let a batch wait equally long, and know the
streams that they handle. Whatever they were told to do, in any order, a domain key under which
something is staged has a wake-up: a stream with the key is on the agenda of one of the nodes, and
due within the age threshold. -/
theorem awaited_of_staged (opened wall : Moment) {nodes : List (Participant C)} {threshold : Span}
    {commands : List (Command C)}
    (hnodes : ∀ p ∈ nodes, p.node.ageThreshold = threshold ∧ p.settings.weakPullMax ≠ some 0)
    (hfits : ∀ command ∈ commands, command.Fits nodes)
    (hknown : ∀ pre command, pre ++ [command] <+: commands → command.Known
      ((start wall).performAll opened pre) ((start wall).performAll opened (pre ++ [command]))) :
    let w := ((start wall).performAll opened commands).world
    ∀ key, w.queue sharedArea key ≠ [] → ∃ p ∈ nodes, ∃ (stream : StreamRef) (due : Span),
      stream.key .domain = key ∧ (w.agenda p.agenda).dueTime stream = some due ∧
        due ≤ w.elapsed + threshold := by
  intro w key hstaged
  have hincludes : ∀ p ∈ nodes,
      Rota.Includes ⟨nodes.map (·.agenda), sharedArea, threshold⟩ p.node := by
    intro p hp
    obtain ⟨hage, hmax⟩ := hnodes p hp
    exact ⟨List.mem_map_of_mem hp, rfl, hage, hmax⟩
  have htended := tended_performAll opened (.start _ wall) hincludes hfits hknown
  obtain ⟨a, ha, stream, due, hkey, htime, hdue⟩ := htended.attended key hstaged
  obtain ⟨p, hp, rfl⟩ := List.mem_map.1 ha
  exact ⟨p, hp, stream, due, hkey, htime, hdue⟩

def patient (i : Nat) : Participant tallies :=
  { teller i with settings := { (teller i).settings with weakPullMax := some 1 } }

def looseStep : List Event :=
  ((Timeline.empty tallyStream).add ⟨.numbered 200, .epoch⟩ Samples.Step.type.kind
    (.ofFields [("n", .int 5)]) ∅).pending

/-- A step of two is stored. One teller then stages a step of three, which knows nothing of it, and
the other one a loose step, and a minute passes. -/
def twoBatches : List (Command tallies) :=
  [.operation (.newEntity (patient 0) () "t-1"), .operation (.newEntity (patient 1) () "t-1"),
    .operation (stepBy 0 2), .operation (.commit (patient 0) 0 (.numbered 100) ∅),
    .operation (stepBy 1 3), .operation (.commit (patient 1) 1 (.numbered 101) ∅),
    .resolve (patient 0) 0 looseStep (.numbered 102) ∅, .operation (.advance (.ofSeconds 60))]

def oneBatchLeft : List (Command tallies) := twoBatches ++ [.operation (.runDue (patient 1))]

theorem reads_tally {event : Event} (hkind : event.kind = Samples.Step.type.kind)
    (h : (Samples.Step.type.decode event.payload).toOption.isSome) :
    (tallies.routes ()).Reads event := by
  intro route hroute
  rw [hkind] at hroute
  cases Std.ExtTreeMap.getElem?_insert_self.symm.trans hroute
  cases hdecode : Samples.Step.type.decode event.payload with
  | ok e => exact ⟨_, congrArg (Except.map Samples.Tally.step) hdecode⟩
  | error err => simp [hdecode, Except.toOption] at h

theorem decodes_oneBatchLeft :
    ((start .epoch).performAll .epoch oneBatchLeft).world.log.Decodes (tallies.routes ())
      tallyStream := by
  obtain ⟨w, hw⟩ : ∃ w, w = ((start .epoch).performAll .epoch oneBatchLeft).world := ⟨_, rfl⟩
  have hstored : (∀ event ∈ w.log.events (tallyStream.key .domain),
        event.kind = Samples.Step.type.kind ∧
          (Samples.Step.type.decode event.payload).toOption.isSome) ∧
      w.log.events (tallyStream.key .snapshot) = [] := by
    rw [hw]
    decide +kernel
  rw [← hw]
  exact ⟨fun event hevent => reads_tally (hstored.1 event hevent).1 (hstored.1 event hevent).2,
    by simp [hstored.2]⟩

theorem known_oneBatchLeft : ∀ pre command, pre ++ [command] <+: oneBatchLeft → command.Known
    ((start .epoch).performAll .epoch pre)
    ((start .epoch).performAll .epoch (pre ++ [command])) := by
  intro pre command hpre
  rcases List.prefix_concat_iff.1 hpre with hall | hbefore
  · obtain ⟨rfl, hlast⟩ := List.append_singleton_inj.1 hall
    cases hlast
    have hdue : ((start .epoch).performAll .epoch twoBatches).world.due 1 = [tallyStream] := by
      decide +kernel
    intro stream hstream
    change stream ∈ ((start .epoch).performAll .epoch twoBatches).world.due 1 at hstream
    rw [hdue, List.mem_singleton] at hstream
    rw [hstream]
    exact ⟨(), rfl, decodes_oneBatchLeft⟩
  · have hquiet : ∀ other ∈ twoBatches, ∀ c c' : Cluster tallies, other.Known c c' := by
      simp [twoBatches, stepBy, Command.Known]
    exact hquiet command (hbefore.subset (by simp)) _ _

/-- The batch that is left has a wake-up. -/
theorem awaited_oneBatchLeft :
    let w := ((start .epoch).performAll .epoch oneBatchLeft).world
    (w.queue sharedArea (tallyStream.key .domain)).length = 1 ∧
      ∃ p ∈ [patient 0, patient 1], ∃ (stream : StreamRef) (due : Span),
        stream.key .domain = tallyStream.key .domain ∧
          (w.agenda p.agenda).dueTime stream = some due ∧ due ≤ w.elapsed + .ofSeconds 30 := by
  intro w
  have hlength : (w.queue sharedArea (tallyStream.key .domain)).length = 1 := by
    decide +kernel
  have hnodes : ∀ p ∈ [patient 0, patient 1],
      p.node.ageThreshold = .ofSeconds 30 ∧ p.settings.weakPullMax ≠ some 0 := by
    decide
  have hfits : ∀ command ∈ oneBatchLeft, command.Fits [patient 0, patient 1] := by
    simp [oneBatchLeft, twoBatches, stepBy, Command.Fits, looseStep]
  refine ⟨hlength, awaited_of_staged .epoch .epoch hnodes hfits known_oneBatchLeft _ fun hnil => ?_⟩
  simp [w, hnil] at hlength

end Cluster

end Chronicle
