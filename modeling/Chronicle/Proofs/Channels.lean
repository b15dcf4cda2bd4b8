import Mathlib.Algebra.GroupWithZero.Nat
import Mathlib.Data.List.Nodup
import Chronicle.Proofs.Editing
import Chronicle.Proofs.Restating

/-!
# Out-of-band events by channel

An out-of-band event is raised on a channel, and its headers name that channel from then on,
whatever they named before. The batches of a timeline are made from two things that are kept apart:
the known channels, which outlast settling and reverting, and the headers of the pending events. The
two agree after any edits. So the batches part what is pending by channel: no event is left out,
none is in two batches, and those of one channel keep the order in which they were raised.
-/

namespace Chronicle.Timeline

/-- What was raised, after one more edit, each event with the channel that it was raised on. -/
def raise (stream : StreamRef) (raised : List (String × Event)) : Change → List (String × Event)
  | .addOob stamp kind payload channel headers =>
    raised ++ [(channel, (empty stream).draft .oob newStreamVersion stamp kind payload
      (headers.insert Headers.oob channel))]
  | .settle | .revert => []
  | .add .. | .addSnapshot .. => raised

/-- What was raised in some edits since the last one that settles or reverts. -/
def raised (stream : StreamRef) (list : List Change) : List (String × Event) :=
  list.foldl (raise stream) []

theorem raised_concat (stream : StreamRef) (list : List Change) (e : Change) :
    raised stream (list ++ [e]) = raise stream (raised stream list) e := by
  simp [raised]

theorem pendingOobs_edits {t : Timeline} (ht : t.pendingOobs = []) (list : List Change) :
    (t.edits list).pendingOobs = (raised t.stream list).map Prod.snd := by
  induction list using List.reverseRecOn with
  | nil => exact ht
  | append_singleton list e ih =>
    rw [edits_concat, raised_concat]
    cases e with
    | add | addSnapshot => exact ih
    | settle | revert => rfl
    | addOob stamp kind payload channel headers =>
      rw [raise, List.map_append, ← ih]
      simp only [Timeline.edit, Timeline.addOob, draft, stream_edits, List.map_cons, List.map_nil]
      rfl

theorem channel?_of_mem_raised {stream : StreamRef} {list : List Change} {p : String × Event}
    (hp : p ∈ raised stream list) : p.2.channel? = some p.1 := by
  induction list using List.reverseRecOn with
  | nil => cases hp
  | append_singleton list e ih =>
    rw [raised_concat] at hp
    cases e with
    | add | addSnapshot => exact ih hp
    | settle | revert => cases hp
    | addOob stamp kind payload channel headers =>
      rcases List.mem_append.1 hp with hp | hp
      · exact ih hp
      · rw [List.mem_singleton.1 hp]
        simp [Event.channel?, draft]

theorem onChannel_raised (channel : String) (stream : StreamRef) (list : List Change) :
    onChannel channel ((raised stream list).map Prod.snd) =
      ((raised stream list).filter fun p => p.1 = channel).map Prod.snd := by
  rw [onChannel, List.filter_map]
  congr 1
  refine List.filter_congr fun p hp => ?_
  by_cases h : p.1 = channel <;> simp [channel?_of_mem_raised hp, h]

theorem oobBatches_eq (t : Timeline) :
    t.oobBatches = (t.channels.filter fun c => !(t.oobsOf c.id).isEmpty).map
      fun c => (t.stream.channelKey c.id, t.oobsOf c.id) := by
  unfold oobBatches
  induction t.channels with
  | nil => rfl
  | cons c cs ih =>
    cases hc : t.oobsOf c.id with
    | nil => simp [hc, ih]
    | cons e es => simp [hc, ih]

theorem mem_oobBatches_iff {t : Timeline} {batch : String × List Event} :
    batch ∈ t.oobBatches ↔ ∃ c ∈ t.channels, t.oobsOf c.id ≠ [] ∧
      batch = (t.stream.channelKey c.id, t.oobsOf c.id) := by
  simp only [oobBatches_eq, List.mem_map, List.mem_filter, Bool.not_eq_true',
    List.isEmpty_eq_false_iff, and_assoc, eq_comm (a := batch)]

namespace Sound

variable {t : Timeline}

theorem nodup_oobBatches (h : t.Sound) : (t.oobBatches.map Prod.fst).Nodup := by
  have hnames : ((t.channels.filter fun c => !(t.oobsOf c.id).isEmpty).map Channel.id).Nodup :=
    h.channels.sublist (List.filter_sublist.map _)
  have hkeys := List.Nodup.map (fun _ _ hk => t.stream.channelKey_injective hk) hnames
  rw [List.map_map] at hkeys
  rw [oobBatches_eq, List.map_map]
  exact hkeys

/-- A pending out-of-band event is in the batch of the channel that it names, and in no other. -/
theorem existsUnique_batch (h : t.Sound) {e : Event} (he : e ∈ t.pendingOobs) :
    ∃! batch, batch ∈ t.oobBatches ∧ e ∈ batch.2 := by
  obtain ⟨-, c, hc, hchannel⟩ := h.oobs e he
  have hmem : e ∈ t.oobsOf c.id := List.mem_filter.2 ⟨he, by simp [hchannel]⟩
  refine ⟨(t.stream.channelKey c.id, t.oobsOf c.id),
    ⟨mem_oobBatches_iff.2 ⟨c, hc, List.ne_nil_of_mem hmem, rfl⟩, hmem⟩, ?_⟩
  rintro batch ⟨hbatch, hin⟩
  obtain ⟨c', -, -, rfl⟩ := mem_oobBatches_iff.1 hbatch
  have hnamed := (List.mem_filter.1 hin).2
  rw [hchannel, beq_iff_eq, Option.some.injEq] at hnamed
  rw [hnamed]

theorem sum_length_oobBatches (h : t.Sound) :
    (t.oobBatches.map fun batch => batch.2.length).sum = t.pendingOobs.length := by
  rw [← h.oobBatches_perm.length_eq, List.length_flatMap]

end Sound

/-- The batches of a timeline part what was raised by channel. -/
structure Parted (t : Timeline) (raised : List (String × Event)) : Prop where
  pending : t.pendingOobs = raised.map Prod.snd
  once : ∀ e ∈ t.pendingOobs, ∃! batch, batch ∈ t.oobBatches ∧ e ∈ batch.2
  inhabited : ∀ batch ∈ t.oobBatches, batch.2 ≠ []
  keys : (t.oobBatches.map Prod.fst).Nodup
  /-- A batch stands under the key of a channel, and holds what was raised on it in order. -/
  batch : ∀ batch ∈ t.oobBatches, ∃ channel, batch.1 = t.stream.channelKey channel ∧
    batch.2 = (raised.filter fun p => p.1 = channel).map Prod.snd
  count : (t.oobBatches.map fun batch => batch.2.length).sum = t.pendingOobs.length

/-- After any edits of any history, the batches part by channel what was raised since the timeline
was settled or reverted last. -/
theorem parted_of_edits (stream : StreamRef) (history : List Event) (snapshot : Option Snapshot)
    (list : List Change) :
    ((ofHistory stream history snapshot).edits list).Parted (raised stream list) := by
  have hsound := (sound_ofHistory stream history snapshot).edits list
  have hpending : ((ofHistory stream history snapshot).edits list).pendingOobs =
      (raised stream list).map Prod.snd := pendingOobs_edits rfl list
  refine ⟨hpending, fun e => hsound.existsUnique_batch,
    fun batch hbatch => (mem_oobBatches hbatch).1,
    hsound.nodup_oobBatches, fun batch hbatch => ?_, hsound.sum_length_oobBatches⟩
  obtain ⟨c, -, -, rfl⟩ := mem_oobBatches_iff.1 hbatch
  refine ⟨c.id, rfl, ?_⟩
  rw [← onChannel_raised, ← hpending]
  rfl

/-- The channel that an event is raised on counts, and not the one that its headers named. -/
example : ((ofHistory ⟨"tally", "default", "t-1", []⟩ [] none).edits
    [.addOob ⟨.nil, .epoch⟩ "tally.noted" .null "audit" ∅,
      .addOob ⟨.nil, .epoch⟩ "tally.noted" .null "export"
        ((∅ : Headers).insert Headers.oob "audit"),
      .addOob ⟨.nil, .epoch⟩ "tally.noted" .null "audit" ∅]).oobBatches.map
        (fun batch => (batch.1, batch.2.length)) =
      [("OOB-default-[]-tally-t-1.audit", 2), ("OOB-default-[]-tally-t-1.export", 1)] := by
  decide +kernel

end Chronicle.Timeline
