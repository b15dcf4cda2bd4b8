import Mathlib.Data.List.DropRight
import Mathlib.Data.List.Induction
import Chronicle.Proofs.WorkingCopies

/-!
# Edits of a timeline

A timeline starts from a history and is edited: events and snapshots are added to what is pending,
and from time to time all of that is settled or forgotten. If the versions of the history are
consecutive and come right after its snapshot, the parts of the timeline fit together after any
number of edits. The settled events are consecutive up to the settled version, the pending ones go
on from there, and no snapshot is on the wrong side of either version.

Whatever was added, reverting leads back to the timeline that was settled last, but for the channels
that became known in the meantime.

Versions come to an end, and an edit that would go beyond it fails. Nothing else can go wrong.
-/

namespace Chronicle.Timeline

/-- What can be done to a timeline. -/
inductive Change where
  | add (stamp : Stamp) (kind : String) (payload : Json) (headers : Headers)
  | addOob (stamp : Stamp) (kind : String) (payload : Json) (channel : String) (headers : Headers)
  | addSnapshot (time : Moment) (memento : Json)
  | settle
  | revert

def Change.settles : Change → Bool
  | .settle => true
  | _ => false

def edit (t : Timeline) : Change → Timeline
  | .add stamp kind payload headers => t.add stamp kind payload headers
  | .addOob stamp kind payload channel headers => t.addOob stamp kind payload channel headers
  | .addSnapshot time memento => t.addSnapshot time memento
  | .settle => t.settle
  | .revert => t.revert

def edits (t : Timeline) (list : List Change) : Timeline := list.foldl edit t

/-- Only adding a domain event needs a version. -/
def Change.numbers : Change → Bool
  | .add .. => true
  | _ => false

/-- The timeline after an edit, unless that needs a version and there is none left. -/
def edit? (t : Timeline) (e : Change) : Option Timeline :=
  if e.numbers ∧ lastVersion ≤ t.nextVersion then none else some (t.edit e)

/-- The timeline after some edits in order, unless one of them fails. -/
def edits? (t : Timeline) (list : List Change) : Option Timeline := list.foldlM edit? t

def untilSettled (list : List Change) : List Change := list.rdropWhile fun e => !e.settles

@[simp] theorem edits_nil (t : Timeline) : t.edits [] = t := rfl

@[simp] theorem edits_concat (t : Timeline) (list : List Change) (e : Change) :
    t.edits (list ++ [e]) = (t.edits list).edit e := by
  simp [edits]

theorem edit?_eq_some {t t' : Timeline} {e : Change} : t.edit? e = some t' ↔
    ¬(e.numbers ∧ lastVersion ≤ t.nextVersion) ∧ t.edit e = t' := by
  unfold edit?
  split <;> simp_all

theorem edit?_eq_none {t : Timeline} {e : Change} :
    t.edit? e = none ↔ e.numbers ∧ lastVersion ≤ t.nextVersion := by
  unfold edit?
  split <;> simp_all

theorem edits?_append (t : Timeline) (xs ys : List Change) :
    t.edits? (xs ++ ys) = (t.edits? xs).bind fun u => u.edits? ys :=
  List.foldlM_append

theorem edits?_concat (t : Timeline) (list : List Change) (e : Change) :
    t.edits? (list ++ [e]) = (t.edits? list).bind fun u => u.edit? e := by
  rw [edits?_append]
  congr 1
  funext u
  exact bind_pure (u.edit? e)

theorem edits_of_edits? {t t' : Timeline} {list : List Change} (h : t.edits? list = some t') :
    t.edits list = t' := by
  induction list using List.reverseRecOn generalizing t' with
  | nil => exact Option.some.inj h
  | append_singleton list e ih =>
    rw [edits?_concat, Option.bind_eq_some_iff] at h
    obtain ⟨u, hu, he⟩ := h
    rw [edits_concat, ih hu]
    exact (edit?_eq_some.1 he).2

theorem edits?_of_prefix {t t' : Timeline} {xs list : List Change} (h : t.edits? list = some t')
    (hxs : xs <+: list) : t.edits? xs = some (t.edits xs) := by
  obtain ⟨ys, rfl⟩ := hxs
  rw [edits?_append, Option.bind_eq_some_iff] at h
  obtain ⟨u, hu, -⟩ := h
  rw [hu, edits_of_edits? hu]

/-- Edits fail at the first one that needs a version when there is none left. -/
theorem edits?_eq_none {t : Timeline} {list : List Change} : t.edits? list = none ↔
    ∃ done e rest u, list = done ++ e :: rest ∧ t.edits? done = some u ∧
      e.numbers ∧ lastVersion ≤ u.nextVersion := by
  constructor
  · intro h
    induction list using List.reverseRecOn with
    | nil => cases h
    | append_singleton list e ih =>
      rw [edits?_concat] at h
      cases hu : t.edits? list with
      | none =>
        obtain ⟨done, first, rest, u, rfl, hdone⟩ := ih hu
        exact ⟨done, first, rest ++ [e], u, by simp, hdone⟩
      | some u =>
        rw [hu, Option.bind_some, edit?_eq_none] at h
        exact ⟨list, e, [], u, rfl, hu, h⟩
  · rintro ⟨done, e, rest, u, rfl, hu, he⟩
    have hfails : u.edits? (e :: rest) = (u.edit? e).bind fun v => v.edits? rest := rfl
    rw [edits?_append, hu, Option.bind_some, hfails, edit?_eq_none.2 he, Option.bind_none]

namespace Sound

variable {t : Timeline}

theorem edit (h : t.Sound) (e : Change) : (t.edit e).Sound := by
  cases e with
  | add stamp kind payload headers => exact h.add stamp kind payload headers
  | addOob stamp kind payload channel headers => exact h.addOob stamp kind payload channel headers
  | addSnapshot time memento => exact h.addSnapshot time memento
  | settle => exact h.settle
  | revert => exact h.revert

theorem edits (h : t.Sound) (list : List Change) : (t.edits list).Sound := by
  induction list using List.reverseRecOn with
  | nil => exact h
  | append_singleton list e ih =>
    rw [edits_concat]
    exact ih.edit e

end Sound

/-- The parts of a timeline fit together, the settled ones included. -/
structure Seamless (t : Timeline) : Prop extends t.Sound where
  settled : Numbered (t.version + 1 - t.settled.length) t.settled
  snapshotted : ∀ s ∈ t.snapshot, s.version ≤ t.version
  own : ∀ e ∈ t.pending, e.stream = t.stream
  unnumbered : ∀ e ∈ t.pendingOobs, e.version = newStreamVersion

/-- A history of consecutive versions that follow its snapshot ends at the version of the
timeline. -/
theorem version_ofHistory (stream : StreamRef) {history : List Event} {snapshot : Option Snapshot}
    (h : Numbered (snapshot.elim newStreamVersion Snapshot.version + 1) history) :
    (ofHistory stream history snapshot).version =
      snapshot.elim newStreamVersion Snapshot.version + history.length := by
  unfold ofHistory
  cases hlast : history.getLast? with
  | none =>
    obtain rfl := List.getLast?_eq_none_iff.1 hlast
    cases snapshot <;> simp
  | some e =>
    have hversion := h.getLast?_version hlast
    simp only
    omega

theorem seamless_ofHistory (stream : StreamRef) {history : List Event}
    {snapshot : Option Snapshot}
    (h : Numbered (snapshot.elim newStreamVersion Snapshot.version + 1) history) :
    (ofHistory stream history snapshot).Seamless where
  toSound := sound_ofHistory stream history snapshot
  settled := by
    have hfirst : (ofHistory stream history snapshot).version + 1 - history.length =
        snapshot.elim newStreamVersion Snapshot.version + 1 := by
      rw [version_ofHistory stream h]
      omega
    exact hfirst ▸ h
  snapshotted := by
    intro s hs
    rw [version_ofHistory stream h]
    obtain rfl : snapshot = some s := hs
    simp only [Option.elim_some]
    omega
  own := by simp [ofHistory]
  unnumbered := by simp [ofHistory]

namespace Seamless

variable {t : Timeline}

theorem settle (h : t.Seamless) : t.settle.Seamless where
  toSound := h.toSound.settle
  settled := by
    have hnext := h.next
    simp only [Timeline.settle, List.length_append, numbered_append]
    constructor
    · convert h.settled using 1
      omega
    · convert h.numbered using 1
      omega
  snapshotted := by
    intro s hs
    simp only [Timeline.settle, Option.mem_def, Option.orElse_eq_orElse] at hs ⊢
    cases hpending : t.pendingSnapshot with
    | none =>
      rw [hpending] at hs
      exact Int.le_trans (h.snapshotted s hs) h.version_le
    | some p =>
      rw [hpending] at hs
      obtain rfl : p = s := Option.some.inj hs
      exact (h.snapshot p hpending).2
  own := by simp [Timeline.settle]
  unnumbered := by simp [Timeline.settle]

theorem edit (h : t.Seamless) (e : Change) : (t.edit e).Seamless := by
  have hsound := h.toSound.edit e
  cases e with
  | add stamp kind payload headers =>
    refine ⟨hsound, h.settled, h.snapshotted, ?_, h.unnumbered⟩
    intro e he
    rcases List.mem_append.1 he with he | he
    · exact h.own e he
    · rw [List.mem_singleton.1 he]
      rfl
  | addOob stamp kind payload channel headers =>
    refine ⟨hsound, h.settled, h.snapshotted, h.own, ?_⟩
    intro e he
    rcases List.mem_append.1 he with he | he
    · exact h.unnumbered e he
    · rw [List.mem_singleton.1 he]
      rfl
  | addSnapshot time memento => exact ⟨hsound, h.settled, h.snapshotted, h.own, h.unnumbered⟩
  | settle => exact h.settle
  | revert =>
    exact ⟨hsound, h.settled, h.snapshotted, by simp [Timeline.edit, Timeline.revert],
      by simp [Timeline.edit, Timeline.revert]⟩

theorem edits (h : t.Seamless) (list : List Change) : (t.edits list).Seamless := by
  induction list using List.reverseRecOn with
  | nil => exact h
  | append_singleton list e ih =>
    rw [edits_concat]
    exact ih.edit e

end Seamless

theorem Sound.nextVersion_le_edits {t t' : Timeline} (h : t.Sound) {list : List Change}
    (hedits : t.edits? list = some t') (hlast : t.nextVersion ≤ lastVersion) :
    t'.nextVersion ≤ lastVersion := by
  induction list using List.reverseRecOn generalizing t' with
  | nil =>
    obtain rfl := Option.some.inj hedits
    exact hlast
  | append_singleton list e ih =>
    rw [edits?_concat, Option.bind_eq_some_iff] at hedits
    obtain ⟨u, hu, he⟩ := hedits
    have hbefore := ih hu
    have hsound : u.Sound := edits_of_edits? hu ▸ h.edits list
    obtain ⟨hleft, rfl⟩ := edit?_eq_some.1 he
    cases e with
    | add =>
      simp only [Change.numbers, true_and, Int.not_le] at hleft
      exact hleft
    | addOob | addSnapshot | settle => exact hbefore
    | revert => exact Int.le_trans hsound.version_le hbefore

@[simp] theorem stream_edit (t : Timeline) (e : Change) : (t.edit e).stream = t.stream := by
  cases e <;> rfl

theorem stream_edits (t : Timeline) (list : List Change) : (t.edits list).stream = t.stream := by
  induction list using List.reverseRecOn with
  | nil => rfl
  | append_singleton list e ih => rw [edits_concat, stream_edit, ih]

theorem revert_edit (t : Timeline) {e : Change} (he : e.settles = false) :
    (t.edit e).revert = { t.revert with channels := (t.edit e).channels } := by
  cases e with
  | settle => cases he
  | add | addOob | addSnapshot | revert => rfl

/-- Reverting leads back to what was settled last. Known channels stay known. -/
theorem revert_edits {t : Timeline} (ht : t.revert = t) (list : List Change) :
    (t.edits list).revert =
      { t.edits (untilSettled list) with channels := (t.edits list).channels } := by
  induction list using List.reverseRecOn with
  | nil => exact ht
  | append_singleton list e ih =>
    cases he : e.settles with
    | true =>
      rw [untilSettled, List.rdropWhile_concat_neg _ _ _ (by simp [he]), edits_concat]
      cases e with
      | settle => rfl
      | add | addOob | addSnapshot | revert => cases he
    | false =>
      rw [untilSettled, List.rdropWhile_concat_pos _ _ _ (by simp [he]), edits_concat,
        revert_edit _ he, ih]
      rfl

/-- How the parts of a timeline fit together. -/
structure Coherent (t : Timeline) : Prop where
  nextVersion : t.nextVersion = t.version + t.pending.length
  pending : ∀ (i : Nat) (e : Event), t.pending[i]? = some e →
    e.stream = t.stream ∧ e.lane = .domain ∧ e.version = t.version + 1 + i
  settled : ∃ first, Numbered first t.settled
  last : ∀ e ∈ t.settled.getLast?, e.version = t.version
  snapshot : ∀ s ∈ t.snapshot, s.version ≤ t.version
  pendingSnapshot : ∀ s ∈ t.pendingSnapshot, t.version ≤ s.version ∧ s.version ≤ t.nextVersion
  pendingOobs : ∀ e ∈ t.pendingOobs,
    e.version = newStreamVersion ∧ ∃ c ∈ t.channels, e.channel? = some c.id
  channels : (t.channels.map Channel.id).Nodup
  dirty : t.dirty = true ↔ t.pending ≠ [] ∨ t.pendingOobs ≠ [] ∨ t.pendingSnapshot ≠ none

theorem Seamless.coherent {t : Timeline} (h : t.Seamless) : t.Coherent where
  nextVersion := h.next
  pending i e he :=
    have hmem := List.mem_of_getElem? he
    ⟨h.own e hmem, h.domain e hmem, h.numbered.version_of_getElem? he⟩
  settled := ⟨_, h.settled⟩
  last e he := by
    have hversion := h.settled.getLast?_version he
    omega
  snapshot := h.snapshotted
  pendingSnapshot := h.snapshot
  pendingOobs e he := ⟨h.unnumbered e he, (h.oobs e he).2⟩
  channels := h.channels
  dirty := by
    rw [← not_iff_not, Bool.not_eq_true, dirty_eq_false]
    simp

/-- After any edits of a history with consecutive versions that follow its snapshot, the parts of
the timeline fit together, no version is beyond the last one, and reverting leads back to what was
settled last. The edits fail only if they add a domain event when there is no version left. -/
theorem coherent_of_edits (stream : StreamRef) (history : List Event) (snapshot : Option Snapshot)
    (list : List Change)
    (h : Numbered (snapshot.elim newStreamVersion Snapshot.version + 1) history) :
    let start := ofHistory stream history snapshot
    (∀ t, start.edits? list = some t →
      t.stream = stream ∧ t.Coherent ∧
      (start.version ≤ lastVersion → t.nextVersion ≤ lastVersion) ∧
      ∃ settled, start.edits? (untilSettled list) = some settled ∧
        t.revert = { settled with channels := t.channels }) ∧
    (start.edits? list = none ↔ ∃ done e rest u, list = done ++ e :: rest ∧
      start.edits? done = some u ∧ e.numbers ∧ lastVersion ≤ u.nextVersion) := by
  intro start
  have hseamless := seamless_ofHistory stream h
  refine ⟨fun t ht => ?_, edits?_eq_none⟩
  obtain rfl := edits_of_edits? ht
  exact ⟨stream_edits start list, (hseamless.edits list).coherent,
    hseamless.toSound.nextVersion_le_edits ht, _,
    edits?_of_prefix ht (List.rdropWhile_prefix ..), revert_edits rfl list⟩

private def stepAt (version : Int) : Event :=
  (empty ⟨"tally", "default", "t-1", []⟩).draft .domain version ⟨.nil, .epoch⟩ "tally.step" .null ∅

/-- A tally with a snapshot and two steps since. A third step is settled together with a new
snapshot and a note, and a fourth one and another note are pending. If the second step has the last
version, the third one fails. -/
theorem coherent_thirdStep :
    let note : Change := .addOob ⟨.nil, .epoch⟩ "tally.noted" .null "audit" ∅
    let step : Change := .add ⟨.nil, .epoch⟩ "tally.step" .null ∅
    let list := [step, .revert, step, .addSnapshot .epoch .null, note, .settle, step, note]
    let start := ofHistory (stepAt 0).stream [stepAt 5, stepAt 6] (some ⟨4, .null, .epoch⟩)
    let t := start.edits list
    let full := ofHistory (stepAt 0).stream [stepAt (lastVersion - 1), stepAt lastVersion]
      (some ⟨lastVersion - 2, .null, .epoch⟩)
    Numbered 5 [stepAt 5, stepAt 6] ∧ (untilSettled list).length = 6 ∧
      start.edits? list = some t ∧
      (t.version, t.nextVersion, t.snapshot.map Snapshot.version) = (7, 8, some 7) ∧ t.Coherent ∧
      (∃ settled, start.edits? (untilSettled list) = some settled ∧
        t.revert = { settled with channels := t.channels }) ∧
      full.edits? list = none := by
  intro note step list start t full
  have hnumbered : Numbered 5 [stepAt 5, stepAt 6] := ⟨rfl, rfl, trivial⟩
  have hlast : Numbered (lastVersion - 2 + 1) [stepAt (lastVersion - 1), stepAt lastVersion] :=
    ⟨rfl, rfl, trivial⟩
  have hedits : start.edits? list = some t := rfl
  obtain ⟨hcoherent, -⟩ := coherent_of_edits (stepAt 0).stream [stepAt 5, stepAt 6]
    (some ⟨4, .null, .epoch⟩) list hnumbered
  obtain ⟨-, hfails⟩ := coherent_of_edits (stepAt 0).stream
    [stepAt (lastVersion - 1), stepAt lastVersion] (some ⟨lastVersion - 2, .null, .epoch⟩) list
    hlast
  obtain ⟨-, hfits, -, hrevert⟩ := hcoherent t hedits
  exact ⟨hnumbered, rfl, hedits, rfl, hfits, hrevert,
    hfails.2 ⟨[], step, list.tail, full, rfl, rfl, rfl, Int.le_refl _⟩⟩

end Chronicle.Timeline
