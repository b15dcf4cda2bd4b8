import Mathlib.Data.List.Perm.Basic
import Chronicle.Proofs.Numbering

/-!
# Logs that grow

A log grows when events are appended under some of its keys. `Grown` says what every such
growth has in common, for any number of appends: the other keys and the metadata stay as they
were, no event is lost, and the log as a whole says what it said before and what was added.

The keys of different lanes are different, and two streams that share one key share all.
-/

namespace Chronicle

namespace Lane

theorem name_append_ne {a b : Lane} (h : a ≠ b) (s t : String) :
    a.name ++ "-" ++ s ≠ b.name ++ "-" ++ t := by
  intro he
  have hl := congrArg (fun text => text.toList.take 2) he
  cases a <;> cases b <;> simp [name, String.toList_append] at h hl

end Lane

namespace StreamRef

theorem key_ne_key (r r' : StreamRef) {a b : Lane} (h : a ≠ b) : r.key a ≠ r'.key b := by
  simp only [key, streamKey, String.append_assoc]
  simpa [String.append_assoc] using Lane.name_append_ne h _ _

theorem key_ne_channelKey (r r' : StreamRef) {a : Lane} (h : a ≠ .oob) (channel : String) :
    r.key a ≠ r'.channelKey channel := by
  simp only [key, channelKey, streamKey, String.append_assoc]
  simpa [String.append_assoc] using Lane.name_append_ne h _ _

theorem key_eq_key {r r' : StreamRef} {a : Lane} (h : r.key a = r'.key a) (b : Lane) :
    r.key b = r'.key b := by
  simp only [key, streamKey, String.append_assoc, String.append_right_inj] at h ⊢
  exact h

end StreamRef

private theorem flatMap_perm_of_cover {κ β : Type} {keys keys' : List κ} {f : κ → List β}
    (hn : keys.Nodup) (hn' : keys'.Nodup) (h : ∀ j ∉ keys, f j = []) (h' : ∀ j ∉ keys', f j = []) :
    (keys.flatMap f).Perm (keys'.flatMap f) := by
  have hfilter : ∀ l : List κ, l.flatMap f = (l.filter fun j => !(f j).isEmpty).flatMap f := by
    intro l
    induction l with
    | nil => rfl
    | cons j l ih =>
      cases hj : f j with
      | nil => simp [hj, ih]
      | cons b bs => simp [hj, ih]
  rw [hfilter keys, hfilter keys']
  refine List.Perm.flatMap_right f ((List.perm_ext_iff_of_nodup (hn.filter _) (hn'.filter _)).2 ?_)
  intro j
  have hk : f j ≠ [] → j ∈ keys := fun hj => by_contra fun hm => hj (h j hm)
  have hk' : f j ≠ [] → j ∈ keys' := fun hj => by_contra fun hm => hj (h' j hm)
  simp only [List.mem_filter, Bool.not_eq_true', List.isEmpty_eq_false_iff]
  exact ⟨fun ⟨_, hj⟩ => ⟨hk' hj, hj⟩, fun ⟨_, hj⟩ => ⟨hk hj, hj⟩⟩

/-- Two tables that differ at one key hold the same but for the entries of that key. -/
theorem flatMap_update_perm {κ β : Type} [DecidableEq κ] {keys keys' : List κ}
    {f f' : κ → List β} {k : κ} (hn : keys.Nodup) (hn' : keys'.Nodup)
    (h : ∀ j ∉ keys, f j = []) (h' : ∀ j ∉ keys', f' j = []) (hf : ∀ j ≠ k, f' j = f j) :
    (keys'.flatMap f' ++ f k).Perm (keys.flatMap f ++ f' k) := by
  obtain ⟨rest, hrest⟩ : ∃ rest, rest = keys.filter fun j => j ≠ k := ⟨_, rfl⟩
  have hnodup : (k :: rest).Nodup := by
    rw [hrest, List.nodup_cons]
    exact ⟨by simp, hn.filter _⟩
  have hout : ∀ j ∉ k :: rest, j ≠ k ∧ j ∉ keys := by
    intro j hj
    simp only [hrest, List.mem_cons, List.mem_filter, decide_eq_true_eq, not_or, not_and,
      not_not] at hj
    exact ⟨hj.1, fun hm => hj.1 (hj.2 hm)⟩
  have hsame : rest.flatMap f' = rest.flatMap f := by
    apply List.flatMap_congr
    intro j hj
    rw [hrest, List.mem_filter] at hj
    exact hf j (by simpa using hj.2)
  have hp := flatMap_perm_of_cover hn hnodup h fun j hj => h j (hout j hj).2
  have hp' := flatMap_perm_of_cover hn' hnodup h' fun j hj => by
    obtain ⟨hne, hm⟩ := hout j hj
    rw [hf j hne, h j hm]
  rw [List.flatMap_cons] at hp hp'
  rw [hsame] at hp'
  refine (hp'.append_right _).trans (List.Perm.trans ?_ (hp.append_right _).symm)
  refine List.perm_append_comm.trans ((List.perm_append_comm.append_left _).trans ?_)
  rw [List.append_assoc]

namespace EventLog

def all (log : EventLog) : List Event := log.keys.flatMap log.events

@[simp] theorem all_empty : empty.all = [] := by
  have hk : empty.keys = [] := Std.ExtTreeMap.keys_eq_nil_iff.2 rfl
  simp [all, hk]

theorem events_eq_nil {log : EventLog} {key : String} (h : key ∉ log.keys) :
    log.events key = [] := by
  rw [keys, Std.ExtTreeMap.mem_keys] at h
  exact Std.ExtTreeMap.getD_eq_fallback h

theorem occurrences_append (x : Lane × String × Json) (log : EventLog) (key : String)
    (events : NonEmptyList Event) (commitHeaders : Headers) (ids : List Uuid) (time : Moment) :
    occurrences x (log.append key events commitHeaders ids time).2.all =
      occurrences x log.all + occurrences x events.1 := by
  have hp : ((log.append key events commitHeaders ids time).2.all ++ log.events key).Perm
      (log.all ++ (log.append key events commitHeaders ids time).2.events key) :=
    flatMap_update_perm log.streams.nodup_keys
      (log.append key events commitHeaders ids time).2.streams.nodup_keys
      (fun _ hj => events_eq_nil hj) (fun _ hj => events_eq_nil hj)
      (fun _ hj => events_append_of_ne log hj events commitHeaders ids time)
  have h := occurrences_perm x hp
  simp only [events_append_self, Chronicle.occurrences_append, occurrences_stamped] at h
  omega

/-- `log'` is `log` with events appended under some of the `keys`. -/
structure Grown (log log' : EventLog) (keys : String → Prop) (added : List Event) : Prop where
  numbered : log.Numbered → log'.Numbered
  metadata : log'.metadata = log.metadata
  frame : ∀ key, ¬ keys key → log'.events key = log.events key
  grows : ∀ key, log.events key <+: log'.events key
  all : ∀ x, occurrences x log'.all = occurrences x log.all + occurrences x added

namespace Grown

variable {log log' log'' : EventLog} {p q : String → Prop} {added more : List Event}

theorem refl (log : EventLog) (p : String → Prop) : Grown log log p [] where
  numbered := id
  metadata := rfl
  frame _ _ := rfl
  grows _ := List.prefix_refl _
  all _ := rfl

theorem trans (h : Grown log log' p added) (h' : Grown log' log'' q more) :
    Grown log log'' (fun key => p key ∨ q key) (added ++ more) where
  numbered := h'.numbered ∘ h.numbered
  metadata := h'.metadata.trans h.metadata
  frame key hk :=
    (h'.frame key fun hq => hk (.inr hq)).trans (h.frame key fun hp => hk (.inl hp))
  grows key := (h.grows key).trans (h'.grows key)
  all x := by
    rw [h'.all, h.all, Chronicle.occurrences_append, Nat.add_assoc]

theorem mono (h : Grown log log' p added) (hpq : ∀ key, p key → q key) :
    Grown log log' q added where
  numbered := h.numbered
  metadata := h.metadata
  frame key hk := h.frame key fun hp => hk (hpq key hp)
  grows := h.grows
  all := h.all

theorem append (log : EventLog) (key : String) (events : NonEmptyList Event)
    (commitHeaders : Headers) (ids : List Uuid) (time : Moment) :
    Grown log (log.append key events commitHeaders ids time).2 (· = key) events.1 where
  numbered h := h.append key events commitHeaders ids time
  metadata := rfl
  frame _ hk := events_append_of_ne log hk ..
  grows other := by
    by_cases hk : other = key
    · rw [hk, events_append_self]
      exact List.prefix_append _ _
    · simp [events_append_of_ne log hk]
  all x := occurrences_append x log key events commitHeaders ids time

end Grown

end EventLog

end Chronicle
