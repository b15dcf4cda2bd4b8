import Mathlib.Tactic.Common
import Chronicle.Store.Log

/-!
# Consecutive versions

The events under a key carry the versions 0, 1, 2, … in order. `Numbered` says so of a list;
a log is numbered if the events under each of its keys are. Appending keeps a log numbered, so
the version of a key is one less than the number of its events.

What an event says is its lane, its kind and its payload; storing an event changes neither.
-/

namespace Chronicle

/-- The versions of the events are consecutive, the first one being `start`. -/
def Numbered (start : Int) : List Event → Prop
  | [] => True
  | e :: rest => e.version = start ∧ Numbered (start + 1) rest

theorem numbered_append {start : Int} {xs ys : List Event} :
    Numbered start (xs ++ ys) ↔ Numbered start xs ∧ Numbered (start + xs.length) ys := by
  induction xs generalizing start with
  | nil => simp [Numbered]
  | cons e xs ih =>
    have h : start + 1 + (xs.length : Int) = start + ((xs.length + 1 : ℕ) : Int) := by omega
    simp [Numbered, ih, and_assoc, h]

namespace Numbered

theorem mem_bounds {start : Int} {xs : List Event} (h : Numbered start xs) {e : Event}
    (he : e ∈ xs) : start ≤ e.version ∧ e.version < start + xs.length := by
  induction xs generalizing start with
  | nil => simp at he
  | cons d xs ih =>
    obtain ⟨hd, hxs⟩ := h
    rcases List.mem_cons.1 he with rfl | he
    · simp only [List.length_cons]
      omega
    · have := ih hxs he
      simp only [List.length_cons]
      omega

theorem getElem?_eq {start : Int} {xs : List Event} (h : Numbered start xs) {e : Event}
    (he : e ∈ xs) : xs[(e.version - start).toNat]? = some e := by
  induction xs generalizing start with
  | nil => simp at he
  | cons d xs ih =>
    obtain ⟨hd, hxs⟩ := h
    rcases List.mem_cons.1 he with rfl | he
    · simp [hd]
    · have hb := hxs.mem_bounds he
      have hi : (e.version - start).toNat = (e.version - (start + 1)).toNat + 1 := by omega
      rw [hi, List.getElem?_cons_succ]
      exact ih hxs he

theorem getLast?_version {start : Int} {xs : List Event} (h : Numbered start xs) {e : Event}
    (he : xs.getLast? = some e) : e.version = start + xs.length - 1 := by
  obtain ⟨ys, rfl⟩ := List.getLast?_eq_some_iff.1 he
  have := (numbered_append.1 h).2.1
  simp only [List.length_append, List.length_singleton]
  omega

theorem version_of_getElem? {start : Int} {xs : List Event} (h : Numbered start xs) {i : Nat}
    {e : Event} (he : xs[i]? = some e) : e.version = start + i := by
  induction xs generalizing start i with
  | nil => simp at he
  | cons d xs ih =>
    cases i with
    | zero =>
      rw [List.getElem?_cons_zero, Option.some.injEq] at he
      subst he
      simpa using h.1
    | succ i =>
      have := ih h.2 he
      omega

theorem filter_le {start : Int} {xs : List Event} (h : Numbered start xs) {v : Int}
    (hv : start ≤ v) :
    xs.filter (fun e => decide (v ≤ e.version)) = xs.drop (v - start).toNat := by
  induction xs generalizing start with
  | nil => simp
  | cons d xs ih =>
    obtain ⟨hd, hxs⟩ := h
    obtain rfl | hlt : start = v ∨ start < v := by omega
    · have hcons : Numbered start (d :: xs) := ⟨hd, hxs⟩
      have hall : ∀ e ∈ d :: xs, decide (start ≤ e.version) = true := fun e he =>
        decide_eq_true (hcons.mem_bounds he).1
      rw [List.filter_eq_self.2 hall]
      simp
    · have hi : (v - start).toNat = (v - (start + 1)).toNat + 1 := by omega
      rw [hi, List.drop_succ_cons, List.filter_cons_of_neg (by simp; omega)]
      exact ih hxs (by omega)

theorem nodup {start : Int} {xs : List Event} (h : Numbered start xs) : xs.Nodup := by
  induction xs generalizing start with
  | nil => exact List.nodup_nil
  | cons d xs ih =>
    obtain ⟨hd, hxs⟩ := h
    refine List.nodup_cons.2 ⟨fun hmem => ?_, ih hxs⟩
    have := hxs.mem_bounds hmem
    omega

end Numbered

/-- What an event says: its lane, its kind and its payload. -/
def Event.entry (e : Event) : Lane × String × Json := (e.lane, e.content)

theorem map_content_of_entry {xs ys zs : List Event}
    (h : xs.map Event.entry = ys.map Event.entry ++ zs.map Event.entry) :
    xs.map Event.content = ys.map Event.content ++ zs.map Event.content := by
  have hc := congrArg (List.map Prod.snd) h
  simpa [Event.entry, Function.comp_def] using hc

def occurrences (x : Lane × String × Json) (events : List Event) : Nat :=
  (events.map Event.entry).count x

@[simp] theorem occurrences_nil (x : Lane × String × Json) : occurrences x [] = 0 := rfl

@[simp] theorem occurrences_append (x : Lane × String × Json) (xs ys : List Event) :
    occurrences x (xs ++ ys) = occurrences x xs + occurrences x ys := by
  simp [occurrences]

theorem occurrences_cons (x : Lane × String × Json) (e : Event) (es : List Event) :
    occurrences x (e :: es) = occurrences x [e] + occurrences x es :=
  occurrences_append x [e] es

theorem occurrences_perm (x : Lane × String × Json) {xs ys : List Event} (h : xs.Perm ys) :
    occurrences x xs = occurrences x ys :=
  (h.map _).count_eq x

theorem occurrences_eq_zero {x : Lane × String × Json} {events : List Event}
    (h : ∀ e ∈ events, e.lane ≠ x.1) : occurrences x events = 0 := by
  rw [occurrences, List.count_eq_zero]
  intro hx
  obtain ⟨e, he, rfl⟩ := List.mem_map.1 hx
  exact h e he rfl

namespace EventLog

@[simp] theorem map_entry_stamped (version : Int) (time : Moment) (commitHeaders : Headers)
    (ids : List Uuid) (events : List Event) :
    (stamped version time commitHeaders ids events).map Event.entry =
      events.map Event.entry := by
  induction events generalizing version ids with
  | nil => rfl
  | cons e rest ih => simp [stamped, ih, Event.entry, Event.content]

@[simp] theorem occurrences_stamped (x : Lane × String × Json) (version : Int) (time : Moment)
    (commitHeaders : Headers) (ids : List Uuid) (events : List Event) :
    occurrences x (stamped version time commitHeaders ids events) = occurrences x events := by
  simp [occurrences]

theorem numbered_stamped (version : Int) (time : Moment) (commitHeaders : Headers)
    (ids : List Uuid) (events : List Event) :
    Chronicle.Numbered (version + 1) (stamped version time commitHeaders ids events) := by
  induction events generalizing version ids with
  | nil => trivial
  | cons e rest ih => exact ⟨rfl, ih _ _⟩

def Numbered (log : EventLog) : Prop := ∀ key, Chronicle.Numbered 0 (log.events key)

theorem numbered_empty : empty.Numbered := fun key => by
  simp [Chronicle.Numbered]

/-- The version of a key is one less than the number of its events. -/
theorem Numbered.version_eq {log : EventLog} (h : log.Numbered) (key : String) :
    log.version key = (log.events key).length - 1 := by
  unfold version
  cases hl : (log.events key).getLast? with
  | none => simp [List.getLast?_eq_none_iff.1 hl, newStreamVersion]
  | some e =>
    have := (h key).getLast?_version hl
    simp only [this]
    omega

theorem Numbered.append {log : EventLog} (h : log.Numbered) (key : String)
    (events : NonEmptyList Event) (commitHeaders : Headers) (ids : List Uuid) (time : Moment) :
    (log.append key events commitHeaders ids time).2.Numbered := by
  intro other
  by_cases hk : other = key
  · subst hk
    rw [events_append_self, numbered_append]
    refine ⟨h _, ?_⟩
    have hv := h.version_eq other
    rw [show (0 : Int) + (log.events other).length = log.version other + 1 by omega]
    exact numbered_stamped ..
  · rw [events_append_of_ne log hk]
    exact h other

end EventLog

end Chronicle
