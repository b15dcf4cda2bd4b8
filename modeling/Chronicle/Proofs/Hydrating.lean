import Mathlib.Tactic.Common
import Chronicle.Entity.Basic
import Chronicle.Proofs.Runs

/-!
# Applying a history

The state of an entity is what its history makes of the recorded or the initial state. Whether a
history can be applied, and where it leads, depends on the kinds and payloads of its events only.
-/

namespace Chronicle

variable {S : Type}

namespace Routes

variable {m : Type → Type} {routes : Routes m S}

/-- Applying the events to the first state succeeds and gives the second. -/
def Hydrates (routes : Routes m S) (s : S) (events : List Event) (s' : S) : Prop :=
  ∃ count, routes.hydrate s events = (.ok count, s')

@[simp] theorem hydrates_nil {s s' : S} : routes.Hydrates s [] s' ↔ s' = s := by
  simp [Hydrates, hydrate, eq_comm]

theorem hydrates_cons {s s' : S} {e : Event} {events : List Event} :
    routes.Hydrates s (e :: events) s' ↔
      ∃ next applied, routes.handleEvent s e = .ok (next, applied) ∧
        routes.Hydrates next events s' := by
  unfold Hydrates
  cases he : routes.handleEvent s e with
  | error err => simp [hydrate, he]
  | ok p =>
    obtain ⟨next, applied⟩ := p
    cases hr : routes.hydrate next events with
    | mk count s₁ => cases count <;> simp [hydrate, he, hr, Except.map]

theorem hydrates_append {s s' : S} {xs ys : List Event} :
    routes.Hydrates s (xs ++ ys) s' ↔
      ∃ next, routes.Hydrates s xs next ∧ routes.Hydrates next ys s' := by
  induction xs generalizing s with
  | nil => simp
  | cons e xs ih =>
    simp only [List.cons_append, hydrates_cons, ih]
    constructor
    · rintro ⟨a, b, he, next, hx, hy⟩
      exact ⟨next, ⟨a, b, he, hx⟩, hy⟩
    · rintro ⟨next, ⟨a, b, he, hx⟩, hy⟩
      exact ⟨a, b, he, next, hx, hy⟩

/-- Whether an event can be read does not depend on the state, so events that were applied to
one state can be applied to any. -/
theorem Hydrates.exists {s s' : S} {events : List Event} (h : routes.Hydrates s events s')
    (t : S) : routes.Hydrates t events (routes.hydrate t events).2 := by
  induction events generalizing s t with
  | nil => simp [hydrate]
  | cons e events ih =>
    obtain ⟨next, applied, he, h⟩ := hydrates_cons.1 h
    have hnext : ∃ next', routes.handleEvent t e = .ok (next', applied) := by
      unfold handleEvent at he ⊢
      split at he
      · cases he
        exact ⟨t, rfl⟩
      · split at he
        · cases he
          exact ⟨_, rfl⟩
        · cases he
    obtain ⟨next', he'⟩ := hnext
    refine hydrates_cons.2 ⟨next', applied, he', ?_⟩
    have h2 : (routes.hydrate t (e :: events)).2 = (routes.hydrate next' events).2 := by
      simp [hydrate, he']
    rw [h2]
    exact ih h next'

theorem Hydrates.state_eq {s s' : S} {events : List Event} (h : routes.Hydrates s events s') :
    (routes.hydrate s events).2 = s' := by
  obtain ⟨count, h⟩ := h
  rw [h]

/-- The handle route of an event, if there is one, can read its payload. -/
def Reads (routes : Routes m S) (event : Event) : Prop :=
  ∀ route, routes.handlers[event.kind]? = some route → ∃ apply, route event.payload = .ok apply

theorem reads_iff {event : Event} (s : S) :
    routes.Reads event ↔ ∃ p, routes.handleEvent s event = .ok p := by
  unfold Reads handleEvent
  cases routes.handlers[event.kind]? with
  | none => simp
  | some route => cases hp : route event.payload <;> simp [hp]

theorem exists_hydrates {events : List Event} (h : ∀ event ∈ events, routes.Reads event) (s : S) :
    ∃ s', routes.Hydrates s events s' := by
  induction events generalizing s with
  | nil => exact ⟨s, hydrates_nil.2 rfl⟩
  | cons event rest ih =>
    obtain ⟨⟨next, applied⟩, he⟩ := (reads_iff s).1 (h event (List.mem_cons_self ..))
    obtain ⟨s', hrest⟩ := ih (fun other ho => h other (List.mem_cons_of_mem _ ho)) next
    exact ⟨s', hydrates_cons.2 ⟨next, applied, he, hrest⟩⟩

/-- A handle route sees the kind and the payload of an event and nothing else. -/
theorem handleEvent_congr {a b : Event} (h : a.content = b.content) (s : S) :
    routes.handleEvent s a = routes.handleEvent s b := by
  obtain ⟨hkind, hpayload⟩ := Prod.mk.inj h
  simp only [handleEvent, hkind, hpayload]

theorem reads_congr {a b : Event} (h : a.content = b.content) :
    routes.Reads a ↔ routes.Reads b := by
  obtain ⟨hkind, hpayload⟩ := Prod.mk.inj h
  simp only [Reads, hkind, hpayload]

theorem hydrates_congr {s s' : S} {xs ys : List Event}
    (h : xs.map Event.content = ys.map Event.content) :
    routes.Hydrates s xs s' ↔ routes.Hydrates s ys s' := by
  induction xs generalizing s ys with
  | nil =>
    rw [List.map_nil] at h
    rw [List.map_eq_nil_iff.1 h.symm]
  | cons x xs ih =>
    cases ys with
    | nil => simp at h
    | cons y ys =>
      obtain ⟨hxy, hrest⟩ := List.cons.inj h
      simp only [hydrates_cons, handleEvent_congr hxy, ih hrest]

end Routes

/-- The event that a move records is read back as what the move does to the state. -/
def Move.Routed {m : Type → Type} (routes : Routes m S) (move : Move S) : Prop :=
  ∃ route, routes.handlers[move.kind]? = some route ∧
    ∀ payload, move.payload = .ok payload → route payload = .ok move.apply

/-- A handle route reads back the events of its type, if they survive their encoding. -/
theorem Routes.routed_handle {E : Type} {m : Type → Type} (routes : Routes m S)
    (type : EventType E) (apply : E → S → S) (event : E)
    (h : ∀ payload, type.encode event = .ok payload → type.decode payload = .ok event) :
    (type.move event apply).Routed (routes.handle type apply) := by
  refine ⟨fun v => (type.decode v).map apply, by simp [handle, EventType.move], ?_⟩
  intro payload hp
  simp only [h payload hp]
  rfl

theorem Move.Routed.hydrates {m : Type → Type} {routes : Routes m S} {move : Move S}
    {payload : Json}
    (h : move.Routed routes) (hp : move.payload = .ok payload) {event : Event}
    (hkind : event.kind = move.kind) (hpayload : event.payload = payload) (s : S) :
    routes.Hydrates s [event] (move.apply s) := by
  obtain ⟨route, hroute, hdecode⟩ := h
  refine Routes.hydrates_cons.2 ⟨_, true, ?_, Routes.hydrates_nil.2 rfl⟩
  simp only [Routes.handleEvent, hkind, hpayload, hroute, hdecode payload hp]

/-- States that are recorded are read back as they were. -/
def Routes.RecordsFaithfully {m : Type → Type} (routes : Routes m S) : Prop :=
  ∀ snapshots ∈ routes.snapshots, ∀ s memento, snapshots.encode s = .ok memento →
    snapshots.decode memento = .ok s

namespace Entity

variable {m : Type → Type} {routes : Routes m S} {e : Entity S}

theorem ofTimeline_eq_ok {t : Timeline} :
    ofTimeline routes t = .ok e ↔ e.timeline = t ∧ e.conflicts = 0 ∧
      ∃ first, startState routes t = .ok first ∧ routes.Hydrates first t.settled e.state := by
  obtain ⟨state, timeline, conflicts⟩ := e
  unfold ofTimeline
  cases hs : startState routes t with
  | error err => simp [bind, Except.bind]
  | ok first =>
    cases hh : routes.hydrate first t.settled with
    | mk count s =>
      cases count with
      | error err => simp [Routes.Hydrates, bind, Except.bind, hh]
      | ok count =>
        simp only [Routes.Hydrates, bind, Except.bind, hh, Except.ok.injEq, Entity.mk.injEq,
          Prod.mk.injEq, exists_eq_left']
        constructor <;> rintro ⟨rfl, rfl, rfl⟩ <;> exact ⟨rfl, rfl, rfl⟩

end Entity

end Chronicle
