import Chronicle.Proofs.Hydrating
import Chronicle.Samples.States

/-!
# A history may be applied in parts

To apply a history is to apply its first part and then, on the state that it left, the rest. Events
without a handle route leave no trace in the state, the count or the failure. A history that cannot
be applied stops at its first event that cannot be read, with the state of the events before it.
-/

namespace Chronicle

variable {m : Type → Type} {S : Type}

namespace Routes

variable {routes : Routes m S} {s t : S} {event : Event} {xs ys : List Event} {err : RouteError}

/-- The handle route of the event cannot read its payload. -/
def Halts (routes : Routes m S) (event : Event) (err : RouteError) : Prop :=
  ∃ route cause, routes.handlers[event.kind]? = some route ∧
    route event.payload = .error cause ∧ err = .decode event.kind cause

/-- What becomes of one event of a history. -/
inductive Handles (routes : Routes m S) (s : S) (event : Event) :
    Except RouteError (S × Bool) → Prop where
  | skipped (hroute : routes.hasHandle event.kind = false) : Handles routes s event (.ok (s, false))
  | applied {route : Json → Except Json.DecodeError (S → S)} {apply : S → S}
      (hroute : routes.handlers[event.kind]? = some route)
      (hread : route event.payload = .ok apply) :
      Handles routes s event (.ok (apply s, true))
  | halted {err : RouteError} (h : routes.Halts event err) : Handles routes s event (.error err)

theorem hasHandle_eq_false {kind : String} :
    routes.hasHandle kind = false ↔ routes.handlers[kind]? = none := by
  rw [hasHandle, Std.ExtTreeMap.contains_eq_isSome_getElem?, Option.isSome_eq_false_iff,
    Option.isNone_iff_eq_none]

theorem handles_handleEvent (routes : Routes m S) (s : S) (event : Event) :
    routes.Handles s event (routes.handleEvent s event) := by
  unfold handleEvent
  cases hroute : routes.handlers[event.kind]? with
  | none => exact .skipped (hasHandle_eq_false.2 hroute)
  | some route =>
    cases hread : route event.payload with
    | ok apply => simpa only [hread] using .applied hroute hread
    | error cause => simpa only [hread] using .halted ⟨route, cause, hroute, hread, rfl⟩

theorem handleEvent_of_unrouted (h : routes.hasHandle event.kind = false) (s : S) :
    routes.handleEvent s event = .ok (s, false) := by
  simp only [handleEvent, hasHandle_eq_false.1 h]

theorem handleEvent_eq_error :
    routes.handleEvent s event = .error err ↔ routes.Halts event err := by
  constructor
  · intro h
    have hcase := routes.handles_handleEvent s event
    rw [h] at hcase
    cases hcase with
    | halted hhalts => exact hhalts
  · rintro ⟨route, cause, hroute, hread, rfl⟩
    simp only [handleEvent, hroute, hread]

/-- Go on with further events behind a history, if that could be applied. -/
def resume (routes : Routes m S) (before : Except RouteError Nat × S) (ys : List Event) :
    Except RouteError Nat × S :=
  match before with
  | (.error err, t) => (.error err, t)
  | (.ok n, t) => ((routes.hydrate t ys).1.map (n + ·), (routes.hydrate t ys).2)

theorem hydrate_cons_ok {applied : Bool} (h : routes.handleEvent s event = .ok (t, applied))
    (xs : List Event) : routes.hydrate s (event :: xs) =
      ((routes.hydrate t xs).1.map (· + applied.toNat), (routes.hydrate t xs).2) := by
  cases applied <;> simp only [hydrate, h] <;> rfl

theorem hydrate_cons_error (h : routes.handleEvent s event = .error err) (xs : List Event) :
    routes.hydrate s (event :: xs) = (.error err, s) := by
  simp only [hydrate, h]

theorem hydrate_append (routes : Routes m S) (s : S) (xs ys : List Event) :
    routes.hydrate s (xs ++ ys) = routes.resume (routes.hydrate s xs) ys := by
  -- The first event leaves another state, to which the rest is applied.
  induction xs generalizing s with
  | nil =>
    simp only [List.nil_append, hydrate, resume]
    rcases routes.hydrate s ys with ⟨count, t⟩
    cases count <;> simp [Except.map]
  | cons event xs ih =>
    rw [List.cons_append]
    cases he : routes.handleEvent s event with
    | error err =>
      rw [hydrate_cons_error he, hydrate_cons_error he]
      rfl
    | ok p =>
      obtain ⟨t, applied⟩ := p
      rw [hydrate_cons_ok he, hydrate_cons_ok he, ih]
      obtain ⟨count, u⟩ := routes.hydrate t xs
      cases count with
      | error err => rfl
      | ok n =>
        simp only [resume, Except.map]
        cases (routes.hydrate u ys).1 with
        | error err => rfl
        | ok k => simp only [Nat.add_right_comm]

theorem hydrate_cons_unrouted (h : routes.hasHandle event.kind = false) (s : S) (xs : List Event) :
    routes.hydrate s (event :: xs) = routes.hydrate s xs := by
  rw [hydrate_cons_ok (handleEvent_of_unrouted h s)]
  obtain ⟨count, t⟩ := routes.hydrate s xs
  cases count <;> rfl

theorem hydrate_insert_unrouted (h : routes.hasHandle event.kind = false) (s : S)
    (xs ys : List Event) :
    routes.hydrate s (xs ++ event :: ys) = routes.hydrate s (xs ++ ys) := by
  rw [hydrate_append, hydrate_append]
  obtain ⟨count, t⟩ := routes.hydrate s xs
  cases count with
  | error err => rfl
  | ok n => simp only [resume, hydrate_cons_unrouted h]

/-- The events of a history that have a handle route. -/
def routed (routes : Routes m S) (events : List Event) : List Event :=
  events.filter fun event => routes.hasHandle event.kind

theorem routed_cons_of_true (h : routes.hasHandle event.kind = true) (xs : List Event) :
    routes.routed (event :: xs) = event :: routes.routed xs :=
  List.filter_cons_of_pos h

theorem routed_cons_of_false (h : routes.hasHandle event.kind = false) (xs : List Event) :
    routes.routed (event :: xs) = routes.routed xs :=
  List.filter_cons_of_neg (by simp [h])

theorem hydrate_routed (routes : Routes m S) (s : S) (xs : List Event) :
    routes.hydrate s (routes.routed xs) = routes.hydrate s xs := by
  induction xs generalizing s with
  | nil => rfl
  | cons event xs ih =>
    cases hroute : routes.hasHandle event.kind with
    | false => rw [routed_cons_of_false hroute, ih, hydrate_cons_unrouted hroute]
    | true =>
      rw [routed_cons_of_true hroute]
      cases he : routes.handleEvent s event with
      | error err => rw [hydrate_cons_error he, hydrate_cons_error he]
      | ok p => rw [hydrate_cons_ok he, hydrate_cons_ok he, ih]

theorem reads_of_hydrates {events : List Event} (h : routes.Hydrates s events t) :
    ∀ event ∈ events, routes.Reads event := by
  induction events generalizing s with
  | nil => simp
  | cons event rest ih =>
    obtain ⟨next, applied, he, hrest⟩ := hydrates_cons.1 h
    exact List.forall_mem_cons.2 ⟨(reads_iff s).2 ⟨_, he⟩, ih hrest⟩

/-- A history that cannot be applied ends at an event that cannot be read. The events before that
one were applied, and those behind it do not matter. -/
theorem hydrate_eq_error : routes.hydrate s xs = (.error err, t) ↔
    ∃ done event rest, xs = done ++ event :: rest ∧ routes.Halts event err ∧
      routes.Hydrates s done t := by
  constructor
  · intro h
    induction xs generalizing s with
    | nil => cases h
    | cons event xs ih =>
      cases he : routes.handleEvent s event with
      | error cause =>
        rw [hydrate_cons_error he] at h
        cases h
        exact ⟨[], event, xs, rfl, handleEvent_eq_error.1 he, hydrates_nil.2 rfl⟩
      | ok p =>
        obtain ⟨next, applied⟩ := p
        rw [hydrate_cons_ok he] at h
        rcases hrest : routes.hydrate next xs with ⟨count, u⟩
        rw [hrest] at h
        cases count with
        | ok n => cases h
        | error cause =>
          cases h
          obtain ⟨done, stop, rest, rfl, hhalts, hdone⟩ := ih hrest
          exact ⟨event :: done, stop, rest, rfl, hhalts,
            hydrates_cons.2 ⟨next, applied, he, hdone⟩⟩
  · rintro ⟨done, event, rest, rfl, hhalts, n, hdone⟩
    rw [hydrate_append, hdone]
    simp only [resume, hydrate_cons_error (handleEvent_eq_error.2 hhalts), Except.map]

/-- Whatever the table, the state and the histories, a history in two parts is applied part by part,
the second part only if the first could be applied, and the counts add up. Only the events with a
route matter, so that others may be put anywhere and taken from anywhere. If the history fails, the
state is the one behind the events before the first that cannot be read. -/
theorem composed_hydrate (routes : Routes m S) (s : S) (xs ys : List Event) :
    routes.hydrate s (xs ++ ys) = routes.resume (routes.hydrate s xs) ys ∧
    (∀ event, routes.hasHandle event.kind = false →
      routes.hydrate s (xs ++ event :: ys) = routes.hydrate s (xs ++ ys)) ∧
    (∀ zs, routes.routed zs = routes.routed xs → routes.hydrate s zs = routes.hydrate s xs) ∧
    ∀ err t, routes.hydrate s xs = (.error err, t) ↔
      ∃ done event rest, xs = done ++ event :: rest ∧ (∀ x ∈ done, routes.Reads x) ∧
        routes.Halts event err ∧ routes.Hydrates s done t := by
  refine ⟨hydrate_append routes s xs ys, fun event hroute => hydrate_insert_unrouted hroute s xs ys,
    fun zs hrouted => ?_, fun err t => ?_⟩
  · rw [← hydrate_routed routes s zs, hrouted, hydrate_routed]
  · rw [hydrate_eq_error]
    constructor
    · rintro ⟨done, event, rest, hxs, hhalts, hdone⟩
      exact ⟨done, event, rest, hxs, reads_of_hydrates hdone, hhalts, hdone⟩
    · rintro ⟨done, event, rest, hxs, -, hhalts, hdone⟩
      exact ⟨done, event, rest, hxs, hhalts, hdone⟩

end Routes

/-- An entity that is loaded with a longer history has the state of the one that was loaded with
its first part and took in the rest, and cannot be loaded where that one stops. -/
theorem Entity.state_ofTimeline_append {routes : Routes m S} {t t' : Timeline} {e : Entity S}
    {tail : List Event} (h : ofTimeline routes t = .ok e) (hsnapshot : t'.snapshot = t.snapshot)
    (hsettled : t'.settled = t.settled ++ tail) :
    (ofTimeline routes t').map (·.state) =
      (e.hydrate routes tail).1.map fun _ => (e.hydrate routes tail).2.state := by
  obtain ⟨-, -, first, hfirst, n, hsome⟩ := ofTimeline_eq_ok.1 h
  have hfirst' : startState routes t' = .ok first := by
    rw [← hfirst]
    simp only [startState, hsnapshot]
  have hwhole : routes.hydrate first t'.settled = routes.resume (.ok n, e.state) tail := by
    rw [hsettled, Routes.hydrate_append, hsome]
  simp only [ofTimeline, hfirst', hwhole, Entity.hydrate, bind, Except.bind, Routes.resume]
  rcases routes.hydrate e.state tail with ⟨count, s⟩
  cases count <;> rfl

namespace Samples.Tally

def quiet : Routes Id Tally := routes fun _ => ()

def entry (kind : String) (payload : Json) : Event :=
  (Timeline.empty ⟨"tally", "default", "t-1", []⟩).draft .domain 0 ⟨⟨1⟩, .epoch⟩ kind payload ∅

def two : Event := entry Step.type.kind (.ofFields [("n", .int 2)])

def aside : Event := entry Noted.type.kind .null

def torn : Event := entry Step.type.kind .null

/-- Behind a step and a note, a torn step stops the run with what the step did. The note may be left
out, and the step behind the torn one is not taken. -/
theorem composed_torn :
    let result : Except RouteError Nat × Tally :=
      (.error (.decode "tally.step" (.invalidType .null "struct Step")), ⟨[2], []⟩)
    quiet.hydrate ⟨[], []⟩ ([two] ++ aside :: [torn, two]) = result ∧
      quiet.hydrate ⟨[], []⟩ ([two] ++ [torn, two]) = result ∧
      quiet.hydrate ⟨[], []⟩ [two, torn] = result := by
  intro result
  have hidle : quiet.hasHandle aside.kind = false := by decide +kernel
  have hrouted : quiet.routed [two, torn] = quiet.routed [two, aside, torn] := by decide +kernel
  have hreads : ∀ x ∈ [two, aside], quiet.Reads x := by
    have happlied : ∃ n, quiet.hydrate ⟨[], []⟩ [two, aside] = (.ok n, ⟨[2], []⟩) := ⟨1, by rfl⟩
    exact Routes.reads_of_hydrates happlied
  have hhalts : quiet.Halts torn (.decode "tally.step" (.invalidType .null "struct Step")) :=
    ⟨fun v => (Step.type.decode v).map step, _, by rfl, by rfl, rfl⟩
  obtain ⟨hsplit, -, hsame, hstop⟩ :=
    Routes.composed_hydrate quiet ⟨[], []⟩ [two, aside, torn] [two]
  obtain ⟨-, hinsert, -⟩ := Routes.composed_hydrate quiet ⟨[], []⟩ [two] [torn, two]
  have hresult : quiet.hydrate ⟨[], []⟩ [two, aside, torn] = result :=
    (hstop _ _).2 ⟨[two, aside], torn, [], rfl, hreads, hhalts, 1, by rfl⟩
  have hlonger : quiet.hydrate ⟨[], []⟩ ([two] ++ aside :: [torn, two]) = result := by
    rw [hresult] at hsplit
    exact hsplit
  exact ⟨hlonger, (hinsert aside hidle).symm.trans hlonger, (hsame _ hrouted).trans hresult⟩

end Samples.Tally

end Chronicle
