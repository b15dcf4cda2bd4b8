import Chronicle.Store.Surroundings

/-!
# Agendas

An agenda holds items with the time at which each is due. Scheduling an item again keeps the
earlier of the two times. Items that are due are taken out, the earliest first.
-/

namespace Chronicle

/-- Items with their due times on a clock that never goes back; no item occurs twice. -/
structure Agenda (α : Type) where
  entries : List (α × Span)
deriving DecidableEq, Inhabited

namespace Agenda

variable {α : Type}

def empty : Agenda α := ⟨[]⟩

def dueTime [DecidableEq α] (a : Agenda α) (item : α) : Option Span := a.entries.lookup item

def earlier (a b : Span) : Span := if a ≤ b then a else b

/-- Put an item into a list of entries, or bring its due time forward. -/
def scheduleIn [DecidableEq α] (item : α) (due : Span) : List (α × Span) → List (α × Span)
  | [] => [(item, due)]
  | (other, known) :: rest =>
    if other = item then (other, earlier known due) :: rest
    else (other, known) :: scheduleIn item due rest

/-- Let an item be due at a time, if it is not due earlier. -/
def schedule [DecidableEq α] (a : Agenda α) (item : α) (due : Span) : Agenda α :=
  ⟨scheduleIn item due a.entries⟩

/-- The items that are due, the earliest first, and the agenda without them. Nothing is promised
about the order of items that are due at the same time; here it is that of the entries. -/
def takeDue (a : Agenda α) (now : Span) : List α × Agenda α :=
  let ready := a.entries.filter fun (_, due) => due ≤ now
  let waiting := a.entries.filter fun (_, due) => !(decide (due ≤ now))
  ((ready.mergeSort fun x y => x.2 ≤ y.2).map (·.1), ⟨waiting⟩)

def nextDue (a : Agenda α) : Option Span :=
  match a.entries with
  | [] => none
  | (_, due) :: rest => some (rest.foldl (fun acc e => earlier acc e.2) due)

def size (a : Agenda α) : Nat := a.entries.length

def isEmpty (a : Agenda α) : Bool := a.entries.isEmpty

@[simp] theorem dueTime_empty [DecidableEq α] (item : α) :
    (empty : Agenda α).dueTime item = none := rfl

/-- An item that is scheduled is due at the earlier of the time and the one it had. -/
theorem dueTime_schedule_self [DecidableEq α] (a : Agenda α) (item : α) (due : Span) :
    (a.schedule item due).dueTime item =
      some ((a.dueTime item).elim due fun known => earlier known due) := by
  obtain ⟨entries⟩ := a
  simp only [dueTime, schedule]
  induction entries with
  | nil => simp [scheduleIn]
  | cons entry rest ih =>
    obtain ⟨other, known⟩ := entry
    by_cases h : other = item
    · simp [scheduleIn, h]
    · have h' : (item == other) = false := by simp [Ne.symm h]
      simp [scheduleIn, h, List.lookup_cons, h', ih]

theorem dueTime_schedule_of_ne [DecidableEq α] (a : Agenda α) {item other : α}
    (h : other ≠ item) (due : Span) : (a.schedule item due).dueTime other = a.dueTime other := by
  have hb : (other == item) = false := by simp [h]
  obtain ⟨entries⟩ := a
  simp only [dueTime, schedule]
  induction entries with
  | nil => simp [scheduleIn, List.lookup_cons, hb]
  | cons entry rest ih =>
    obtain ⟨first, known⟩ := entry
    by_cases hf : first = item
    · simp [scheduleIn, hf, List.lookup_cons, hb]
    · simp [scheduleIn, hf, List.lookup_cons, ih]

end Agenda

/-- Let an item of an agenda in a cell be due after a delay. The end of the delay has to be a time
that the clock can show, so at most `Span.latest`. -/
def Cell.schedule {m : Type → Type} {α : Type} [Monad m] [DecidableEq α]
    (cell : Cell m (Agenda α)) (s : Surroundings m) (item : α) (delay : Span) : m Unit := do
  let now ← s.elapsed
  cell.modify fun a => a.schedule item (now + delay)

/-- Take the items that are due now out of an agenda in a cell. -/
def Cell.takeDue {m : Type → Type} {α : Type} [Monad m] (cell : Cell m (Agenda α))
    (s : Surroundings m) : m (List α) := do
  let now ← s.elapsed
  let (due, rest) := (← cell.get).takeDue now
  cell.set rest
  pure due

end Chronicle
