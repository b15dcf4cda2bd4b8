/-!
# Timing wheels

A timing wheel holds timers in six levels of 64 slots. A slot of the finest level is one unit
of time wide, and a slot of each other level as wide as all slots of the next finer one. A timer
goes into the finest level whose present revolution holds its due time, and the coarsest level
holds what lies farther ahead.

The hand moves from one occupied slot to the next. The timers of a slot that opens are looked
at in the order in which they came there: those that are due go off, and the others move to a
finer level. So of two timers that are due at one time the first to go off is the one that
reached the finest level first, not always the one that was set first.
-/

namespace Chronicle

/-- A timer of an item, with the level of the wheel in which it waits. -/
structure Timer (α : Type) where
  item : α
  due : Nat
  level : Nat
deriving DecidableEq, Inhabited

/-- Timers in the order in which they came to their slots, and the time that the hand shows. -/
structure TimingWheel (α : Type) where
  now : Nat
  timers : List (Timer α)
deriving DecidableEq, Inhabited

namespace TimingWheel

variable {α : Type}

def start : TimingWheel α := ⟨0, []⟩

def slotWidth (level : Nat) : Nat := Nat.pow 64 level

/-- The finest level whose revolution at a time holds a due time; the coarsest if none does. -/
def levelFor (now due : Nat) : Nat :=
  ((List.range 5).find? fun level =>
    now / slotWidth (level + 1) = due / slotWidth (level + 1)).getD 5

/-- The latest time at which a timer can be due. -/
def horizon : Nat := 0xfffffffffffffffd

def set (w : TimingWheel α) (item : α) (due : Nat) : TimingWheel α :=
  let due := min due horizon
  { w with timers := w.timers ++ [⟨item, due, levelFor w.now due⟩] }

def unset [DecidableEq α] (w : TimingWheel α) (item : α) : TimingWheel α :=
  { w with timers := w.timers.filter fun t => t.item ≠ item }

def slot (t : Timer α) : Nat := t.due / slotWidth t.level % 64

def slotsAhead (w : TimingWheel α) (t : Timer α) : Nat :=
  (slot t + 64 - w.now / slotWidth t.level % 64) % 64

/-- When the hand reaches the slot of a timer: in this revolution of its level or in the next. -/
def opening (w : TimingWheel α) (t : Timer α) : Nat :=
  let revolution := slotWidth (t.level + 1)
  let time := w.now / revolution * revolution + slot t * slotWidth t.level
  if time ≤ w.now then time + revolution else time

/-- A timer in the slot that opens next: the nearest one of the finest occupied level. -/
def next? (w : TimingWheel α) : Option (Timer α) :=
  w.timers.foldl (fun best t =>
    match best with
    | none => some t
    | some b =>
      if t.level < b.level ∨ (t.level = b.level ∧ w.slotsAhead t < w.slotsAhead b) then some t
      else some b) none

def nextOpening (w : TimingWheel α) : Option Nat := w.next?.map w.opening

/-- Open the slot of a timer: what goes off, and the wheel after that. -/
def openSlot (w : TimingWheel α) (t : Timer α) : List α × TimingWheel α :=
  let time := w.opening t
  let (here, elsewhere) :=
    w.timers.partition fun other => other.level = t.level ∧ slot other = slot t
  let (fired, early) := here.partition fun other => other.due ≤ time
  (fired.map (·.item),
    ⟨time, elsewhere ++ early.map fun other =>
      { other with level := levelFor time other.due }⟩)

@[simp] theorem now_openSlot (w : TimingWheel α) (t : Timer α) :
    (w.openSlot t).2.now = w.opening t := rfl

theorem slotWidth_pos (level : Nat) : 0 < slotWidth level := Nat.pow_pos (by decide)

theorem now_lt_opening (w : TimingWheel α) (t : Timer α) : w.now < w.opening t := by
  have hpos := slotWidth_pos (t.level + 1)
  have hdiv := Nat.div_add_mod w.now (slotWidth (t.level + 1))
  have hmod := Nat.mod_lt w.now hpos
  rw [Nat.mul_comm] at hdiv
  simp only [opening]
  split <;> omega

/-- Move the hand to a time: what goes off on the way, in order, and the wheel after that. -/
def turn (w : TimingWheel α) (goal : Nat) : List α × TimingWheel α :=
  match w.next? with
  | none => ([], { w with now := max w.now goal })
  | some t =>
    if _h : w.opening t ≤ goal then
      let (fired, later) := turn (w.openSlot t).2 goal
      ((w.openSlot t).1 ++ fired, later)
    else ([], { w with now := max w.now goal })
termination_by goal - w.now
decreasing_by
  have := w.now_lt_opening t
  simp only [now_openSlot]
  omega

end TimingWheel

end Chronicle
