import Chronicle.Event.Basic

/-!
# Surroundings

The operations of the library run in some surroundings `m`, from which they take fresh
identifiers and the time, and where values can be kept in cells.
-/

namespace Chronicle

/-- A place that holds a value. -/
structure Cell (m : Type → Type) (α : Type) where
  get : m α
  set : α → m Unit

namespace Cell

variable {m : Type → Type} {α : Type} [Monad m]

def modify (c : Cell m α) (f : α → α) : m Unit := do
  c.set (f (← c.get))

/-- A part of the value of a cell, as a cell. -/
def focus {β : Type} (c : Cell m α) (part : α → β) (replace : β → α → α) : Cell m β where
  get := do pure (part (← c.get))
  set b := c.modify (replace b)

end Cell

/-- What the surroundings supply. -/
structure Surroundings (m : Type → Type) where
  /-- An identifier that was never seen before. -/
  freshId : m Uuid
  now : m Moment
  /-- The time that has passed on a clock that never goes back. -/
  elapsed : m Span

namespace Surroundings

variable {m : Type → Type} [Monad m]

def freshIds (s : Surroundings m) : Nat → m (List Uuid)
  | 0 => pure []
  | n + 1 => do
    let id ← s.freshId
    let ids ← s.freshIds n
    pure (id :: ids)

/-- A fresh identifier and the time. -/
def stamp (s : Surroundings m) : m Stamp := do
  let id ← s.freshId
  let time ← s.now
  pure ⟨id, time⟩

end Surroundings

end Chronicle
