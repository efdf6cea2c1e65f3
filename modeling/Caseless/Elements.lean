import Caseless.Error

/-!
# Elements

The elements of a sequence, edited by position.  A position past the end is an error and changes
nothing; insertion alone also takes the position just past the last element.

Main definitions: `get`, `insert`, `set`, `remove`.

Main results: when each of them succeeds, and with what (`get_eq_ok_iff`, `insert_eq_ok_iff`,
`set_eq_ok_iff`, `remove_eq_ok_iff`).
-/

namespace Caseless

/-- The elements of a list or an s-expression. -/
abbrev Elements (α : Type) := List α

namespace Elements

variable {α : Type}

/-- The element at a position. -/
def get (elements : Elements α) (position : Nat) : Except Error α :=
  match elements[position]? with
  | some element => .ok element
  | none => .error (.indexOutOfRange position elements.length)

/-- Inserts at a position, before what stands there; the position just past the end appends. -/
def insert (elements : Elements α) (position : Nat) (element : α) : Except Error (Elements α) :=
  if position ≤ elements.length then
    .ok (elements.insertIdx position element)
  else
    .error (.indexOutOfRange position elements.length)

/-- Replaces the element at a position and hands back the old one. -/
def set (elements : Elements α) (position : Nat) (element : α) :
    Except Error (α × Elements α) :=
  match elements[position]? with
  | some old => .ok (old, List.set elements position element)
  | none => .error (.indexOutOfRange position elements.length)

/-- Takes out the element at a position. -/
def remove (elements : Elements α) (position : Nat) : Except Error (α × Elements α) :=
  match elements[position]? with
  | some old => .ok (old, elements.eraseIdx position)
  | none => .error (.indexOutOfRange position elements.length)

/-! ### When an edit succeeds -/

theorem get_eq_ok_iff {elements : Elements α} {position : Nat} {element : α} :
    elements.get position = .ok element ↔ elements[position]? = some element := by
  unfold Elements.get
  cases elements[position]? <;> simp

theorem insert_eq_ok_iff {elements result : Elements α} {position : Nat} {element : α} :
    elements.insert position element = .ok result ↔
      position ≤ elements.length ∧ elements.insertIdx position element = result := by
  unfold Elements.insert
  by_cases h : position ≤ elements.length <;> simp [h]

theorem set_eq_ok_iff {elements result : Elements α} {position : Nat} {element old : α} :
    elements.set position element = .ok (old, result) ↔
      elements[position]? = some old ∧ List.set elements position element = result := by
  unfold Elements.set
  cases elements[position]? <;> simp

theorem remove_eq_ok_iff {elements result : Elements α} {position : Nat} {old : α} :
    elements.remove position = .ok (old, result) ↔
      elements[position]? = some old ∧ elements.eraseIdx position = result := by
  unfold Elements.remove
  cases elements[position]? <;> simp

end Elements
end Caseless
