import Caseless.Record
import Caseless.Value

/-!
# Stamping values

A value whose structs are to be told apart gets a stamp for each of its structs, inner structs
first.  The stamps are new, so no struct that was there before has one of them.  Without its stamps a
value is plain data again.

Main definitions: `Value.stamped`, and `Value.unstamped`, the same data without stamps.

Main result: `Value.next_le_stamped`, the clock only moves forward.
-/

namespace Caseless

namespace Value

variable {σ : Type}

mutual

/-- A value with a stamp of its own for each struct. -/
def stamped : Value σ → Clock → Value Stamp × Clock
  | .scalar payload, clock => (.scalar payload, clock)
  | .seq kind elements, clock =>
    let (elements, clock) := stampedElements elements clock
    (.seq kind elements, clock)
  | .struct _ fields, clock =>
    let (fields, clock) := stampedFields fields clock
    let (stamp, clock) := clock.tick
    (.struct stamp fields, clock)

/-- Elements with a stamp for each struct in them. -/
def stampedElements : List (Value σ) → Clock → List (Value Stamp) × Clock
  | [], clock => ([], clock)
  | value :: rest, clock =>
    let (value, clock) := stamped value clock
    let (rest, clock) := stampedElements rest clock
    (value :: rest, clock)

/-- Fields with a stamp for each struct in their values. -/
def stampedFields : List (String × Value σ) → Clock → List (String × Value Stamp) × Clock
  | [], clock => ([], clock)
  | (name, value) :: rest, clock =>
    let (value, clock) := stamped value clock
    let (rest, clock) := stampedFields rest clock
    ((name, value) :: rest, clock)

end

/-! ### Stamping moves the clock forward -/

mutual

theorem next_le_stamped (value : Value σ) (clock : Clock) :
    clock.next ≤ (value.stamped clock).2.next := by
  cases value with
  | scalar payload => exact Nat.le_refl _
  | seq kind elements => exact next_le_stampedElements elements clock
  | struct stamp fields =>
    have h := next_le_stampedFields fields clock
    simp only [stamped, Clock.tick]
    omega

theorem next_le_stampedElements (elements : List (Value σ)) (clock : Clock) :
    clock.next ≤ (stampedElements elements clock).2.next := by
  cases elements with
  | nil => exact Nat.le_refl _
  | cons value rest =>
    have hvalue := next_le_stamped value clock
    have hrest := next_le_stampedElements rest (value.stamped clock).2
    simp only [stampedElements]
    omega

theorem next_le_stampedFields (fields : List (String × Value σ)) (clock : Clock) :
    clock.next ≤ (stampedFields fields clock).2.next := by
  cases fields with
  | nil => exact Nat.le_refl _
  | cons field rest =>
    obtain ⟨name, value⟩ := field
    have hvalue := next_le_stamped value clock
    have hrest := next_le_stampedFields rest (value.stamped clock).2
    simp only [stampedFields]
    omega

end

/-! ### Without stamps -/

mutual

/-- The same data without stamps. -/
def unstamped : Value σ → Value
  | .scalar payload => .scalar payload
  | .seq kind elements => .seq kind (unstampedElements elements)
  | .struct _ fields => .struct () (unstampedFields fields)

/-- The same elements without stamps. -/
def unstampedElements : List (Value σ) → List Value
  | [] => []
  | value :: rest => value.unstamped :: unstampedElements rest

/-- The same fields without stamps. -/
def unstampedFields : List (String × Value σ) → List (String × Value)
  | [] => []
  | (name, value) :: rest => (name, value.unstamped) :: unstampedFields rest

end

theorem unstampedElements_eq_map (elements : List (Value σ)) :
    unstampedElements elements = elements.map unstamped := by
  induction elements with
  | nil => rfl
  | cons value rest ih => rw [unstampedElements, ih, List.map_cons]

theorem unstampedFields_eq_map (fields : List (String × Value σ)) :
    unstampedFields fields = fields.map fun field => (field.1, field.2.unstamped) := by
  induction fields with
  | nil => rfl
  | cons field rest ih =>
    obtain ⟨name, value⟩ := field
    rw [unstampedFields, ih, List.map_cons]

end Value
end Caseless
