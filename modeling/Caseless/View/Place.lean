import Caseless.View

/-!
# Places

A place is a node of a value that may be overwritten: the value that stands there, and the child
indices that lead to it from the root.  A key leads from a place to the place of a child, by the
spelling of names or ignoring case; a change at a place is made in the root at its indices.

Main definitions:

- `Access`: how names are looked up;
- `Place`, `Place.enter`: a node with its address, and the step to a child;
- `Place.locate`: the place at the end of a path.
-/

namespace Caseless

open Name

/-- How names of struct fields are looked up. -/
inductive Access where
  /-- The first field with the spelling of the query. -/
  | exact
  /-- The field that the query resolves to ignoring case. -/
  | folded (policy : Policy)
  deriving DecidableEq, Repr

/-- The position of the field that a query leads to.  Ignoring case, an index is built for the
record in hand. -/
def Access.position? {σ α : Type} [DecidableEq σ] (access : Access) (record : Record σ α)
    (query : String) : Option Nat :=
  match access with
  | .exact => record.fields.position? query
  | .folded policy => (NameIndex.new policy).lookup record query

/-- A node of a value with its address. -/
structure Place (σ : Type := Unit) where
  /-- The child indices from the root. -/
  position : List Nat
  value : Value σ

namespace Place

variable {σ : Type}

/-- The root of a value. -/
def root (value : Value σ) : Place σ :=
  ⟨[], value⟩

/-- The place of a child. -/
def down (place : Place σ) (index : Nat) (child : Value σ) : Place σ :=
  ⟨place.position ++ [index], child⟩

variable [DecidableEq σ]

/-- The place of the child at a key. -/
def enter (access : Access) (place : Place σ) (key : Key) : Except Error (Option (Place σ)) :=
  match place.value, key with
  | .seq _ elements, .position index =>
    (Elements.get elements index).map fun child => some (place.down index child)
  | .struct stamp fields, .name name =>
    let record : Record σ (Value σ) := ⟨stamp, fields⟩
    .ok <| (access.position? record name).bind fun index =>
      (fields[index]?).map fun field => place.down index field.2
  | _, _ => .ok none

/-- The place at the end of a path from the root of a value. -/
def locate (access : Access) (value : Value σ) (path : List Key) : Arrival (Place σ) :=
  Path.follow (enter access) (root value) path

/-- The root with the node at this place changed. -/
def modify (place : Place σ) (root : Value σ) (f : Value σ → Value σ) : Value σ :=
  root.modifyAt f place.position

/-- The root with this place overwritten. -/
def write (place : Place σ) (root : Value σ) (value : Value σ) : Value σ :=
  place.modify root fun _ => value

end Place
end Caseless
