import Caseless.Path
import Caseless.Value

/-!
# Children and positions

A child of a value is an element of a sequence or the value of a field.  Exact access finds it by
position or by the spelling of its name; a list of child indices addresses any node of a value.

Main definitions:

- `Value.get`: the child at a key, names as they are spelled;
- `Value.child?`, `Value.at?`: the node at a child index, and at a list of them;
- `Value.modifyAt`: the value with one node changed.

Main results: `Value.at?_append` and `Value.at?_modifyAt`.
-/

namespace Caseless
namespace Value

variable {σ : Type}

/-- The child at a key.  A bad position in a sequence is an error; a name that is absent, or a key
of the wrong kind for the value, leads nowhere. -/
def get (value : Value σ) (key : Key) : Except Error (Option (Value σ)) :=
  match value, key with
  | .seq _ elements, .position index => (Elements.get elements index).map some
  | .struct _ fields, .name name => .ok (Fields.get? name fields)
  | _, _ => .ok none

/-- The child with an index, in order of enumeration. -/
def child? : Value σ → Nat → Option (Value σ)
  | .scalar _, _ => none
  | .seq _ elements, index => elements[index]?
  | .struct _ fields, index => (fields[index]?).map (·.2)

/-- The node at a list of child indices. -/
def at? (value : Value σ) : List Nat → Option (Value σ)
  | [] => some value
  | index :: rest => (value.child? index).bind fun child => child.at? rest

/-- The value with the child at an index changed. -/
def modifyChild (value : Value σ) (index : Nat) (f : Value σ → Value σ) : Value σ :=
  match value with
  | .scalar payload => .scalar payload
  | .seq kind elements => .seq kind (elements.modify index f)
  | .struct stamp fields =>
    .struct stamp (fields.modify index fun field => (field.1, f field.2))

/-- The value with the node at a list of child indices changed. -/
def modifyAt (value : Value σ) (f : Value σ → Value σ) : List Nat → Value σ
  | [] => f value
  | index :: rest => value.modifyChild index fun child => child.modifyAt f rest

@[simp]
theorem at?_nil (value : Value σ) : value.at? [] = some value :=
  rfl

@[simp]
theorem at?_cons (value : Value σ) (index : Nat) (rest : List Nat) :
    value.at? (index :: rest) = (value.child? index).bind fun child => child.at? rest :=
  rfl

theorem at?_append (value : Value σ) (front back : List Nat) :
    value.at? (front ++ back) = (value.at? front).bind fun node => node.at? back := by
  induction front generalizing value with
  | nil => rfl
  | cons index rest ih =>
    simp only [List.cons_append, at?_cons]
    cases value.child? index with
    | none => rfl
    | some child => exact ih child

theorem child?_modifyChild (value : Value σ) (index : Nat) (f : Value σ → Value σ) :
    (value.modifyChild index f).child? index = (value.child? index).map f := by
  cases value with
  | scalar payload => rfl
  | seq kind elements => simp [modifyChild, child?]
  | struct stamp fields =>
    simp only [modifyChild, child?, List.getElem?_modify_eq]
    cases fields[index]? <;> rfl

/-- Changing a child changes no other child. -/
theorem child?_modifyChild_of_ne (value : Value σ) (f : Value σ → Value σ) {index other : Nat}
    (h : index ≠ other) : (value.modifyChild index f).child? other = value.child? other := by
  cases value with
  | scalar payload => rfl
  | seq kind elements => simp [modifyChild, child?, h]
  | struct stamp fields => simp [modifyChild, child?, h]

/-- The node that was changed is the change of the node that was there. -/
theorem at?_modifyAt (value : Value σ) (f : Value σ → Value σ) (position : List Nat) :
    (value.modifyAt f position).at? position = (value.at? position).map f := by
  induction position generalizing value with
  | nil => rfl
  | cons index rest ih =>
    simp only [modifyAt, at?_cons, child?_modifyChild]
    cases value.child? index with
    | none => rfl
    | some child => exact ih child

end Value
end Caseless
