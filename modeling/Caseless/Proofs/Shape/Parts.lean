import Caseless.Shape

/-!
# Parts of shapes

A shape is made of other shapes: the elements of a sequence, the fields of a record, what the
variants of an enumeration hold.  A condition on a type of data is often one on each of the shapes
that it is made of, at any depth.

Main definitions:

- `Shape.parts`: the shapes that a shape is made of;
- `Shape.boundFields`: the declared fields that a shape looks up by name;
- `Shape.readsNames`: the shapes that take the names of fields as they are stored;
- `Shape.Everywhere`: a condition that holds of a shape and of all that it is made of.

Main result: `Shape.Everywhere.of_forall`, a condition on every shape is met at any depth.
-/

namespace Caseless

namespace Payload

/-- The shapes that a variant is made of. -/
def parts : Payload → List Shape
  | .unit => []
  | .newtype inner => [inner]
  | .tuple elements => elements
  | .record fields => fields.map Field.shape

/-- The declared fields that a variant looks up by name. -/
def boundFields : Payload → List Field
  | .record fields => fields
  | _ => []

end Payload

namespace Shape

/-- The shapes that a shape is made of. -/
def parts : Shape → List Shape
  | .leaf _ | .value | .ignored => []
  | .option present => [present]
  | .seq element => [element]
  | .tuple _ elements => elements
  | .map _ entry => [entry]
  | .newtype inner => [inner]
  | .record fields | .flat _ fields => fields.map Field.shape
  | .enum _ variants => variants.flatMap fun variant => variant.2.parts

/-- The declared fields that a shape looks up by name.  A record that keeps what it does not declare
looks up none: it takes all fields in the order in which they are stored. -/
def boundFields : Shape → List Field
  | .record fields => fields
  | .enum _ variants => variants.flatMap fun variant => variant.2.boundFields
  | _ => []

/-- Whether a shape takes the names of fields as they are stored: as keys of a map, as names of
variants, or as part of a value. -/
def readsNames : Shape → Bool
  | .value | .map .. | .flat .. | .enum .. => true
  | _ => false

/-- A condition that a shape meets together with all that it is made of. -/
inductive Everywhere (condition : Shape → Prop) : Shape → Prop where
  | intro {shape : Shape} (here : condition shape)
    (parts : ∀ part ∈ shape.parts, Everywhere condition part) : Everywhere condition shape

namespace Everywhere

variable {condition other : Shape → Prop} {shape : Shape}

/-- A shape that is made of no other meets a condition everywhere if it meets it itself. -/
theorem of_parts_eq_nil (here : condition shape) (h : shape.parts = []) :
    shape.Everywhere condition := by
  refine .intro here fun part hmem => ?_
  rw [h] at hmem
  contradiction

theorem imp (himp : ∀ part, condition part → other part) (h : shape.Everywhere condition) :
    shape.Everywhere other := by
  induction h with
  | intro here _ ih => exact .intro (himp _ here) ih

theorem and (h : shape.Everywhere condition) (h' : shape.Everywhere other) :
    shape.Everywhere fun part => condition part ∧ other part := by
  induction h with
  | intro here _ ih =>
    cases h' with
    | intro here' parts' => exact .intro ⟨here, here'⟩ fun part hmem => ih part hmem (parts' part hmem)

end Everywhere
end Shape

/-! ### Parts are smaller -/

theorem Field.sizeOf_shape_lt {field : Field} {fields : List Field} (h : field ∈ fields) :
    sizeOf field.shape < sizeOf fields := by
  have hlt := List.sizeOf_lt_of_mem h
  rcases field with ⟨name, spellings, shape, fallback⟩
  rw [mk.sizeOf_spec] at hlt
  rw [Field.shape]
  omega

theorem Payload.sizeOf_lt_of_mem_parts {payload : Payload} {part : Shape}
    (h : part ∈ payload.parts) : sizeOf part < sizeOf payload := by
  cases payload with
  | unit => contradiction
  | newtype inner =>
    rw [List.mem_singleton.mp h, newtype.sizeOf_spec]
    omega
  | tuple elements =>
    have hlt : sizeOf part < sizeOf elements := List.sizeOf_lt_of_mem h
    rw [tuple.sizeOf_spec]
    omega
  | record fields =>
    obtain ⟨field, hmem, rfl⟩ := List.mem_map.mp h
    have hlt := Field.sizeOf_shape_lt hmem
    rw [record.sizeOf_spec]
    omega

theorem Shape.sizeOf_lt_of_mem_parts {shape part : Shape} (h : part ∈ shape.parts) :
    sizeOf part < sizeOf shape := by
  cases shape with
  | leaf form => contradiction
  | value => contradiction
  | ignored => contradiction
  | option inner | seq inner | map key inner | newtype inner =>
    rw [List.mem_singleton.mp h]
    simp only [option.sizeOf_spec, seq.sizeOf_spec, map.sizeOf_spec, newtype.sizeOf_spec]
    omega
  | tuple form elements =>
    have hlt : sizeOf part < sizeOf elements := List.sizeOf_lt_of_mem h
    rw [tuple.sizeOf_spec]
    omega
  | record fields | flat name fields =>
    obtain ⟨field, hmem, rfl⟩ := List.mem_map.mp h
    have hlt := Field.sizeOf_shape_lt hmem
    simp only [record.sizeOf_spec, flat.sizeOf_spec]
    omega
  | enum name variants =>
    obtain ⟨⟨variant, payload⟩, hmem, hpart⟩ := List.mem_flatMap.mp h
    have hpayload := Payload.sizeOf_lt_of_mem_parts hpart
    have hlt := List.sizeOf_lt_of_mem hmem
    rw [Prod.mk.sizeOf_spec] at hlt
    rw [enum.sizeOf_spec]
    dsimp only at hpayload
    omega

/-- A condition on every shape is met everywhere. -/
theorem Shape.Everywhere.of_forall {condition : Shape → Prop} (h : ∀ part, condition part)
    (shape : Shape) : shape.Everywhere condition :=
  .intro (h shape) fun part _ => of_forall h part
termination_by shape
decreasing_by exact Shape.sizeOf_lt_of_mem_parts ‹_›

end Caseless
