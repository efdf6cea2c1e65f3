import Caseless.Proofs.Data.Copying

/-!
# What JSON keeps of a value

JSON has one kind of null, one of text, numbers, and arrays for anything in a row.  A value that is
written as JSON and read back comes back as what JSON keeps of it: bytes as a list of numbers, text
of any kind as a string, and the rest as it is.

A number is read back where it is an integer; how a float is spelled is left out, and so are values
with floats in them.

Main definitions:

- `Value.jsonNormal`: what JSON keeps of a value;
- `Value.jsonNesting`: how deep the text of a value nests;
- `Value.FloatFree`: no node is a float.

Main results:

- Theorems `Value.at?_jsonNormal` and `Value.names_jsonNormal`: each node is kept where it stood,
  and each struct with its names.
-/

namespace Caseless

/-! ## Scalars -/

/-- The integer of an octet. -/
def byteInt (byte : UInt8) : Int64 :=
  Int64.ofNat byte.toNat

theorem toInt_byteInt (byte : UInt8) : (byteInt byte).toInt = byte.toNat := by
  have hbyte : byte.toNat < 2 ^ 8 := byte.toNat_lt
  exact Int64.toInt_ofNat_of_lt (by omega)

/-- The value that a scalar comes back as.  A decimal comes back as text: the coefficient, the letter
`d` and the exponent, both numbers in decimal digits. -/
def Scalar.jsonNormal : Scalar → Value
  | .null _ => .null
  | .decimal d =>
    .scalar (.string (toString d.coefficient.toInt ++ "d" ++ toString d.exponent.toInt))
  | .timestamp text | .symbol text => .scalar (.string text)
  | .clob bytes | .blob bytes =>
    .seq .list (bytes.data.toList.map fun byte => .scalar (.int (byteInt byte)))
  | payload => .scalar payload

/-- How deep the text of a scalar nests. -/
def Scalar.jsonNesting : Scalar → Nat
  | .clob _ | .blob _ => 1
  | _ => 0

namespace Value

variable {σ : Type}

/-! ## Values -/

mutual

/-- The value that a value comes back as: bytes as lists of integers, and one kind of null, of text
and of sequence. -/
def jsonNormal : Value σ → Value
  | .scalar payload => payload.jsonNormal
  | .seq _ elements => .seq .list (jsonNormalElements elements)
  | .struct _ fields => .struct () (jsonNormalFields fields)

/-- The elements that elements come back as. -/
def jsonNormalElements : List (Value σ) → List Value
  | [] => []
  | value :: rest => value.jsonNormal :: jsonNormalElements rest

/-- The fields that fields come back as: every name as it is spelled. -/
def jsonNormalFields : List (String × Value σ) → List (String × Value)
  | [] => []
  | (name, value) :: rest => (name, value.jsonNormal) :: jsonNormalFields rest

end

mutual

/-- How deep the text of a value nests: an array or an object is one level above the deepest of its
items. -/
def jsonNesting : Value σ → Nat
  | .scalar payload => payload.jsonNesting
  | .seq _ elements => 1 + jsonNestingElements elements
  | .struct _ fields => 1 + jsonNestingFields fields

/-- How deep the texts of elements nest. -/
def jsonNestingElements : List (Value σ) → Nat
  | [] => 0
  | value :: rest => max value.jsonNesting (jsonNestingElements rest)

/-- How deep the texts of the values of fields nest. -/
def jsonNestingFields : List (String × Value σ) → Nat
  | [] => 0
  | (_, value) :: rest => max value.jsonNesting (jsonNestingFields rest)

end

@[simp]
theorem jsonNormal_scalar (payload : Scalar) :
    (scalar payload : Value σ).jsonNormal = payload.jsonNormal :=
  rfl

@[simp]
theorem jsonNormal_seq (kind : SeqKind) (elements : List (Value σ)) :
    (seq kind elements).jsonNormal = .seq .list (elements.map jsonNormal) := by
  have h : jsonNormalElements elements = elements.map jsonNormal := by
    induction elements with
    | nil => rfl
    | cons value rest ih => rw [jsonNormalElements, ih, List.map_cons]
  rw [jsonNormal, h]

@[simp]
theorem jsonNormal_struct (stamp : σ) (fields : List (String × Value σ)) :
    (struct stamp fields).jsonNormal =
      .struct () (fields.map fun field => (field.1, field.2.jsonNormal)) := by
  have h : jsonNormalFields fields = fields.map fun field => (field.1, field.2.jsonNormal) := by
    induction fields with
    | nil => rfl
    | cons field rest ih =>
      obtain ⟨name, value⟩ := field
      rw [jsonNormalFields, ih, List.map_cons]
  rw [jsonNormal, h]

/-- The text of a sequence nests one level deeper than the texts of its elements. -/
theorem jsonNesting_seq_le_iff (kind : SeqKind) (elements : List (Value σ)) (depth : Nat) :
    (seq kind elements).jsonNesting ≤ depth + 1 ↔
      ∀ element ∈ elements, element.jsonNesting ≤ depth := by
  have h : jsonNestingElements elements ≤ depth ↔
      ∀ element ∈ elements, element.jsonNesting ≤ depth := by
    induction elements with
    | nil => simp [jsonNestingElements]
    | cons value rest ih => rw [jsonNestingElements, Nat.max_le, ih, List.forall_mem_cons]
  rw [jsonNesting, Nat.add_comm, Nat.add_le_add_iff_right, h]

/-- The text of a struct nests one level deeper than the texts of the values of its fields. -/
theorem jsonNesting_struct_le_iff (stamp : σ) (fields : List (String × Value σ)) (depth : Nat) :
    (struct stamp fields).jsonNesting ≤ depth + 1 ↔
      ∀ field ∈ fields, field.2.jsonNesting ≤ depth := by
  have h : jsonNestingFields fields ≤ depth ↔ ∀ field ∈ fields, field.2.jsonNesting ≤ depth := by
    induction fields with
    | nil => simp [jsonNestingFields]
    | cons field rest ih =>
      obtain ⟨name, value⟩ := field
      rw [jsonNestingFields, Nat.max_le, ih, List.forall_mem_cons]
  rw [jsonNesting, Nat.add_comm, Nat.add_le_add_iff_right, h]

/-- No node of a value is a float. -/
def FloatFree (value : Value σ) : Prop :=
  ∀ position node, value.at? position = some node → ∀ x, node ≠ .scalar (.float x)

theorem floatFree_iff (value : Value σ) :
    value.FloatFree ↔
      (∀ x, value ≠ .scalar (.float x)) ∧ ∀ child ∈ value.visit.children, child.FloatFree :=
  value.forall_at?_iff

@[simp]
theorem floatFree_scalar (payload : Scalar) :
    (scalar payload : Value σ).FloatFree ↔ ∀ x, payload ≠ .float x := by
  rw [floatFree_iff]
  simp [visit, Node.children]

@[simp]
theorem floatFree_seq (kind : SeqKind) (elements : List (Value σ)) :
    (seq kind elements).FloatFree ↔ ∀ element ∈ elements, element.FloatFree := by
  rw [floatFree_iff]
  simp [visit, Node.children]

@[simp]
theorem floatFree_struct (stamp : σ) (fields : List (String × Value σ)) :
    (struct stamp fields).FloatFree ↔ ∀ field ∈ fields, field.2.FloatFree := by
  rw [floatFree_iff]
  constructor
  · intro h field hfield
    exact h.2 field.2 (List.mem_map_of_mem hfield)
  · intro h
    exact ⟨fun x => nofun, List.forall_mem_map.mpr h⟩

/-- What is read back has the names of the value, as they are spelled and in their order. -/
theorem names_jsonNormal {value : Value σ} {fields : Fields (Value σ)}
    (h : value.fields? = some fields) :
    value.jsonNormal.fields?.map Fields.names = some fields.names := by
  cases value with
  | scalar payload => contradiction
  | seq kind elements => contradiction
  | struct stamp fields' =>
    obtain rfl : fields' = fields := Option.some.inj h
    simp [fields?, Fields.names, Function.comp_def]

/-- Each node comes back where it stood. -/
theorem at?_jsonNormal {value node : Value σ} {position : List Nat}
    (h : value.at? position = some node) :
    value.jsonNormal.at? position = some node.jsonNormal := by
  induction position generalizing value with
  | nil =>
    obtain rfl : value = node := Option.some.inj h
    rfl
  | cons index rest ih =>
    rw [at?_cons, Option.bind_eq_some_iff] at h
    obtain ⟨child, hchild, hnode⟩ := h
    have hback : value.jsonNormal.child? index = some child.jsonNormal := by
      cases value with
      | scalar payload => contradiction
      | seq kind elements =>
        rw [child?] at hchild
        simp [child?, hchild]
      | struct stamp fields =>
        rw [child?, Option.map_eq_some_iff] at hchild
        obtain ⟨field, hfield, rfl⟩ := hchild
        simp [child?, hfield]
    rw [at?_cons, hback, Option.bind_some]
    exact ih hnode

end Value
end Caseless
