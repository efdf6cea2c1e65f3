import Caseless.Elements
import Caseless.Fields
import Caseless.Scalar

/-!
# Values

A value is a scalar, a sequence of values, or a struct: an ordered multimap from names to values.
Lists and s-expressions are the two kinds of sequence.  Each struct carries a stamp; plain data
carries the trivial stamp, and a program that tells versions of a struct apart chooses a type of
stamps with more elements.

Main definitions:

- `Value`: the data model;
- `Value.tag` and the typed accessors;
- `Value.eqBy`: equality, which reads the order of fields but no stamp;
- `Value.nodes`: the size of a value.
-/

namespace Caseless

/-- The two kinds of sequence. -/
inductive SeqKind where
  | list
  | sexp
  deriving DecidableEq, Repr

/-- The kind of value that a sequence is. -/
def SeqKind.tag : SeqKind → Tag
  | .list => .list
  | .sexp => .sexp

/-- A value whose structs carry stamps of type `σ`. -/
inductive Value (σ : Type := Unit) where
  | scalar (payload : Scalar)
  | seq (kind : SeqKind) (elements : List (Value σ))
  | struct (stamp : σ) (fields : List (String × Value σ))

namespace Value

variable {σ τ : Type}

/-- The plain null. -/
def null : Value σ :=
  .scalar (.null .null)

instance : Inhabited (Value σ) := ⟨null⟩

/-- The kind of a value.  A typed null reports the kind it is a null of. -/
def tag : Value σ → Tag
  | .scalar payload => payload.tag
  | .seq kind _ => kind.tag
  | .struct .. => .struct

/-- Whether a value is a null of any kind. -/
def isNull : Value σ → Bool
  | .scalar payload => payload.isNull
  | _ => false

/-- The payload of a value without children. -/
def scalar? : Value σ → Option Scalar
  | .scalar payload => some payload
  | _ => none

/-- The elements of a list or an s-expression. -/
def elements? : Value σ → Option (Elements (Value σ))
  | .seq _ elements => some elements
  | _ => none

/-- The fields of a struct. -/
def fields? : Value σ → Option (Fields (Value σ))
  | .struct _ fields => some fields
  | _ => none

/-! ### Equality -/

mutual

/-- Equality when floats are compared by `feq`.  Structs are equal when their ordered fields are;
stamps are not read. -/
def eqBy (feq : Float → Float → Bool) : Value σ → Value τ → Bool
  | .scalar a, .scalar b => a.eqBy feq b
  | .seq kind xs, .seq kind' ys => kind == kind' && eqElements feq xs ys
  | .struct _ fields, .struct _ fields' => eqFields feq fields fields'
  | _, _ => false

/-- Equality of elements, one by one. -/
def eqElements (feq : Float → Float → Bool) : List (Value σ) → List (Value τ) → Bool
  | [], [] => true
  | x :: xs, y :: ys => x.eqBy feq y && eqElements feq xs ys
  | _, _ => false

/-- Equality of fields, one by one, names as they are spelled. -/
def eqFields (feq : Float → Float → Bool) :
    List (String × Value σ) → List (String × Value τ) → Bool
  | [], [] => true
  | (name, x) :: xs, (name', y) :: ys => name == name' && x.eqBy feq y && eqFields feq xs ys
  | _, _ => false

end

/-- Floats are compared as usual: not-a-number differs from itself, and the two zeros are equal. -/
instance : BEq (Value σ) := ⟨eqBy (· == ·)⟩

/-! ### Size -/

mutual

/-- The number of nodes of a value. -/
def nodes : Value σ → Nat
  | .scalar _ => 1
  | .seq _ elements => 1 + nodesOfElements elements
  | .struct _ fields => 1 + nodesOfFields fields

/-- The number of nodes of elements. -/
def nodesOfElements : List (Value σ) → Nat
  | [] => 0
  | x :: xs => x.nodes + nodesOfElements xs

/-- The number of nodes of the values of fields. -/
def nodesOfFields : List (String × Value σ) → Nat
  | [] => 0
  | (_, x) :: xs => x.nodes + nodesOfFields xs

end

theorem nodes_le_of_mem_elements {x : Value σ} {xs : List (Value σ)} (h : x ∈ xs) :
    x.nodes ≤ nodesOfElements xs := by
  induction xs with
  | nil => simp at h
  | cons y ys ih =>
    simp only [nodesOfElements]
    rcases List.mem_cons.mp h with rfl | h
    · omega
    · have := ih h
      omega

theorem nodes_le_of_mem_fields {name : String} {x : Value σ} {xs : List (String × Value σ)}
    (h : (name, x) ∈ xs) : x.nodes ≤ nodesOfFields xs := by
  induction xs with
  | nil => simp at h
  | cons y ys ih =>
    obtain ⟨name', y⟩ := y
    simp only [nodesOfFields]
    rcases List.mem_cons.mp h with heq | h
    · cases heq
      omega
    · have := ih h
      omega

/-- An element is smaller than the sequence that holds it. -/
theorem nodes_lt_of_mem_seq {kind : SeqKind} {x : Value σ} {xs : List (Value σ)} (h : x ∈ xs) :
    x.nodes < (Value.seq kind xs).nodes := by
  have := nodes_le_of_mem_elements h
  simp only [nodes]
  omega

/-- The value of a field is smaller than the struct that holds it. -/
theorem nodes_lt_of_mem_struct {stamp : σ} {name : String} {x : Value σ}
    {xs : List (String × Value σ)} (h : (name, x) ∈ xs) :
    x.nodes < (Value.struct stamp xs).nodes := by
  have := nodes_le_of_mem_fields h
  simp only [nodes]
  omega

end Value
end Caseless
