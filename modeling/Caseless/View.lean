import Caseless.Name.Index
import Caseless.Value.Position

/-!
# Views

A view presents a value so that names of struct fields are looked up ignoring case, at any depth.
Scalars, typed nulls included, are passed through; sequences and structs are wrapped, and hand out
their children wrapped under the same policy.  Nothing else changes: names are enumerated as they
are stored, in the order in which they are stored.

Main definitions:

- `ListView`, `StructView`, `View`: the wrapped containers and the view of any value;
- `wrap`: the view of a value under a policy;
- `View.get`: the child at a key;
- `View.rawValue`: the value that was wrapped.

Main result: `rawValue_wrap`, wrapping loses nothing.
-/

namespace Caseless

open Name

/-- A sequence whose elements are handed out wrapped. -/
structure ListView (σ : Type := Unit) where
  kind : SeqKind
  policy : Policy
  elements : Elements (Value σ)

/-- A struct whose names are looked up ignoring case, through an index of its own. -/
structure StructView (σ : Type := Unit) where
  record : Record σ (Value σ)
  index : NameIndex σ

/-- The view of a value. -/
inductive View (σ : Type := Unit) where
  | scalar (payload : Scalar)
  | list (view : ListView σ)
  | struct (view : StructView σ)

variable {σ τ : Type}

/-- The view of a struct, with no table built yet. -/
def StructView.new (record : Record σ (Value σ)) (policy : Policy) : StructView σ :=
  ⟨record, .new policy⟩

/-- Wraps a value under a policy. -/
def wrap (policy : Policy) : Value σ → View σ
  | .scalar payload => .scalar payload
  | .seq kind elements => .list ⟨kind, policy, elements⟩
  | .struct stamp fields => .struct (.new ⟨stamp, fields⟩ policy)

/-! ### Sequences -/

namespace ListView

/-- The number of elements. -/
def size (view : ListView σ) : Nat :=
  view.elements.length

/-- The element at a position, wrapped. -/
def get (view : ListView σ) (position : Nat) : Except Error (View σ) :=
  (view.elements.get position).map (wrap view.policy)

/-- All elements, wrapped. -/
def children (view : ListView σ) : List (View σ) :=
  view.elements.map (wrap view.policy)

/-- The same elements handed out under another policy. -/
def withPolicy (view : ListView σ) (policy : Policy) : ListView σ :=
  { view with policy }

/-- The sequence that is wrapped. -/
def rawValue (view : ListView σ) : Value σ :=
  .seq view.kind view.elements

end ListView

/-! ### Structs -/

namespace StructView

/-- The policy that resolves names. -/
def policy (view : StructView σ) : Policy :=
  view.index.policy

/-- The number of fields, duplicates included. -/
def size (view : StructView σ) : Nat :=
  view.record.size

/-- The names as they are stored. -/
def names (view : StructView σ) : List String :=
  view.record.names

/-- All fields in order, values wrapped. -/
def entries (view : StructView σ) : List (String × View σ) :=
  view.record.fields.map fun field => (field.1, wrap view.policy field.2)

/-- The same struct under another policy; the table is kept. -/
def withPolicy (view : StructView σ) (policy : Policy) : StructView σ :=
  { view with index := view.index.withPolicy policy }

/-- A copy of the view, which builds a table of its own. -/
def fork (view : StructView σ) : StructView σ :=
  { view with index := view.index.fork }

/-- The struct that is wrapped. -/
def rawValue (view : StructView σ) : Value σ :=
  .struct view.record.stamp view.record.fields

variable [DecidableEq σ]

/-- Whether the next lookup is answered from the table that is there. -/
def isFresh (view : StructView σ) : Bool :=
  view.index.isFreshFor view.record

/-- The view after a lookup. -/
def warm (view : StructView σ) : StructView σ :=
  { view with index := view.index.warm view.record }

/-- The report of the build that the next lookup makes, if it makes one. -/
def pending (view : StructView σ) : Option BuildEvent :=
  view.index.pending view.record

/-- The position that a name resolves to. -/
def position? (view : StructView σ) (name : String) : Option Nat :=
  view.index.lookup view.record name

/-- The field that a name resolves to, wrapped. -/
def get? (view : StructView σ) (name : String) : Option (View σ) :=
  (view.position? name).bind fun position =>
    (view.record.fields[position]?).map fun field => wrap view.policy field.2

/-- Every field that a name matches, wrapped, in order. -/
def getAll (view : StructView σ) (name : String) : List (View σ) :=
  (view.record.fields.valuesAt (view.index.lookupAll view.record name)).map (wrap view.policy)

/-- How many fields a name matches, as the table tells before any of them is read. -/
def countAll (view : StructView σ) (name : String) : Nat :=
  (view.index.lookupAll view.record name).length

/-- Whether a name resolves to a field. -/
def contains (view : StructView σ) (name : String) : Bool :=
  (view.position? name).isSome

/-- The stored spelling of the name of the field that a name resolves to. -/
def resolve? (view : StructView σ) (name : String) : Option String :=
  (view.position? name).bind fun position => (view.record.fields[position]?).map (·.1)

end StructView

/-! ### Views of any value -/

namespace View

/-- The kind of a view. -/
def tag : View σ → Tag
  | .scalar payload => payload.tag
  | .list view => view.kind.tag
  | .struct _ => .struct

/-- The payload of a view without children. -/
def scalar? : View σ → Option Scalar
  | .scalar payload => some payload
  | _ => none

/-- Whether a view is of a null of any kind. -/
def isNull : View σ → Bool
  | .scalar payload => payload.isNull
  | _ => false

/-- Whether a view wraps a container. -/
def isDecorated : View σ → Bool
  | .scalar _ => false
  | _ => true

/-- The view of a sequence. -/
def list? : View σ → Option (ListView σ)
  | .list view => some view
  | _ => none

/-- The view of a struct. -/
def struct? : View σ → Option (StructView σ)
  | .struct view => some view
  | _ => none

/-- The value that is wrapped. -/
def rawValue : View σ → Value σ
  | .scalar payload => .scalar payload
  | .list view => view.rawValue
  | .struct view => view.rawValue

/-- A copy of a view; a struct view starts without a table. -/
def fork : View σ → View σ
  | .struct view => .struct view.fork
  | view => view

/-- The same value under another policy. -/
def withPolicy (view : View σ) (policy : Policy) : View σ :=
  match view with
  | .scalar payload => .scalar payload
  | .list view => .list (view.withPolicy policy)
  | .struct view => .struct (view.withPolicy policy)

/-- The child at a key: a name resolves ignoring case, and a bad position in a sequence is an error.
A name that is absent, or a key of the wrong kind, leads nowhere. -/
def get [DecidableEq σ] (view : View σ) (key : Key) : Except Error (Option (View σ)) :=
  match view, key with
  | .list view, .position index => (view.get index).map some
  | .struct view, .name name => .ok (view.get? name)
  | _, _ => .ok none

/-- Equality with a value. -/
def eqValueBy (feq : Float → Float → Bool) (view : View σ) (value : Value τ) : Bool :=
  match view, value with
  | .scalar payload, value => (Value.scalar payload : Value σ).eqBy feq value
  | .list view, .seq kind elements =>
    view.kind == kind && Value.eqElements feq view.elements elements
  | .struct view, .struct _ fields => Value.eqFields feq view.record.fields fields
  | _, _ => false

/-- Equality of views: policies, tables and stamps are not read. -/
def eqBy (feq : Float → Float → Bool) (view : View σ) (other : View τ) : Bool :=
  match view, other with
  | .scalar a, .scalar b => a.eqBy feq b
  | .list a, .list b => a.kind == b.kind && Value.eqElements feq a.elements b.elements
  | .struct a, .struct b => Value.eqFields feq a.record.fields b.record.fields
  | _, _ => false

instance : BEq (View σ) := ⟨eqBy (· == ·)⟩

end View

/-! ### Wrapping loses nothing -/

@[simp]
theorem rawValue_wrap (policy : Policy) (value : Value σ) :
    (wrap policy value).rawValue = value := by
  cases value <;> rfl

@[simp]
theorem View.rawValue_fork (view : View σ) : view.fork.rawValue = view.rawValue := by
  cases view <;> rfl

@[simp]
theorem tag_wrap (policy : Policy) (value : Value σ) : (wrap policy value).tag = value.tag := by
  cases value <;> rfl

@[simp]
theorem scalar?_wrap (policy : Policy) (value : Value σ) :
    (wrap policy value).scalar? = value.scalar? := by
  cases value <;> rfl

end Caseless
