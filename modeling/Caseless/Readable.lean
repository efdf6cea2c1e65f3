import Caseless.View

/-!
# Reading handles

A handle is anything that can be read like a value: the value itself, where names are looked up by
their spelling, or a view of it, where they resolve ignoring case.  Reading is one step deep: it
shows a scalar, a sequence of handles, or named handles.  Every traversal is a fold over these
steps, so it works for every kind of handle.

Main definitions:

- `Node`: what one step shows;
- `Readable`: the interface of handles, with instances for values and views;
- `Readable.fold`: the result of a traversal, bottom up;
- `Readable.get`, `Readable.scalar?` and the other accessors;
- `Readable.rebuild`: the plain value that a traversal sees.

Main results: `Readable.fold_eq`, the equation of a traversal, and `Readable.fold_wrap` and
`Readable.fold_view`, a traversal of a view gives what it gives of the value.
-/

namespace Caseless

open Name

/-- What one step of reading shows, with children in `α`. -/
inductive Node (α : Type) where
  | scalar (payload : Scalar)
  | seq (kind : SeqKind) (elements : List α)
  | struct (fields : List (String × α))

namespace Node

variable {α β γ : Type}

/-- The children in order. -/
def children : Node α → List α
  | .scalar _ => []
  | .seq _ elements => elements
  | .struct fields => fields.map (·.2)

/-- The kind of value that a node is of. -/
def tag : Node α → Tag
  | .scalar payload => payload.tag
  | .seq kind _ => kind.tag
  | .struct _ => .struct

/-- The same node with every child replaced. -/
def map (f : α → β) : Node α → Node β
  | .scalar payload => .scalar payload
  | .seq kind elements => .seq kind (elements.map f)
  | .struct fields => .struct (fields.map fun field => (field.1, f field.2))

/-- The same node with every child replaced by a function that may use that it is a child. -/
def mapChildren (node : Node α) (f : (child : α) → child ∈ node.children → β) : Node β :=
  match node, f with
  | .scalar payload, _ => .scalar payload
  | .seq kind elements, f => .seq kind (elements.attach.map fun child => f child.1 child.2)
  | .struct fields, f =>
    .struct (fields.attach.map fun field =>
      (field.1.1, f field.1.2 (List.mem_map_of_mem field.2)))

@[simp]
theorem mapChildren_eq_map (node : Node α) (f : α → β) :
    (node.mapChildren fun child _ => f child) = node.map f := by
  cases node with
  | scalar payload => rfl
  | seq kind elements => simp [mapChildren, map]
  | struct fields =>
    simp only [mapChildren, map, Node.struct.injEq]
    exact List.attach_map_val (f := fun field : String × α => (field.1, f field.2))

theorem map_map (node : Node α) (f : α → β) (g : β → γ) :
    (node.map f).map g = node.map (g ∘ f) := by
  cases node <;> simp [map, Function.comp_def]

theorem map_congr {node : Node α} {f g : α → β} (h : ∀ child ∈ node.children, f child = g child) :
    node.map f = node.map g := by
  cases node with
  | scalar payload => rfl
  | seq kind elements =>
    simp only [children] at h
    simpa [map] using h
  | struct fields =>
    simp only [map, Node.struct.injEq]
    refine List.map_congr_left fun field hfield => ?_
    rw [h field.2 (List.mem_map_of_mem hfield)]

theorem children_map (node : Node α) (f : α → β) :
    (node.map f).children = node.children.map f := by
  cases node <;> simp [map, children]

@[simp]
theorem tag_map (node : Node α) (f : α → β) : (node.map f).tag = node.tag := by
  cases node <;> rfl

end Node

/-- What can be read like a value. -/
class Readable (α : Type) where
  /-- One step of reading. -/
  visit : α → Node α
  /-- The field that a name leads to; nothing for what is no struct. -/
  find? : α → String → Option α
  /-- The size of what is left to read. -/
  nodes : α → Nat
  /-- Every step of reading leaves less. -/
  nodes_lt : ∀ {handle child : α}, child ∈ (visit handle).children → nodes child < nodes handle

/-! ### Values, by the spelling of names -/

variable {σ : Type}

/-- One step of reading a value. -/
def Value.visit : Value σ → Node (Value σ)
  | .scalar payload => .scalar payload
  | .seq kind elements => .seq kind elements
  | .struct _ fields => .struct fields

/-- The first field with a given spelling. -/
def Value.find? (value : Value σ) (name : String) : Option (Value σ) :=
  match value with
  | .struct _ fields => Fields.get? name fields
  | _ => none

/-- The children that a value shows are the ones that it has. -/
theorem Value.getElem?_children_visit (value : Value σ) (index : Nat) :
    value.visit.children[index]? = value.child? index := by
  cases value with
  | scalar payload => rfl
  | seq kind elements => rfl
  | struct stamp fields => simp [visit, Node.children, child?]

theorem Value.nodes_lt_of_mem_visit {value child : Value σ} (h : child ∈ value.visit.children) :
    child.nodes < value.nodes := by
  cases value with
  | scalar payload => simp [Value.visit, Node.children] at h
  | seq kind elements => exact Value.nodes_lt_of_mem_seq h
  | struct stamp fields =>
    obtain ⟨⟨name, value⟩, hmem, rfl⟩ := List.mem_map.mp h
    exact Value.nodes_lt_of_mem_struct hmem

instance : Readable (Value σ) where
  visit := Value.visit
  find? := Value.find?
  nodes := Value.nodes
  nodes_lt := Value.nodes_lt_of_mem_visit

/-! ### Views, ignoring case -/

/-- One step of reading a view. -/
def View.visit : View σ → Node (View σ)
  | .scalar payload => .scalar payload
  | .list view => .seq view.kind view.children
  | .struct view => .struct view.entries

/-- The field that a name resolves to. -/
def View.find? [DecidableEq σ] (view : View σ) (name : String) : Option (View σ) :=
  match view with
  | .struct view => view.get? name
  | _ => none

theorem View.nodes_lt_of_mem_visit {view child : View σ} (h : child ∈ view.visit.children) :
    child.rawValue.nodes < view.rawValue.nodes := by
  cases view with
  | scalar payload => simp [View.visit, Node.children] at h
  | list view =>
    obtain ⟨value, hmem, rfl⟩ := List.mem_map.mp h
    rw [rawValue_wrap]
    exact Value.nodes_lt_of_mem_seq hmem
  | struct view =>
    obtain ⟨entry, hentry, rfl⟩ := List.mem_map.mp h
    obtain ⟨⟨name, value⟩, hmem, rfl⟩ := List.mem_map.mp hentry
    rw [rawValue_wrap]
    exact Value.nodes_lt_of_mem_struct hmem

instance [DecidableEq σ] : Readable (View σ) where
  visit := View.visit
  find? := View.find?
  nodes view := view.rawValue.nodes
  nodes_lt := View.nodes_lt_of_mem_visit

theorem View.visit_wrap (policy : Policy) (value : Value σ) :
    (wrap policy value).visit = value.visit.map (wrap policy) := by
  cases value <;> rfl

namespace Readable

variable {α β : Type} [Readable α]

/-! ### Accessors -/

/-- The kind of what a handle reads. -/
def tag (handle : α) : Tag :=
  (visit handle).tag

/-- The payload, if there are no children. -/
def scalar? (handle : α) : Option Scalar :=
  match visit handle with
  | .scalar payload => some payload
  | _ => none

/-- Whether a handle reads a null of any kind. -/
def isNull (handle : α) : Bool :=
  (scalar? handle).any Scalar.isNull

/-- The kind and the elements of a sequence. -/
def list? (handle : α) : Option (SeqKind × Elements α) :=
  match visit handle with
  | .seq kind elements => some (kind, elements)
  | _ => none

/-- The fields of a struct. -/
def fields? (handle : α) : Option (Fields α) :=
  match visit handle with
  | .struct fields => some fields
  | _ => none

/-- The child at a key. -/
def get (handle : α) (key : Key) : Except Error (Option α) :=
  match visit handle, key with
  | .seq _ elements, .position index => (Elements.get elements index).map some
  | .struct _, .name name => .ok (find? handle name)
  | _, _ => .ok none

/-! ### Traversals -/

/-- The result of a traversal that computes the result of a node from those of its children. -/
def fold (combine : Node β → β) (handle : α) : β :=
  combine ((visit handle).mapChildren fun child _ => fold combine child)
termination_by nodes handle
decreasing_by
  rename_i h
  exact nodes_lt h

theorem fold_eq (combine : Node β → β) (handle : α) :
    fold combine handle = combine ((visit handle).map (fold combine)) := by
  rw [fold, Node.mapChildren_eq_map]

/-- The plain value with the given children. -/
def assemble : Node Value → Value
  | .scalar payload => .scalar payload
  | .seq kind elements => .seq kind elements
  | .struct fields => .struct () fields

/-- The plain value that a traversal sees. -/
def rebuild (handle : α) : Value :=
  fold assemble handle

/-- A traversal of a view gives what the same traversal of the value gives. -/
theorem fold_wrap [DecidableEq σ] (combine : Node β → β) (policy : Policy) (value : Value σ) :
    fold combine (wrap policy value) = fold combine value := by
  have hvisit : visit (wrap policy value) = (visit value).map (wrap policy) :=
    View.visit_wrap policy value
  rw [fold_eq, fold_eq combine value, hvisit, Node.map_map]
  congr 1
  refine Node.map_congr fun child hchild => ?_
  exact fold_wrap combine policy child
termination_by value.nodes
decreasing_by exact Value.nodes_lt_of_mem_visit hchild

/-- A traversal makes of a view what it makes of the wrapped value, whatever the policy and the
table of the view. -/
theorem fold_view [DecidableEq σ] (combine : Node β → β) (view : View σ) :
    fold combine view = fold combine view.rawValue := by
  have hvisit : ∃ policy, visit view = (visit view.rawValue).map (wrap policy) := by
    cases view with
    | scalar payload => exact ⟨default, rfl⟩
    | list view => exact ⟨view.policy, rfl⟩
    | struct view => exact ⟨view.policy, rfl⟩
  obtain ⟨policy, hvisit⟩ := hvisit
  rw [fold_eq, fold_eq combine view.rawValue, hvisit, Node.map_map]
  congr 1
  refine Node.map_congr ?_
  intro child hchild
  exact fold_wrap combine policy child

end Readable
end Caseless
