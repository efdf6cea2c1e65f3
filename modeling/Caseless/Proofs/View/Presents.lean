import Caseless.Proofs.View.Standing
import Caseless.Value.Stamped

/-!
# A view presents its value

Apart from looking up names, a view tells the same as the value that it wraps: kinds and payloads,
the elements of sequences and the fields of structs in their order, and the same failures.  It hands
out views of the children, so this holds at every node; and since a traversal takes nothing else
from a handle, it makes the same of a view as of the value.

Main results:

- Theorems `Readable.induction` and `Readable.eq_fold`: what holds of a handle whenever it holds of
  its children, and what a traversal computes;
- Definition `View.Presents`: what a view tells about the value that it wraps;
- Theorem `Readable.at?_wrap`: the same child indices lead to a node and to the view of it;
- Theorem `View.presents_at`: at every node the view presents the value, and rebuilding either gives
  the value back.
-/

namespace Caseless

open Name

/-! ## Traversals -/

namespace Readable

variable {α β : Type} [Readable α]

/-- What holds of a handle whenever it holds of the children, holds of every handle. -/
theorem induction {motive : α → Prop}
    (step : ∀ handle : α, (∀ child ∈ (visit handle).children, motive child) → motive handle)
    (handle : α) : motive handle := by
  refine step handle ?_
  intro child hchild
  exact induction step child
termination_by nodes handle
decreasing_by exact nodes_lt hchild

/-- A function that combines the results of the children is what the traversal computes. -/
theorem eq_fold {combine : Node β → β} {f : α → β}
    (h : ∀ handle, f handle = combine ((visit handle).map f)) (handle : α) :
    f handle = fold combine handle := by
  induction handle using induction with
  | step handle ih =>
    rw [h, fold_eq, Node.map_congr ih]

/-- The node that child indices lead to, each an index in the order of enumeration. -/
def at? (handle : α) : List Nat → Option α
  | [] => some handle
  | index :: rest => ((visit handle).children[index]?).bind fun child => at? child rest

end Readable

variable {σ : Type}

namespace Readable

/-- Read as a handle, a value leads along child indices to the nodes that it has. -/
theorem at?_value (value : Value σ) (position : List Nat) :
    at? value position = value.at? position := by
  induction position generalizing value with
  | nil => rfl
  | cons index rest ih =>
    have hchild : (visit value).children[index]? = value.child? index :=
      value.getElem?_children_visit index
    rw [at?, Value.at?_cons, hchild]
    cases value.child? index with
    | none => rfl
    | some child => exact ih child

/-- Child indices lead from a view to the views of the nodes that they lead to from the value. -/
theorem at?_wrap [DecidableEq σ] (policy : Policy) (value : Value σ) (position : List Nat) :
    at? (wrap policy value) position = (value.at? position).map (wrap policy) := by
  induction position generalizing value with
  | nil => rfl
  | cons index rest ih =>
    have hchild : (visit (wrap policy value)).children[index]? =
        (value.child? index).map (wrap policy) := by
      change (wrap policy value).visit.children[index]? = _
      rw [View.visit_wrap, Node.children_map, List.getElem?_map, Value.getElem?_children_visit]
    rw [at?, Value.at?_cons, hchild]
    cases value.child? index with
    | none => rfl
    | some child => exact ih child

/-- What a traversal of a value sees is the same data without stamps. -/
theorem rebuild_eq_unstamped (value : Value σ) : rebuild value = value.unstamped := by
  have hstep : ∀ value : Value σ,
      value.unstamped = assemble ((visit value).map Value.unstamped) := by
    intro value
    cases value with
    | scalar payload => rfl
    | seq kind elements => rw [Value.unstamped, Value.unstampedElements_eq_map]; rfl
    | struct stamp fields => rw [Value.unstamped, Value.unstampedFields_eq_map]; rfl
  exact (eq_fold hstep value).symm

end Readable

/-- Plain data has no stamps to lose. -/
@[simp]
theorem Value.unstamped_eq_self (value : Value) : value.unstamped = value := by
  have hstep : ∀ value : Value, id value = Readable.assemble ((Readable.visit value).map id) := by
    intro value
    cases value with
    | scalar payload => rfl
    | seq kind elements => simp [Readable.visit, Value.visit, Node.map, Readable.assemble]
    | struct stamp fields => simp [Readable.visit, Value.visit, Node.map, Readable.assemble]
  rw [← Readable.rebuild_eq_unstamped]
  exact (Readable.eq_fold hstep value).symm

/-! ## What a view tells -/

/-- Through the interface that all handles share, one handle answers as another does, with `f` of
each child. -/
structure Readable.AnswersAs {α β : Type} [Readable α] [Readable β] (f : α → β) (handle : α)
    (other : β) : Prop where
  tag_eq : tag other = tag handle
  isNull_eq : isNull other = isNull handle
  scalar_eq : scalar? other = scalar? handle
  list_eq : list? other = (list? handle).map fun list => (list.1, list.2.map f)
  fields_eq : fields? other = (fields? handle).map fun fields =>
    fields.map fun field => (field.1, f field.2)
  get_position : ∀ index,
    get other (.position index) = (get handle (.position index)).map (Option.map f)

/-- A handle that shows the same node with `f` of each child answers so. -/
theorem Readable.answersAs_of_visit {α β : Type} [Readable α] [Readable β] {f : α → β} {handle : α}
    {other : β} (h : visit other = (visit handle).map f) : AnswersAs f handle other := by
  have hscalar : scalar? other = scalar? handle := by
    rw [scalar?, scalar?, h]
    cases visit handle <;> rfl
  refine ⟨?_, ?_, hscalar, ?_, ?_, ?_⟩
  · rw [tag, tag, h, Node.tag_map]
  · rw [isNull, isNull, hscalar]
  · rw [list?, list?, h]
    cases visit handle <;> rfl
  · rw [fields?, fields?, h]
    cases visit handle <;> rfl
  · intro index
    unfold get
    rw [h]
    cases visit handle with
    | scalar payload => rfl
    | struct fields => rfl
    | seq kind elements =>
      change (Elements.get (elements.map f) index).map some =
        ((Elements.get elements index).map some).map (Option.map f)
      rw [Elements.get_map]
      cases Elements.get elements index <;> rfl

/-- A view resolves the names of what it wraps under a policy; a scalar has no names. -/
def View.CarriesPolicy (policy : Policy) : View σ → Prop
  | .scalar _ => True
  | .list view => view.policy = policy
  | .struct view => view.policy = policy

/-- A list view presents elements under a policy. -/
structure ListView.Presents (policy : Policy) (kind : SeqKind) (elements : Elements (Value σ))
    (view : ListView σ) : Prop where
  kind_eq : view.kind = kind
  policy_eq : view.policy = policy
  size_eq : view.size = elements.length
  isEmpty_eq : view.elements.isEmpty = elements.isEmpty
  /-- An element is handed out as its view, and a bad position fails alike. -/
  get_eq : ∀ index, view.get index = (elements.get index).map (wrap policy)
  /-- All elements are enumerated in their order, each as its view. -/
  children_eq : view.children = elements.map (wrap policy)

/-- A struct view presents fields under a policy. -/
structure StructView.Presents [DecidableEq σ] (policy : Policy) (fields : Fields (Value σ))
    (view : StructView σ) : Prop where
  policy_eq : view.policy = policy
  size_eq : view.size = fields.length
  isEmpty_eq : view.record.fields.isEmpty = fields.isEmpty
  /-- Names are told as they are spelled, in their order. -/
  names_eq : view.names = fields.names
  /-- All fields are enumerated in their order, each value as its view. -/
  entries_eq : view.entries = fields.map fun field => (field.1, wrap policy field.2)
  /-- All fields that a name matches are handed out under the policy. -/
  carries_getAll : ∀ name, ∀ child ∈ view.getAll name, child.CarriesPolicy policy

/-- A view presents a value under a policy: but for the lookup of names, it tells the same. -/
structure View.Presents [DecidableEq σ] (policy : Policy) (value : Value σ) (view : View σ) :
    Prop where
  tag_eq : view.tag = value.tag
  isNull_eq : view.isNull = value.isNull
  scalar_eq : view.scalar? = value.scalar?
  /-- Every typed accessor of scalars gives the same. -/
  typed_eq : ∀ {β : Type} (read : Scalar → Option β),
    view.scalar?.bind read = value.scalar?.bind read
  /-- Nulls, typed ones included, and other scalars are passed through, and nothing else is. -/
  decorated_iff : view.isDecorated = false ↔ value.isNull = true ∨ value.tag.isScalar = true
  list_isSome : view.list?.isSome = (Readable.list? value).isSome
  list : ∀ list, view.list? = some list →
    ∃ kind elements, Readable.list? value = some (kind, elements) ∧
      list.Presents policy kind elements
  struct_isSome : view.struct?.isSome = value.fields?.isSome
  struct : ∀ struct, view.struct? = some struct →
    ∃ fields, value.fields? = some fields ∧ struct.Presents policy fields
  /-- A position leads to the view of the child that it leads to, or fails alike. -/
  get_position : ∀ index, view.get (.position index) =
    (value.get (.position index)).map (Option.map (wrap policy))
  /-- One step of reading shows the same kind of node with the same payload. -/
  visit_eq : view.visit = value.visit.map (wrap policy)
  /-- The same holds through the interface that all handles share. -/
  answers : Readable.AnswersAs (wrap policy) value view
  /-- However a child is asked for, it is handed out under the same policy. -/
  carries : view.CarriesPolicy policy
  carries_get : ∀ key child, view.get key = .ok (some child) → child.CarriesPolicy policy
  carries_visit : ∀ child ∈ view.visit.children, child.CarriesPolicy policy

theorem View.carriesPolicy_wrap (policy : Policy) (value : Value σ) :
    (wrap policy value).CarriesPolicy policy := by
  cases value with
  | scalar payload => trivial
  | seq kind elements => rfl
  | struct stamp fields => rfl

theorem ListView.presents_mk (policy : Policy) (kind : SeqKind) (elements : Elements (Value σ)) :
    Presents policy kind elements ⟨kind, policy, elements⟩ :=
  ⟨rfl, rfl, rfl, rfl, fun _ => rfl, rfl⟩

theorem StructView.presents_new [DecidableEq σ] (policy : Policy)
    (record : Record σ (Value σ)) : Presents policy record.fields (.new record policy) := by
  refine ⟨rfl, rfl, rfl, rfl, rfl, ?_⟩
  intro name child hmem
  obtain ⟨node, -, rfl⟩ := List.mem_map.mp hmem
  exact View.carriesPolicy_wrap policy node

namespace View

/-- What a view of a value enumerates is under its policy. -/
theorem carriesPolicy_of_mem {policy : Policy} {value : Value σ} {child : View σ}
    (h : child ∈ (wrap policy value).visit.children) : child.CarriesPolicy policy := by
  rw [visit_wrap, Node.children_map] at h
  obtain ⟨node, -, rfl⟩ := List.mem_map.mp h
  exact carriesPolicy_wrap policy node

/-- A view wraps exactly what is no null and of a kind that holds other values. -/
theorem isDecorated_wrap_iff (policy : Policy) (value : Value σ) :
    (wrap policy value).isDecorated = false ↔ value.isNull = true ∨ value.tag.isScalar = true := by
  cases value with
  | scalar payload => cases payload <;> simp [wrap, isDecorated, Value.isNull, Scalar.isNull,
      Value.tag, Scalar.tag, Tag.isScalar, Tag.isContainer, Tag.isSequence]
  | seq kind elements => cases kind <;> simp [wrap, isDecorated, Value.isNull, Value.tag,
      SeqKind.tag, Tag.isScalar, Tag.isContainer, Tag.isSequence]
  | struct stamp fields => simp [wrap, isDecorated, Value.isNull, Value.tag, Tag.isScalar,
      Tag.isContainer]

variable [DecidableEq σ]

theorem presents_wrap (policy : Policy) (value : Value σ) :
    Presents policy value (wrap policy value) := by
  refine
    { tag_eq := tag_wrap policy value, isNull_eq := ?_, scalar_eq := scalar?_wrap policy value,
      typed_eq := ?_, decorated_iff := isDecorated_wrap_iff policy value, list_isSome := ?_,
      list := ?_, struct_isSome := ?_, struct := ?_, get_position := ?_,
      visit_eq := visit_wrap policy value, carries := carriesPolicy_wrap policy value,
      answers := Readable.answersAs_of_visit (visit_wrap policy value), carries_get := ?_,
      carries_visit := fun _ hmem => carriesPolicy_of_mem hmem }
  · cases value <;> rfl
  · intro β read
    rw [scalar?_wrap]
  · cases value <;> rfl
  · intro list hlist
    cases value with
    | scalar payload => contradiction
    | struct stamp fields => contradiction
    | seq kind elements =>
      have heq : list = ⟨kind, policy, elements⟩ := (Option.some.inj hlist).symm
      subst heq
      exact ⟨kind, elements, rfl, ListView.presents_mk policy kind elements⟩
  · cases value <;> rfl
  · intro struct hstruct
    cases value with
    | scalar payload => contradiction
    | seq kind elements => contradiction
    | struct stamp fields =>
      have heq : struct = .new ⟨stamp, fields⟩ policy := (Option.some.inj hstruct).symm
      subst heq
      exact ⟨fields, rfl, StructView.presents_new policy ⟨stamp, fields⟩⟩
  · intro index
    cases value with
    | scalar payload => rfl
    | struct stamp fields => rfl
    | seq kind elements =>
      change ((Elements.get elements index).map (wrap policy)).map some =
        ((Elements.get elements index).map some).map (Option.map (wrap policy))
      cases Elements.get elements index <;> rfl
  · intro key child hget
    obtain ⟨index, -, hchild⟩ := exists_index_of_get hget
    exact carriesPolicy_of_mem (List.mem_of_getElem? hchild)

/-- At every node that child indices lead to, the handle of the value and the handle of its view
tell the same, but for the lookup of names.  So a traversal of either, and taking off the view, give
the value back. -/
theorem presents_at (policy : Policy) (value : Value σ) :
    (∀ position, Option.Rel (Presents policy) (Readable.at? value position)
        (Readable.at? (wrap policy value) position)) ∧
      Readable.rebuild value = value.unstamped ∧
      Readable.rebuild (wrap policy value) = value.unstamped ∧
      (wrap policy value).rawValue = value := by
  refine ⟨?_, Readable.rebuild_eq_unstamped value, ?_, rawValue_wrap policy value⟩
  · intro position
    rw [Readable.at?_value, Readable.at?_wrap]
    cases value.at? position with
    | none => exact .none
    | some node => exact .some (presents_wrap policy node)
  · have hwrap : Readable.rebuild (wrap policy value) = Readable.rebuild value :=
      Readable.fold_wrap ..
    rw [hwrap, Readable.rebuild_eq_unstamped]

end View
end Caseless
