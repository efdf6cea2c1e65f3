import Caseless.Proofs.Data.Calls

/-!
# Writing values

A value reaches a serializer in several ways: as it is, through a view, through an exclusive view,
or, for a container, through its elements or fields and through the view of those.  Each way
announces a length of its own and hands over the children in its own way.  What arrives at the
serializer is nevertheless one tree of calls.

Main results:

- Definitions `Value.WrittenAs` and `CallTree.Exact`: the tree that a value is written with, and
  trees that announce lengths as they are;
- Theorem `Value.written_alike`: all ways of writing a value make the calls of one such tree.
-/

namespace Caseless

open Name Readable

/-! ## The tree that a value is written with -/

/-- A value is written with a tree: one call for a scalar, and for a container the number of its
children and the calls of each of them, in their order.  Names are as they are spelled, and a name
that is there more than once is written more than once. -/
inductive Value.WrittenAs {σ : Type} : Value σ → CallTree → Prop where
  | scalar (payload : Scalar) : WrittenAs (.scalar payload) (.leaf payload.call)
  | seq (kind : SeqKind) {elements : List (Value σ)} {trees : List CallTree}
    (helements : List.Forall₂ WrittenAs elements trees) :
    WrittenAs (.seq kind elements) (.seq elements.length trees)
  | struct (stamp : σ) {fields : Fields (Value σ)} {entries : List (String × CallTree)}
    (hnames : fields.names = entries.map (·.1))
    (hvalues : List.Forall₂ WrittenAs (fields.map (·.2)) (entries.map (·.2))) :
    WrittenAs (.struct stamp fields) (.map fields.length entries)

/-- Every container of a tree is announced with the number of the children that follow. -/
inductive CallTree.Exact : CallTree → Prop where
  | leaf (call : Call) : Exact (.leaf call)
  | seq {elements : List CallTree} (helements : ∀ element ∈ elements, Exact element) :
    Exact (.seq elements.length elements)
  | map {entries : List (String × CallTree)} (hentries : ∀ entry ∈ entries, Exact entry.2) :
    Exact (.map entries.length entries)

/-- The tree of any handle announces lengths as they are. -/
theorem Readable.exact_calls {α : Type} [Readable α] (handle : α) : (calls handle).Exact := by
  induction handle using Readable.induction with
  | step handle ih =>
    rw [calls_eq]
    cases hvisit : visit handle with
    | scalar payload => exact .leaf payload.call
    | seq kind elements =>
      rw [hvisit] at ih
      refine .seq ?_
      intro tree htree
      obtain ⟨child, hchild, rfl⟩ := List.mem_map.mp htree
      exact ih child hchild
    | struct fields =>
      rw [hvisit] at ih
      refine .map ?_
      intro entry hentry
      obtain ⟨field, hfield, rfl⟩ := List.mem_map.mp hentry
      exact ih field.2 (List.mem_map_of_mem hfield)

theorem Value.writtenAs_calls {σ : Type} (value : Value σ) : value.WrittenAs (calls value) := by
  induction value using Readable.induction with
  | step value ih =>
    rw [calls_eq]
    cases value with
    | scalar payload => exact .scalar payload
    | seq kind elements =>
      have helements : List.Forall₂ WrittenAs elements (elements.map calls) := by
        rw [List.forall₂_map_right_iff, List.forall₂_same]
        exact ih
      simpa [Readable.visit, Value.visit, Node.map, Node.calls] using WrittenAs.seq kind helements
    | struct stamp fields =>
      have hvalues : List.Forall₂ WrittenAs (fields.map (·.2))
          ((fields.map fun field => (field.1, calls field.2)).map (·.2)) := by
        rw [List.map_map, List.forall₂_map_left_iff, List.forall₂_map_right_iff, List.forall₂_same]
        intro field hfield
        exact ih field.2 (List.mem_map_of_mem hfield)
      have hnames : Fields.names fields =
          (fields.map fun field => (field.1, calls field.2)).map (·.1) := by
        simp [Fields.names]
      simpa [Readable.visit, Value.visit, Node.map, Node.calls] using WrittenAs.struct stamp hnames hvalues

/-! ## All ways of writing a value -/

variable {σ : Type} [DecidableEq σ]

section

variable {m : Type → Type} [Monad m]

theorem Readable.emit_wrap (serializer : Serializer m) (policy : Policy) (value : Value σ) :
    emit serializer (wrap policy value) = emit serializer value :=
  fold_wrap ..

theorem View.emitExclusive_eq (serializer : Serializer m) (view : View σ) :
    view.emitExclusive serializer = emit serializer view.rawValue := by
  rw [emitExclusive, ← view.rawValue_fork]
  exact fold_view ..

/-- On its own, a list of elements is written as the sequence that holds them. -/
theorem Value.emit_seq {σ : Type} (serializer : Serializer m) (kind : SeqKind)
    (elements : Elements (Value σ)) :
    emit serializer (Value.seq kind elements) = Elements.emit serializer elements := by
  rw [emit, fold_eq]
  change serializer.seq (elements.map (emit serializer)).length _ = _
  rw [List.length_map]
  rfl

/-- On their own, fields are written as the struct that has them. -/
theorem Value.emit_struct {σ : Type} (serializer : Serializer m) (stamp : σ)
    (fields : Fields (Value σ)) :
    emit serializer (Value.struct stamp fields) = Fields.emit serializer fields := by
  rw [emit, fold_eq]
  change serializer.map
    (fields.map fun field => (field.1, emit serializer field.2)).length _ = _
  rw [List.length_map]
  rfl

theorem ListView.emit_eq (serializer : Serializer m) (view : ListView σ) :
    view.emit serializer = Elements.emit serializer view.elements := by
  have hchildren : view.children.map (Readable.emit serializer) =
      view.elements.map (Readable.emit serializer) := by
    rw [children, List.map_map]
    refine List.map_congr_left ?_
    intro element hmem
    exact emit_wrap serializer view.policy element
  rw [ListView.emit, hchildren]
  rfl

theorem StructView.emit_eq (serializer : Serializer m) (view : StructView σ) :
    view.emit serializer = Fields.emit serializer view.record.fields := by
  have hentries : (view.entries.map fun entry => (entry.1, Readable.emit serializer entry.2)) =
      view.record.fields.map fun field => (field.1, Readable.emit serializer field.2) := by
    rw [entries, List.map_map]
    refine List.map_congr_left ?_
    intro field hmem
    exact congrArg (Prod.mk field.1) (emit_wrap serializer view.policy field.2)
  rw [StructView.emit, hentries]
  rfl

end

/-- Every way of writing a value makes the calls of one tree: the value as it is and its view, an
exclusive view, the elements or fields on their own, and any view of those. -/
structure Value.MadeAlike (policy : Policy) (value : Value σ) (tree : CallTree) : Prop where
  plain : tree.MadeBy fun serializer => emit serializer value
  wrapped : tree.MadeBy fun serializer => emit serializer (wrap policy value)
  exclusive : ∀ view : View σ, view.rawValue = value →
    tree.MadeBy fun serializer => view.emitExclusive serializer
  elements : ∀ elements, value.elements? = some elements →
    tree.MadeBy fun serializer => Elements.emit serializer elements
  listView : ∀ view : ListView σ, value.elements? = some view.elements →
    tree.MadeBy fun serializer => view.emit serializer
  fields : ∀ fields, value.fields? = some fields →
    tree.MadeBy fun serializer => Fields.emit serializer fields
  structView : ∀ view : StructView σ, value.fields? = some view.record.fields →
    tree.MadeBy fun serializer => view.emit serializer

theorem Value.madeAlike_calls (policy : Policy) (value : Value σ) :
    value.MadeAlike policy (calls value) := by
  have helements : ∀ elements, value.elements? = some elements →
      (calls value).MadeBy fun serializer => Elements.emit serializer elements := by
    intro elements hvalue m _ serializer
    cases value with
    | scalar payload => contradiction
    | struct stamp fields => contradiction
    | seq kind elements' =>
      obtain rfl : elements' = elements := Option.some.inj hvalue
      calc Elements.emit serializer elements'
        _ = emit serializer (seq kind elements') := (emit_seq serializer kind elements').symm
        _ = (calls (seq kind elements')).run serializer := emit_eq_run ..
  have hfields : ∀ fields, value.fields? = some fields →
      (calls value).MadeBy fun serializer => Fields.emit serializer fields := by
    intro fields hvalue m _ serializer
    cases value with
    | scalar payload => contradiction
    | seq kind elements => contradiction
    | struct stamp fields' =>
      obtain rfl : fields' = fields := Option.some.inj hvalue
      calc Fields.emit serializer fields'
        _ = emit serializer (struct stamp fields') := (emit_struct serializer stamp fields').symm
        _ = (calls (struct stamp fields')).run serializer := emit_eq_run ..
  refine ⟨?_, ?_, ?_, helements, ?_, hfields, ?_⟩
  · intro m _ serializer
    exact emit_eq_run serializer value
  · intro m _ serializer
    calc emit serializer (wrap policy value)
      _ = emit serializer value := emit_wrap ..
      _ = (calls value).run serializer := emit_eq_run ..
  · rintro view rfl m _ serializer
    calc view.emitExclusive serializer
      _ = emit serializer view.rawValue := View.emitExclusive_eq ..
      _ = (calls view.rawValue).run serializer := emit_eq_run ..
  · intro view hvalue m _ serializer
    calc view.emit serializer
      _ = Elements.emit serializer view.elements := ListView.emit_eq ..
      _ = (calls value).run serializer := helements _ hvalue serializer
  · intro view hvalue m _ serializer
    calc view.emit serializer
      _ = Fields.emit serializer view.record.fields := StructView.emit_eq ..
      _ = (calls value).run serializer := hfields _ hvalue serializer

/-- All ways of writing a value make the calls of one and the same tree, and of no other.  It has a
call for each part of the value, in the order in which they are stored and under the names as they
are spelled; every length that it announces is the number of children that follow; and it is left
off at the first call that fails. -/
theorem Value.written_alike (policy : Policy) (value : Value σ) :
    value.MadeAlike policy (calls value) ∧
      (∀ other : CallTree, other.MadeBy (fun serializer => emit serializer value) →
        other = calls value) ∧
      calls (wrap policy value) = calls value ∧
      value.WrittenAs (calls value) ∧
      (calls value).Exact ∧
      (calls value).StopsAtFailure := by
  have halike : value.MadeAlike policy (calls value) := value.madeAlike_calls policy
  refine ⟨halike, ?_, calls_wrap policy value, value.writtenAs_calls, exact_calls value,
    (calls value).stopsAtFailure⟩
  intro other hother
  exact CallTree.MadeBy.unique hother halike.plain

end Caseless
