import Caseless.Proofs.View.Presents
import Caseless.Shape.Decode

/-!
# Copying values

A value is copied in two ways: what it writes is encoded as a value again, or what it offers to a
reader is read as a value.  The two go through different calls, and agree: either way a copy has the
normal form of the value, at every depth, and so has the copy of a view.  The data model between a
value and its copy has a single null and no decimals, timestamps, symbols, clobs or s-expressions;
each of these becomes what is nearest to it, and everything else is kept.

Main results:

- Definition `Value.normal`: the normal form of a value;
- Theorem `Value.normal_eq_unstamped_iff`: the values that are their own normal form;
- Definition `Data.Copies` and Theorem `Data.Copies.take_fold`: what a way of copying has to do with
  each kind of node for the copy to be the normal form;
- Theorem `Value.copies_normal`: both ways of copying a value, and a view of it, give its normal form.
-/

namespace Caseless

open Name Readable

/-! ## Normal forms -/

/-- The scalar that a copy has.  A decimal becomes text: the coefficient, the letter `d` and the
exponent, both numbers in decimal digits. -/
def Scalar.normal : Scalar → Scalar
  | .null _ => .null .null
  | .decimal d => .string (toString d.coefficient.toInt ++ "d" ++ toString d.exponent.toInt)
  | .timestamp text | .symbol text => .string text
  | .clob bytes => .blob bytes
  | payload => payload

@[simp]
theorem Scalar.normal_normal (payload : Scalar) : payload.normal.normal = payload.normal := by
  cases payload <;> rfl

namespace Value

variable {σ : Type}

mutual

/-- The value that a copy has: one kind of null, of text and of bytes, and lists for sequences. -/
def normal : Value σ → Value
  | .scalar payload => .scalar payload.normal
  | .seq _ elements => .seq .list (normalElements elements)
  | .struct _ fields => .struct () (normalFields fields)

/-- The elements that a copy has. -/
def normalElements : List (Value σ) → List Value
  | [] => []
  | value :: rest => value.normal :: normalElements rest

/-- The fields that a copy has: every name as it is spelled. -/
def normalFields : List (String × Value σ) → List (String × Value)
  | [] => []
  | (name, value) :: rest => (name, value.normal) :: normalFields rest

end

@[simp]
theorem normal_scalar (payload : Scalar) :
    (scalar payload : Value σ).normal = .scalar payload.normal :=
  rfl

@[simp]
theorem normal_seq (kind : SeqKind) (elements : List (Value σ)) :
    (seq kind elements).normal = .seq .list (elements.map normal) := by
  have h : normalElements elements = elements.map normal := by
    induction elements with
    | nil => rfl
    | cons value rest ih => rw [normalElements, ih, List.map_cons]
  rw [normal, h]

@[simp]
theorem normal_struct (stamp : σ) (fields : List (String × Value σ)) :
    (struct stamp fields).normal =
      .struct () (fields.map fun field => (field.1, field.2.normal)) := by
  have h : normalFields fields = fields.map fun field => (field.1, field.2.normal) := by
    induction fields with
    | nil => rfl
    | cons field rest ih =>
      obtain ⟨name, value⟩ := field
      rw [normalFields, ih, List.map_cons]
  rw [normal, h]

/-- A copy of a copy is the copy. -/
theorem normal_normal (value : Value σ) : value.normal.normal = value.normal := by
  induction value using Readable.induction with
  | step value ih =>
    cases value with
    | scalar payload => simp
    | seq kind elements =>
      have hmap : (elements.map normal).map normal = elements.map normal := by
        rw [List.map_map]
        exact List.map_congr_left ih
      rw [normal_seq, normal_seq, hmap]
    | struct stamp fields =>
      have hmap : (fields.map fun field => (field.1, field.2.normal)).map
          (fun field => (field.1, field.2.normal)) =
          fields.map fun field => (field.1, field.2.normal) := by
        rw [List.map_map]
        refine List.map_congr_left ?_
        intro field hfield
        exact congrArg (Prod.mk field.1) (ih field.2 (List.mem_map_of_mem hfield))
      rw [normal_struct, normal_struct, hmap]

/-- A copy has the names of the value, as they are spelled and in their order. -/
theorem names_normal (value : Value σ) :
    value.normal.fields?.map Fields.names = value.fields?.map Fields.names := by
  cases value with
  | scalar payload => rfl
  | seq kind elements => rfl
  | struct stamp fields => simp [fields?, Fields.names, Function.comp_def]

theorem child?_normal (value : Value σ) (index : Nat) :
    value.normal.child? index = (value.child? index).map normal := by
  cases value with
  | scalar payload => rfl
  | seq kind elements => simp [child?]
  | struct stamp fields => simp [child?, Function.comp_def]

/-- The nodes of a copy stand where the nodes that they are copies of stand. -/
theorem at?_normal (value : Value σ) (position : List Nat) :
    value.normal.at? position = (value.at? position).map normal := by
  induction position generalizing value with
  | nil => rfl
  | cons index rest ih =>
    rw [at?_cons, at?_cons, child?_normal]
    cases value.child? index with
    | none => rfl
    | some child => exact ih child

/-! ### Values that are their own normal form -/

/-- A node is of a kind that a copy keeps: no typed null but the plain one, and no decimal,
timestamp, symbol, clob or s-expression. -/
def SurvivesCopy (node : Value σ) : Prop :=
  (node.isNull = true → node.tag = .null) ∧
    node.tag ∉ [Tag.decimal, .timestamp, .symbol, .clob, .sexp]

/-- What holds of every node holds of the value and of every node of the children. -/
theorem forall_at?_iff {holds : Value σ → Prop} (value : Value σ) :
    (∀ position node, value.at? position = some node → holds node) ↔
      holds value ∧ ∀ child ∈ value.visit.children,
        ∀ position node, child.at? position = some node → holds node := by
  constructor
  · intro h
    refine ⟨h [] value rfl, ?_⟩
    intro child hchild position node hnode
    obtain ⟨index, hindex⟩ := List.mem_iff_getElem?.mp hchild
    rw [getElem?_children_visit] at hindex
    refine h (index :: position) node ?_
    rw [at?_cons, hindex, Option.bind_some, hnode]
  · rintro ⟨hvalue, hchildren⟩ position node hnode
    cases position with
    | nil =>
      obtain rfl : value = node := Option.some.inj hnode
      exact hvalue
    | cons index rest =>
      rw [at?_cons, Option.bind_eq_some_iff] at hnode
      obtain ⟨child, hchild, hnode⟩ := hnode
      rw [← getElem?_children_visit] at hchild
      exact hchildren child (List.mem_of_getElem? hchild) rest node hnode

theorem normal_scalar_eq_iff (payload : Scalar) :
    payload.normal = payload ↔ (scalar payload : Value σ).SurvivesCopy := by
  cases payload with
  | null kind => cases kind <;> simp [Scalar.normal, SurvivesCopy, isNull, Scalar.isNull, tag,
      Scalar.tag]
  | _ => simp [Scalar.normal, SurvivesCopy, isNull, Scalar.isNull, tag, Scalar.tag]

/-- A value is its own normal form, but for stamps, exactly when a copy keeps the kind of each of its
nodes. -/
theorem normal_eq_unstamped_iff (value : Value σ) :
    value.normal = value.unstamped ↔
      ∀ position node, value.at? position = some node → node.SurvivesCopy := by
  induction value using Readable.induction with
  | step value ih =>
    -- The value itself and its children are judged apart.
    rw [forall_at?_iff]
    have hchildren : (∀ child ∈ value.visit.children, child.normal = child.unstamped) ↔
        ∀ child ∈ value.visit.children,
          ∀ position node, child.at? position = some node → node.SurvivesCopy :=
      forall₂_congr ih
    rw [← hchildren]
    cases value with
    | scalar payload =>
      rw [normal_scalar, unstamped, ← normal_scalar_eq_iff]
      simp [visit, Node.children]
    | seq kind elements =>
      have hkind : (seq kind elements).SurvivesCopy ↔ kind = .list := by
        cases kind <;> simp [SurvivesCopy, isNull, tag, SeqKind.tag]
      rw [normal_seq, unstamped, unstampedElements_eq_map, seq.injEq, hkind, List.map_inj_left,
        eq_comm]
      rfl
    | struct stamp fields =>
      have hkind : (struct stamp fields).SurvivesCopy := by
        simp [SurvivesCopy, isNull, tag]
      have hfields : (∀ child ∈ (struct stamp fields).visit.children,
          child.normal = child.unstamped) ↔
          ∀ field ∈ fields, field.2.normal = field.2.unstamped := List.forall_mem_map
      rw [normal_struct, unstamped, unstampedFields_eq_map, struct.injEq, List.map_inj_left,
        hfields]
      simp [hkind]

end Value

/-! ## Ways of copying -/

/-- What a node gives when it is copied, from what its children give. -/
def Node.give (offer : Scalar → Data) : Node Data → Data
  | .scalar payload => offer payload
  | .seq _ elements => .seq (some elements.length) elements
  | .struct fields =>
    .map (some fields.length) (fields.map fun field => (.str field.1, field.2))

namespace Data

/-- What is needed of a way of copying: scalars are offered so that their normal forms are taken, and
a container is taken with what is taken of its children. -/
structure Copies (offer : Scalar → Data) (take : Data → Except Error Value) : Prop where
  scalar : ∀ payload, take (offer payload) = .ok (.scalar payload.normal)
  seq : ∀ {α : Type} {elements : List α} {give : α → Data} {copy : α → Value}
    (announced : Option Nat), (∀ element ∈ elements, take (give element) = .ok (copy element)) →
    take (.seq announced (elements.map give)) = .ok (.seq .list (elements.map copy))
  map : ∀ {α : Type} {fields : List (String × α)} {give : α → Data} {copy : α → Value}
    (announced : Option Nat), (∀ field ∈ fields, take (give field.2) = .ok (copy field.2)) →
    take (.map announced (fields.map fun field => (.str field.1, give field.2))) =
      .ok (.struct () (fields.map fun field => (field.1, copy field.2)))

/-- A way of copying copies the normal form. -/
theorem Copies.take_fold {σ : Type} {offer : Scalar → Data} {take : Data → Except Error Value}
    (h : Copies offer take) (value : Value σ) :
    take (fold (Node.give offer) value) = .ok value.normal := by
  induction value using Readable.induction with
  | step value ih =>
    rw [fold_eq]
    cases value with
    | scalar payload => exact h.scalar payload
    | seq kind elements =>
      rw [Value.normal_seq]
      exact h.seq _ ih
    | struct stamp fields =>
      have hfields : ∀ field ∈ fields,
          take (fold (Node.give offer) field.2) = .ok field.2.normal := by
        intro field hfield
        exact ih field.2 (List.mem_map_of_mem hfield)
      have hgiven : Node.give offer ((visit (Value.struct stamp fields)).map
          (fold (Node.give offer))) = .map (Option.some fields.length)
            (fields.map fun field => (.str field.1, fold (Node.give offer) field.2)) := by
        simp [Readable.visit, Value.visit, Node.map, Node.give]
      rw [Value.normal_struct, hgiven]
      exact h.map _ hfields

/-! ### Writing and encoding -/

theorem ofElements_eq_map (trees : List CallTree) : ofElements trees = trees.map ofCalls := by
  induction trees with
  | nil => rfl
  | cons tree rest ih => rw [ofElements, ih, List.map_cons]

theorem ofEntries_eq_map (entries : List (String × CallTree)) :
    ofEntries entries = entries.map fun entry => (.str entry.1, ofCalls entry.2) := by
  induction entries with
  | nil => rfl
  | cons entry rest ih =>
    obtain ⟨name, tree⟩ := entry
    rw [ofEntries, ih, List.map_cons]

/-- What a handle writes is given node by node. -/
theorem ofHandle_eq_fold {α : Type} [Readable α] (handle : α) :
    ofHandle handle = fold (Node.give fun payload => ofCall payload.call) handle := by
  have hstep : ∀ handle : α, ofHandle handle =
      Node.give (fun payload => ofCall payload.call) ((visit handle).map ofHandle) := by
    intro handle
    rw [ofHandle, calls_eq]
    cases visit handle with
    | scalar payload => rfl
    | seq kind elements =>
      simp [Node.map, Node.calls, ofCalls, ofElements_eq_map, Node.give, ofHandle]
    | struct fields =>
      simp [Node.map, Node.calls, ofCalls, ofEntries_eq_map, Node.give, ofHandle]
  exact eq_fold hstep handle

/-- The integers of values are in range. -/
theorem intOf?_toInt (n : Int64) : intOf? n.toInt = Option.some n := by
  have hgreatest : n.toInt < 2 ^ 63 := n.toInt_lt
  have hrange : -2 ^ 63 ≤ n.toInt ∧ n.toInt ≤ 2 ^ 63 - 1 := ⟨n.le_toInt, by omega⟩
  have hfits : IntType.i64.fits n.toInt = true := by
    simpa [IntType.fits, IntType.least, IntType.greatest, IntType.isSigned, IntType.bits]
      using hrange
  rw [intOf?, if_pos hfits, Int64.ofInt_toInt]

theorem encodeElements_map {α : Type} {elements : List α} {give : α → Data} {copy : α → Value}
    (h : ∀ element ∈ elements, (give element).encode = .ok (copy element)) :
    encodeElements (elements.map give) = .ok (elements.map copy) := by
  induction elements with
  | nil => rfl
  | cons element rest ih =>
    have hrest := ih fun other hmem => h other (List.mem_cons_of_mem element hmem)
    rw [List.map_cons, encodeElements_cons, h element List.mem_cons_self, hrest]
    rfl

theorem encodeEntries_map {α : Type} {fields : List (String × α)} {give : α → Data}
    {copy : α → Value} (h : ∀ field ∈ fields, (give field.2).encode = .ok (copy field.2)) :
    encodeEntries (fields.map fun field => (.str field.1, give field.2)) =
      .ok (fields.map fun field => (field.1, copy field.2)) := by
  induction fields with
  | nil => rfl
  | cons field rest ih =>
    have hrest := ih fun other hmem => h other (List.mem_cons_of_mem field hmem)
    rw [List.map_cons, encodeEntries_cons, h field List.mem_cons_self, hrest]
    rfl

theorem copies_encode : Copies (fun payload => ofCall payload.call) encode where
  scalar payload := by
    cases payload with
    | int n =>
      change encode (.int .i64 n.toInt) = _
      rw [encode_int, Value.ofInt, intOf?_toInt]
      rfl
    | _ => rfl
  seq announced h := by
    rw [encode_seq, encodeElements_map h]
    rfl
  map announced h := by
    rw [encode_map, encodeEntries_map h]
    rfl

/-! ### Offering and reading -/

theorem readElements_map {α : Type} {elements : List α} {give : α → Data} {copy : α → Value}
    (h : ∀ element ∈ elements, (give element).read = .ok (copy element)) :
    readElements (elements.map give) = .ok (elements.map copy) := by
  induction elements with
  | nil => rfl
  | cons element rest ih =>
    have hrest := ih fun other hmem => h other (List.mem_cons_of_mem element hmem)
    rw [List.map_cons, readElements, h element List.mem_cons_self, hrest]
    rfl

theorem readEntries_map {α : Type} {fields : List (String × α)} {give : α → Data}
    {copy : α → Value} (h : ∀ field ∈ fields, (give field.2).read = .ok (copy field.2)) :
    readEntries (fields.map fun field => (.str field.1, give field.2)) =
      .ok (fields.map fun field => (field.1, copy field.2)) := by
  induction fields with
  | nil => rfl
  | cons field rest ih =>
    have hrest := ih fun other hmem => h other (List.mem_cons_of_mem field hmem)
    rw [List.map_cons, readEntries, h field List.mem_cons_self, hrest]
    rfl

theorem copies_read : Copies Scalar.offer read where
  scalar payload := by
    cases payload with
    | int n =>
      change readInt .i64 n.toInt = _
      rw [readInt, if_neg (by decide), intOf?_toInt]
      rfl
    | _ => rfl
  seq announced h := by
    rw [read, readElements_map h]
    rfl
  map announced h := by
    rw [read, readEntries_map h]
    rfl

end Data

/-- What a handle offers is given node by node. -/
theorem Readable.offered_eq_fold {α : Type} [Readable α] (handle : α) :
    offered handle = fold (Node.give Scalar.offer) handle := by
  have hoffer : Node.offer = Node.give Scalar.offer := by
    funext node
    cases node <;> rfl
  rw [offered, hoffer]

variable {σ : Type} [DecidableEq σ]

/-- Written and encoded again, or offered and read, directly or through a view under any policy: a
copy of a value always succeeds and is its normal form.  The nodes of the normal form stand where
those of the value stand, under the same names.  The normal form is its own normal form, and it is
the value itself exactly when a copy keeps the kind of every node. -/
theorem Value.copies_normal (policy : Policy) (value : Value σ) :
    (Data.ofHandle value).encode = .ok value.normal ∧
      (Data.ofHandle (wrap policy value)).encode = .ok value.normal ∧
      copy value = .ok value.normal ∧
      copy (wrap policy value) = .ok value.normal ∧
      (∀ position, value.normal.at? position = (value.at? position).map normal) ∧
      value.normal.fields?.map Fields.names = value.fields?.map Fields.names ∧
      value.normal.normal = value.normal ∧
      (value.normal = value.unstamped ↔
        ∀ position node, value.at? position = some node → node.SurvivesCopy) := by
  have hencode : (Data.ofHandle value).encode = .ok value.normal := by
    rw [Data.ofHandle_eq_fold]
    exact Data.copies_encode.take_fold value
  have hcopy : copy value = .ok value.normal := by
    rw [copy, offered_eq_fold]
    exact Data.copies_read.take_fold value
  refine ⟨hencode, ?_, hcopy, ?_, value.at?_normal, value.names_normal, value.normal_normal,
    value.normal_eq_unstamped_iff⟩
  · rw [Data.ofHandle, calls_wrap]
    exact hencode
  · have hwrap : offered (wrap policy value) = offered value := fold_wrap ..
    rw [copy, hwrap]
    exact hcopy

end Caseless
