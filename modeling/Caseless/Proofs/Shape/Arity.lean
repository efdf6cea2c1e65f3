import Caseless.Proofs.Shape.Binding
import Caseless.Proofs.Shape.Variants
import Mathlib.Logic.Relation

/-!
# Sequences of fixed length

A tuple, an array, a tuple struct and a variant that holds a tuple each name how many elements they
have.  The elements are decoded one after another until all are there, and then the sequence is left
as it is: whether it ends there is never asked.  So the arity is a lower bound.  A sequence that
ends early is refused, and of one that goes on the elements past the arity leave no trace in the
datum.

The same holds below the top.  Decoding a shape needs parts of it to be decoded from handles that
are reached from the given one, and those need further parts.  A failure anywhere among them is a
failure of the whole.

Main definitions:

- `Target`: a shape and the handle that it is decoded from;
- `Target.Needs`: which targets are decoded as parts of another;
- `Shape.EndsEarly`: the failure of a sequence that is too short;
- `Shape.FixedLength`: the rules for sequences of fixed length.

Main results:

- Theorem `Shape.decode_tuple_eq_ok_iff`: a sequence of fixed length is decoded from the elements
  that it has shapes for;
- Theorem `Target.Needs.decoded`: what is needed for a datum is decoded;
- Theorem `Shape.fixedLength`: values and views are decoded by the rules.
-/

namespace Caseless

open Readable

variable {α : Type} [Readable α]

/-! ## Targets -/

/-- What is decoded: a shape, and the handle that it is decoded from. -/
abbrev Target (α : Type) : Type :=
  Shape × α

namespace Target

/-- The datum of a target, or the first failure. -/
def outcome (target : Target α) : Except Error Data :=
  target.1.decode target.2

/-- A target has a datum. -/
def Decoded (target : Target α) : Prop :=
  ∃ datum, outcome target = .ok datum

/-- A target that does not fail is decoded. -/
theorem decoded_iff {target : Target α} :
    Decoded target ↔ ∀ failure, outcome target ≠ .error failure := by
  rw [Decoded]
  cases outcome target with
  | error failure => simp
  | ok datum => simp

/-- What a datum is made of is decoded. -/
theorem decoded_of_map {target : Target α} {f : Data → Data} {datum : Data}
    (h : (outcome target).map f = .ok datum) : Decoded target := by
  rcases exists_of_map_eq_ok h with ⟨inner, hinner, -⟩
  exact ⟨inner, hinner⟩

end Target

namespace Shape

open Target

/-! ## One element after another -/

/-- The elements that a sequence has a shape for are decoded in order, and only then is a missing
one noticed. -/
theorem decodeElements_eq_mapM (form : TupleForm) (size index : Nat) (shapes : List Shape)
    (children : List α) :
    decodeElements form size index shapes children = (do
      let data ← (shapes.zip children).mapM outcome
      if shapes.length ≤ children.length then .ok data
      else .error (.invalidLength (index + children.length) (form.expectingLength size))) := by
  induction shapes generalizing index children with
  | nil => rfl
  | cons shape shapes ih =>
    cases children with
    | nil => rfl
    | cons child children =>
      rw [decodeElements, ih, List.zip_cons_cons, List.mapM_cons, outcome]
      cases shape.decode child with
      | error failure => rfl
      | ok datum =>
        cases (shapes.zip children).mapM outcome with
        | error failure => rfl
        | ok data =>
          have hindex : index + 1 + children.length = index + (children.length + 1) := by omega
          by_cases hlength : shapes.length ≤ children.length
          · simp [bind, Except.bind, pure, Except.pure, hlength]
          · simp [bind, Except.bind, pure, Except.pure, hlength, hindex]

variable {form : TupleForm} {shapes : List Shape} {handle : α} {kind : SeqKind}
  {children : List α}

theorem decode_tuple_eq (hvisit : visit handle = .seq kind children) :
    (Shape.tuple form shapes).decode handle = (do
      let data ← (shapes.zip children).mapM outcome
      if shapes.length ≤ children.length then .ok (form.datum data)
      else .error (.invalidLength children.length (form.expectingLength shapes.length))) := by
  rw [decode, withElements, hvisit]
  dsimp only
  rw [decodeElements_eq_mapM, Nat.zero_add]
  cases (shapes.zip children).mapM outcome with
  | error failure => rfl
  | ok data =>
    rw [ok_bind, ok_bind]
    split <;> rfl

/-! ### Too short -/

/-- The failure of a sequence with fewer elements than there are shapes: that of the first element
that cannot be decoded, or, if each of them can, the length. -/
inductive EndsEarly (form : TupleForm) (shapes : List Shape) (children : List α) : Error → Prop
  where
  | element {before after : List (Target α)} {target : Target α} {failure : Error}
    (htargets : shapes.zip children = before ++ target :: after)
    (hbefore : ∀ other ∈ before, Decoded other) (htarget : outcome target = .error failure) :
    EndsEarly form shapes children failure
  | length (htargets : ∀ target ∈ shapes.zip children, Decoded target) :
    EndsEarly form shapes children
      (.invalidLength children.length (form.expectingLength shapes.length))

/-- A sequence that is too short is refused. -/
theorem decode_tuple_of_short (hvisit : visit handle = .seq kind children)
    (hshort : children.length < shapes.length) :
    ∃ failure, (Shape.tuple form shapes).decode handle = .error failure ∧
      EndsEarly form shapes children failure := by
  rw [decode_tuple_eq hvisit]
  cases hpass : (shapes.zip children).mapM outcome with
  | error failure =>
    rcases mapM_eq_error_iff.mp hpass with ⟨before, target, after, htargets, hbefore, htarget⟩
    refine ⟨failure, rfl, .element htargets (fun other hmem => ?_) htarget⟩
    exact decoded_iff.mpr (hbefore other hmem)
  | ok data =>
    rw [ok_bind, if_neg (Nat.not_le.mpr hshort)]
    exact ⟨_, rfl, .length (exists_of_mapM_eq_ok hpass)⟩

/-! ### Long enough -/

/-- A sequence that is long enough is decoded from its first elements alone. -/
theorem decode_tuple_append {first rest : List α}
    (hvisit : visit handle = .seq kind (first ++ rest)) (hlength : first.length = shapes.length) :
    (Shape.tuple form shapes).decode handle =
      ((shapes.zip first).mapM outcome).map form.datum := by
  have hzip : shapes.zip (first ++ rest) = shapes.zip first := by
    have happend : (shapes ++ []).zip (first ++ rest) = shapes.zip first ++ [].zip rest :=
      List.zip_append hlength.symm
    rwa [List.append_nil, List.zip_nil_left, List.append_nil] at happend
  have hlong : shapes.length ≤ (first ++ rest).length := by
    rw [List.length_append]
    omega
  rw [decode_tuple_eq hvisit, hzip]
  simp only [if_pos hlong]
  cases (shapes.zip first).mapM outcome <;> rfl

/-- A sequence of fixed length is decoded exactly if it has an element for every shape and each of
these can be decoded.  Of the elements that follow nothing is asked, and nothing is in the datum. -/
theorem decode_tuple_eq_ok_iff {datum : Data} :
    (Shape.tuple form shapes).decode handle = .ok datum ↔ ∃ kind first rest data,
      visit handle = .seq kind (first ++ rest) ∧ first.length = shapes.length ∧
        List.Forall₂ (fun target datum => outcome target = .ok datum) (shapes.zip first) data ∧
        datum = form.datum data := by
  constructor
  · intro h
    cases hvisit : visit handle with
    | scalar _ | struct _ =>
      rw [decode, withElements, hvisit] at h
      contradiction
    | seq kind children =>
      have hlong : shapes.length ≤ children.length := by
        by_contra hshort
        rcases decode_tuple_of_short hvisit (Nat.not_le.mp hshort) with ⟨failure, hfailure, -⟩
        rw [hfailure] at h
        contradiction
      have hlength : (children.take shapes.length).length = shapes.length := by
        rw [List.length_take, Nat.min_eq_left hlong]
      have hsplit := congrArg (Node.seq kind) (List.take_append_drop shapes.length children).symm
      rw [decode_tuple_append (hvisit.trans hsplit) hlength] at h
      rcases exists_of_map_eq_ok h with ⟨data, hdata, rfl⟩
      exact ⟨kind, _, _, data, hsplit, hlength, mapM_eq_ok_iff.mp hdata, rfl⟩
  · rintro ⟨kind, first, rest, data, hvisit, hlength, hdata, rfl⟩
    rw [decode_tuple_append hvisit hlength, mapM_eq_ok_iff.mpr hdata]
    rfl

/-- The only field of a struct is decoded as the content of the variant that it names. -/
theorem decode_enum_content {family name : String} {variants : List (String × Payload)}
    {payload : Payload} {content : Shape} {child : α}
    (hvisit : visit handle = .struct [(name, child)])
    (hvariant : Fields.get? name variants = some payload)
    (hcontent : payload.held? family name = some content) :
    (Shape.enum family variants).decode handle =
      (content.decode child).map (payload.datumOf name) := by
  rw [decode, hvisit]
  dsimp only
  rw [decodeVariant_eq_get?, hvariant]
  exact decodePayload_eq hcontent child

/-- The content of a variant that holds a tuple is decoded as any other sequence of fixed length. -/
theorem decode_enum_tuple {family name : String} {variants : List (String × Payload)} {child : α}
    (hvisit : visit handle = .struct [(name, child)])
    (hvariant : Fields.get? name variants = some (.tuple shapes)) :
    (Shape.enum family variants).decode handle =
      (Shape.tuple (.variant family name) shapes).decode child := by
  have hdatum : (Payload.tuple shapes).datumOf name = id := rfl
  rw [decode_enum_content hvisit hvariant rfl, hdatum, Except.map_id]
  rfl

end Shape

/-! ## Below the top -/

namespace Target

/-- One target is decoded as part of another.  Of a sequence of fixed length these are the elements
that there is a shape for, of a record what its declared fields are found as or take, and of all
other sequences and structs everything that is in them. -/
inductive Needs : Target α → Target α → Prop where
  | present {present : Shape} {handle : α} (hnull : isNull handle = false) :
    Needs (.option present, handle) (present, handle)
  | inner (inner : Shape) (handle : α) : Needs (.newtype inner, handle) (inner, handle)
  | element {element : Shape} {handle child : α} {kind : SeqKind} {children : List α}
    (hvisit : visit handle = .seq kind children) (hmem : child ∈ children) :
    Needs (.seq element, handle) (element, child)
  | component {form : TupleForm} {shapes : List Shape} {handle : α} {kind : SeqKind}
    {children : List α} {target : Target α} (hvisit : visit handle = .seq kind children)
    (hmem : target ∈ shapes.zip children) : Needs (.tuple form shapes, handle) target
  | entry {key : KeyShape} {entry : Shape} {name : String} {handle child : α}
    {entries : List (String × α)} (hvisit : visit handle = .struct entries)
    (hmem : (name, child) ∈ entries) : Needs (.map key entry, handle) (entry, child)
  | field {fields : List Field} {field : Field} {handle child : α} (hfield : field ∈ fields)
    (hfound : child ∈ field.foundIn handle) : Needs (.record fields, handle) (field.shape, child)
  | declared {record name : String} {fields : List Field} {field : Field} {handle child : α}
    {entries : List (String × α)} (hvisit : visit handle = .struct entries)
    (hmem : (name, child) ∈ entries)
    (hfield : (fields.find? fun field => name ∈ field.spellings) = some field) :
    Needs (.flat record fields, handle) (field.shape, child)
  | content {family name : String} {variants : List (String × Payload)} {payload : Payload}
    {content : Shape} {handle child : α} (hvisit : visit handle = .struct [(name, child)])
    (hvariant : Fields.get? name variants = some payload)
    (hcontent : payload.held? family name = some content) :
    Needs (.enum family variants, handle) (content, child)

end Target

/-! ### Entries in stored order -/

/-- Every entry of a map is decoded. -/
theorem decoded_of_decodeEntries {key : KeyShape} {entry : Shape}
    {sorted result : List (String × Data × Data)} {entries : List (String × α)}
    (h : decodeEntries key entry.decode sorted entries = .ok result) :
    ∀ field ∈ entries, Target.Decoded (entry, field.2) := by
  induction entries generalizing sorted with
  | nil => simp
  | cons field entries ih =>
    rw [decodeEntries] at h
    rcases exists_of_bind_eq_ok h with ⟨keyDatum, -, h⟩
    rcases exists_of_bind_eq_ok h with ⟨datum, hdatum, h⟩
    exact List.forall_mem_cons.mpr ⟨⟨datum, hdatum⟩, ih h⟩

omit [Readable α] in
/-- Of the entries that are read, those that a declared field takes are decoded. -/
theorem decoded_of_readFlat {declared : String → α → Option (String × Except Error Data)}
    {state final : FlatState α} {entries : List (String × α)}
    (h : readFlat declared state entries = .ok final) :
    ∀ entry ∈ entries, ∀ field result, declared entry.1 entry.2 = some (field, result) →
      ∃ datum, result = .ok datum := by
  induction entries generalizing state with
  | nil => simp
  | cons entry entries ih =>
    rcases entry with ⟨name, child⟩
    rw [readFlat] at h
    cases hdeclared : declared name child with
    | none =>
      rw [hdeclared] at h
      refine List.forall_mem_cons.mpr ⟨fun field result hresult => ?_, ih h⟩
      rw [hdeclared] at hresult
      contradiction
    | some taken =>
      rcases taken with ⟨field, result⟩
      rw [hdeclared] at h
      dsimp only at h
      split at h
      · contradiction
      · rcases exists_of_bind_eq_ok h with ⟨datum, rfl, h⟩
        refine List.forall_mem_cons.mpr ⟨fun field' result' hresult => ?_, ih h⟩
        rw [hdeclared] at hresult
        cases hresult
        exact ⟨datum, rfl⟩

theorem Shape.decodeDeclared_eq_find? (fields : List Field) (query : String) (child : α) :
    decodeDeclared fields query child =
      (fields.find? fun field => query ∈ field.spellings).map fun field =>
        (field.name, field.shape.decode child) := by
  induction fields with
  | nil => rfl
  | cons field fields ih =>
    rcases field with ⟨name, spellings, shape, fallback⟩
    rw [decodeDeclared, ih, List.find?_cons, Field.spellings]
    by_cases hspelled : query ∈ spellings
    · rw [if_pos hspelled, decide_eq_true hspelled]
      rfl
    · rw [if_neg hspelled, decide_eq_false hspelled]

/-! ### What a datum needs -/

namespace Target

variable {target part : Target α}

/-- A record that is decoded has decoded what its declared fields are found as. -/
theorem decoded_of_foundIn {fields : List Field} {handle child : α}
    (h : Decoded (Shape.record fields, handle)) {field : Field} (hfield : field ∈ fields)
    (hfound : child ∈ field.foundIn handle) : Decoded (field.shape, child) := by
  rcases h with ⟨datum, h⟩
  cases hvisit : visit handle with
  | scalar _ | seq _ _ =>
    rw [outcome, Shape.decode, withRecord, hvisit] at h
    contradiction
  | struct entries =>
    rw [outcome, Shape.decode_record_eq hvisit] at h
    rcases exists_of_bind_eq_ok h with ⟨data, hpass, -⟩
    rcases exists_of_mapM_eq_ok hpass field hfield with ⟨datum?, hfilled⟩
    rcases Field.found_of_filled hfilled with ⟨hnone, -⟩ | ⟨other, datum, hother, hdecode, -⟩
    · rw [hnone] at hfound
      contradiction
    · rw [hother] at hfound
      obtain rfl := List.mem_singleton.mp hfound
      exact ⟨datum, hdecode⟩

/-- A record that keeps what it does not declare has decoded what its fields take. -/
theorem decoded_of_declared {record name : String} {fields : List Field} {field : Field}
    {handle child : α} {entries : List (String × α)} (hvisit : visit handle = .struct entries)
    (hmem : (name, child) ∈ entries)
    (hfield : (fields.find? fun field => name ∈ field.spellings) = some field)
    (h : Decoded (Shape.flat record fields, handle)) : Decoded (field.shape, child) := by
  rcases h with ⟨datum, h⟩
  rw [outcome, Shape.decode, withEntries, hvisit] at h
  rcases exists_of_bind_eq_ok h with ⟨state, hstate, -⟩
  refine decoded_of_readFlat hstate _ hmem field.name (field.shape.decode child) ?_
  rw [Shape.decodeDeclared_eq_find?, hfield]
  rfl

/-- What is needed for a datum is decoded. -/
theorem Needs.decoded (h : Needs target part) (htarget : Decoded target) : Decoded part := by
  rcases htarget with ⟨datum, htarget⟩
  cases h with
  | @present present handle hnull =>
    rw [outcome, Shape.decode, if_neg (Bool.eq_false_iff.mp hnull)] at htarget
    exact decoded_of_map htarget
  | inner inner handle =>
    rw [outcome, Shape.decode] at htarget
    exact decoded_of_map htarget
  | element hvisit hmem =>
    rw [outcome, Shape.decode, withElements, hvisit] at htarget
    rcases exists_of_bind_eq_ok htarget with ⟨elements, helements, -⟩
    exact exists_of_mapM_eq_ok helements _ hmem
  | component hvisit hmem =>
    rw [outcome, Shape.decode_tuple_eq hvisit] at htarget
    rcases exists_of_bind_eq_ok htarget with ⟨data, hdata, -⟩
    exact exists_of_mapM_eq_ok hdata part hmem
  | entry hvisit hmem =>
    rw [outcome, Shape.decode, withEntries, hvisit] at htarget
    rcases exists_of_map_eq_ok htarget with ⟨sorted, hsorted, -⟩
    exact decoded_of_decodeEntries hsorted _ hmem
  | field hfield hfound => exact decoded_of_foundIn ⟨datum, htarget⟩ hfield hfound
  | declared hvisit hmem hfield => exact decoded_of_declared hvisit hmem hfield ⟨datum, htarget⟩
  | content hvisit hvariant hcontent =>
    rw [outcome, Shape.decode_enum_content hvisit hvariant hcontent] at htarget
    exact decoded_of_map htarget

/-- What is needed for a datum, directly or further down, is decoded. -/
theorem decoded_of_reflTransGen (h : Relation.ReflTransGen Needs target part)
    (htarget : Decoded target) : Decoded part := by
  induction h with
  | refl => exact htarget
  | tail _ hneeds ih => exact hneeds.decoded ih

end Target

/-! ## The rules -/

namespace Shape

open Target

/-- The rules by which sequences of fixed length are decoded from handles of one kind. -/
structure FixedLength (α : Type) [Readable α] : Prop where
  /-- There is a datum exactly if there is an element for every shape and each of these is decoded.
  The elements that follow may be anything, and the datum has nothing of them. -/
  decodes : ∀ (form : TupleForm) (shapes : List Shape) (handle : α) (datum : Data),
    (Shape.tuple form shapes).decode handle = .ok datum ↔ ∃ kind first rest data,
      visit handle = .seq kind (first ++ rest) ∧ first.length = shapes.length ∧
        List.Forall₂ (fun target datum => outcome target = .ok datum) (shapes.zip first) data ∧
        datum = form.datum data
  /-- A sequence that is too short is refused. -/
  refuses : ∀ (form : TupleForm) (shapes : List Shape) (handle : α) (kind : SeqKind)
    (children : List α), visit handle = .seq kind children → children.length < shapes.length →
      ∃ failure, (Shape.tuple form shapes).decode handle = .error failure ∧
        EndsEarly form shapes children failure
  /-- A sequence that is too long has the outcome of what is left when it is cut. -/
  ignores : ∀ (form : TupleForm) (shapes : List Shape) (handle cut : α) (kind kind' : SeqKind)
    (first rest : List α), visit handle = .seq kind (first ++ rest) →
      visit cut = .seq kind' first → first.length = shapes.length →
        (Shape.tuple form shapes).decode handle = (Shape.tuple form shapes).decode cut
  /-- The content of a variant that holds a tuple is one more sequence of fixed length. -/
  variant : ∀ (family name : String) (variants : List (String × Payload)) (shapes : List Shape)
    (handle child : α), visit handle = .struct [(name, child)] →
      Fields.get? name variants = some (.tuple shapes) →
        (Shape.enum family variants).decode handle =
          (Shape.tuple (.variant family name) shapes).decode child
  /-- A sequence of fixed length that a datum needs is itself decoded, at any depth, and so it is
  not too short. -/
  below : ∀ (target : Target α) (form : TupleForm) (shapes : List Shape) (handle : α),
    Decoded target → Relation.ReflTransGen Needs target (.tuple form shapes, handle) →
      Decoded (.tuple form shapes, handle) ∧
        ∃ kind children, visit handle = .seq kind children ∧ shapes.length ≤ children.length

/-- Whatever can be read is decoded by the rules. -/
theorem FixedLength.of_readable (α : Type) [Readable α] : FixedLength α where
  decodes _ _ _ _ := decode_tuple_eq_ok_iff
  refuses _ _ _ _ _ := decode_tuple_of_short
  ignores form shapes handle cut kind kind' first rest hvisit hcut hlength := by
    rw [← List.append_nil first] at hcut
    rw [decode_tuple_append hvisit hlength, decode_tuple_append hcut hlength]
  variant _ _ _ _ _ _ := decode_enum_tuple
  below target form shapes handle htarget hneeds := by
    rcases decoded_of_reflTransGen hneeds htarget with ⟨datum, hdatum⟩
    rcases decode_tuple_eq_ok_iff.mp hdatum with ⟨kind, first, rest, -, hvisit, hlength, -⟩
    refine ⟨⟨datum, hdatum⟩, kind, first ++ rest, hvisit, ?_⟩
    rw [List.length_append]
    omega

/-- Values and their views decode sequences of fixed length by the same rules. -/
theorem fixedLength (σ : Type) [DecidableEq σ] : FixedLength (Value σ) ∧ FixedLength (View σ) :=
  ⟨.of_readable (Value σ), .of_readable (View σ)⟩

/-- Four elements are decoded as an array of three, from a value and from a view of it, and three
elements as a variant that holds a pair. -/
theorem decode_array_of_four :
    let number (n : Int64) : Value := .scalar (.int n)
    let elements : List Value := [number 1, number 2, number 3, number 4]
    let datum : Data := .tuple [.int .i64 1, .int .i64 2, .int .i64 3]
    elements.length ≠ 3 ∧ (array 3 i64).decode (.seq .list elements : Value) = .ok datum ∧
      (array 3 i64).decode (wrap .firstWins (.seq .list elements)) = .ok datum ∧
      figure.decode (.struct () [("Pair", .seq .sexp [number 1, number 2, number 3])] : Value) =
        .ok (.tupleVariant "Pair" [.int .i32 1, .int .i32 2]) :=
  ⟨by decide, rfl, rfl, rfl⟩

end Shape
end Caseless
