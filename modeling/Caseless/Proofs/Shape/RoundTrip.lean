import Caseless.Proofs.Shape.Outcome
import Caseless.Proofs.Shape.Sorting
import Caseless.Shape.Catalogue

/-!
# Decoding undoes encoding

The value of a datum of a plain shape is decoded, as that shape, to the datum again.  It does not
matter whether the value is read as it is or through a view, as long as that way of reading tells
the fields of each record apart.  Maps come back with their entries in the order of their keys.

The proof is an induction on the datum.  Each of its forms has a lemma about the function that
decodes its parts, which says that the parts come back if each of them does, and a lemma that the
datum then comes back itself.  The induction joins them.

Main results:

- Definition `Presentation.Recovers`: a datum comes back from its value;
- Theorem `Presentation.Separates.filterMap_find?`: each field of a record is found once;
- Theorem `Presentation.recovers_of_holds`: every datum of a plain shape comes back;
- Theorem `Shape.decode_of_encode`: what the names of fields have to be for data to come back from
  values, and from views under each policy;
- Theorem `Shape.decode_alias_fallback`: an alias under which a view finds a field once more.
-/

namespace Caseless

open Name Readable

/-! ## Values of data -/

namespace Data

theorem exists_of_encodeElements_cons {datum : Data} {rest : List Data} {values : List Value}
    (h : encodeElements (datum :: rest) = .ok values) :
    ∃ value others, datum.encode = .ok value ∧ encodeElements rest = .ok others ∧
      values = value :: others := by
  rw [encodeElements_cons] at h
  rcases exists_of_bind_eq_ok h with ⟨value, hvalue, h⟩
  rcases exists_of_bind_eq_ok h with ⟨others, hothers, h⟩
  exact ⟨value, others, hvalue, hothers, (Except.ok.inj h).symm⟩

theorem exists_of_encodeEntries_cons {entry : String × Data} {rest : List (Data × Data)}
    {fields : List (String × Value)} (h : encodeEntries (textEntry entry :: rest) = .ok fields) :
    ∃ value others, entry.2.encode = .ok value ∧ encodeEntries rest = .ok others ∧
      fields = (entry.1, value) :: others := by
  rw [textEntry, encodeEntries_cons] at h
  rcases exists_of_bind_eq_ok h with ⟨key, hkey, h⟩
  cases hkey
  rcases exists_of_bind_eq_ok h with ⟨value, hvalue, h⟩
  rcases exists_of_bind_eq_ok h with ⟨others, hothers, h⟩
  exact ⟨value, others, hvalue, hothers, (Except.ok.inj h).symm⟩

theorem exists_of_encodeFields_cons {field : String × Data} {rest : List (String × Data)}
    {fields : List (String × Value)} (h : encodeFields (field :: rest) = .ok fields) :
    ∃ value others, field.2.encode = .ok value ∧ encodeFields rest = .ok others ∧
      fields = (field.1, value) :: others := by
  rw [encodeFields_cons] at h
  rcases exists_of_bind_eq_ok h with ⟨value, hvalue, h⟩
  rcases exists_of_bind_eq_ok h with ⟨others, hothers, h⟩
  exact ⟨value, others, hvalue, hothers, (Except.ok.inj h).symm⟩

/-- The fields of a struct keep their names. -/
theorem names_of_encodeFields {data : List (String × Data)} {fields : Fields Value}
    (h : encodeFields data = .ok fields) : fields.names = data.map (·.1) := by
  induction data generalizing fields with
  | nil =>
    cases h
    rfl
  | cons field rest ih =>
    rcases exists_of_encodeFields_cons h with ⟨value, others, -, hothers, rfl⟩
    rw [Fields.names_cons, ih hothers, List.map_cons]

/-- A sequence of fixed length is written as a list, alone or as what a variant holds. -/
theorem exists_of_encode_datum {form : TupleForm} {data : List Data} {value : Value}
    (hform : ∀ enum name, form ≠ .variant enum name) (h : (form.datum data).encode = .ok value) :
    ∃ values, encodeElements data = .ok values ∧ value = .seq .list values := by
  cases form with
  | tuple | array | struct =>
    rcases exists_of_map_eq_ok h with ⟨values, hvalues, rfl⟩
    exact ⟨values, hvalues, rfl⟩
  | variant enum name => exact absurd rfl (hform enum name)

/-- An integer has a value when the number is in range, and the value holds the number. -/
theorem exists_of_encode_int {type : IntType} {n : Int} {value : Value}
    (h : (Data.int type n).encode = .ok value) :
    ∃ payload : Int64, value = .scalar (.int payload) ∧ payload.toInt = n := by
  rw [encode_int] at h
  unfold Value.ofInt intOf? at h
  split at h
  · rename_i payload hpayload
    split at hpayload
    · rename_i hfits
      cases hpayload
      cases h
      have hrange : -2 ^ 63 ≤ n ∧ n ≤ 2 ^ 63 - 1 := by
        simpa [IntType.fits, IntType.least, IntType.greatest, IntType.isSigned, IntType.bits]
          using hfits
      exact ⟨.ofInt n, rfl, Int64.toInt_ofInt_of_le hrange.1 (by omega)⟩
    · contradiction
  · contradiction

end Data

/-- A datum of a shape that is never null has a value that is no null. -/
theorem Shape.Holds.isNull_encode {keys : List String → Prop} {shape : Shape} {datum : Data}
    (h : shape.Holds keys datum) (hnull : shape.neverNull = true) {value : Value}
    (hvalue : datum.encode = .ok value) : value.isNull = false := by
  induction h with
  | none | some | unit | unitStruct => contradiction
  | bool | f64 | char | string | unitVariant =>
    cases hvalue
    rfl
  | int =>
    rcases Data.exists_of_encode_int hvalue with ⟨payload, rfl, -⟩
    rfl
  | newtype _ ih => exact ih hnull hvalue
  | @tuple form =>
    cases form <;>
    · rcases exists_of_map_eq_ok hvalue with ⟨values, -, rfl⟩
      rfl
  | seq | map | record | newtypeVariant | tupleVariant | structVariant =>
    rcases exists_of_map_eq_ok hvalue with ⟨values, -, rfl⟩
    rfl

/-! ## The parts come back -/

/-- If exactly one member of a list without repetitions has an image, this image is all there is. -/
theorem filterMap_eq_singleton {β γ : Type} {f : β → Option γ} {xs : List β} {x : β} {y : γ}
    (hnodup : xs.Nodup) (hmem : x ∈ xs) (himage : f x = some y)
    (hnone : ∀ other ∈ xs, other ≠ x → f other = none) : xs.filterMap f = [y] := by
  rcases List.append_of_mem hmem with ⟨before, after, rfl⟩
  have hnotin := (List.nodup_middle.mp hnodup).notMem
  have hrest : (before ++ after).filterMap f = [] := by
    refine List.filterMap_eq_nil_iff.mpr fun other hother => ?_
    refine hnone other ?_ (ne_of_mem_of_not_mem hother hnotin)
    exact List.mem_append.mpr ((List.mem_append.mp hother).imp_right (.tail _))
  rw [List.filterMap_append, List.append_eq_nil_iff] at hrest
  rw [List.filterMap_append, hrest.1, List.filterMap_cons, himage, hrest.2, List.nil_append]

/-- Fields of a record and of a struct that stand beside each other have one name. -/
theorem name_of_mem_zip {fields : List Field} {values : Fields Value}
    (hnames : values.names = fields.map Field.name) {part : Field × String × Value}
    (hpart : part ∈ fields.zip values) : part.2.1 = part.1.name := by
  rcases List.getElem?_of_mem hpart with ⟨position, hposition⟩
  rcases List.getElem?_zip_eq_some.mp hposition with ⟨hfield, hvalue⟩
  have hname := congrArg (fun names : List String => names[position]?) hnames
  simpa [Fields.names, hfield, hvalue] using hname

section Parts

variable {α : Type} [Readable α] (p : Presentation α)

/-- A datum comes back, up to the order of map entries, when its value is presented and decoded. -/
def Presentation.Recovers (shape : Shape) (datum : Data) : Prop :=
  ∀ value, datum.encode = .ok value → shape.decode (p.present value) = .ok datum.inKeyOrder

namespace Presentation

variable {p}

/-- The elements of a sequence come back. -/
theorem mapM_decode {element : Shape} {data : List Data} {values : List Value}
    (h : ∀ datum ∈ data, p.Recovers element datum)
    (hvalues : Data.encodeElements data = .ok values) :
    (values.map p.present).mapM element.decode = .ok (data.map Data.inKeyOrder) := by
  induction data generalizing values with
  | nil =>
    cases hvalues
    rfl
  | cons datum rest ih =>
    rcases Data.exists_of_encodeElements_cons hvalues with ⟨value, others, hvalue, hothers, rfl⟩
    have hhead := h datum List.mem_cons_self value hvalue
    have hrest := ih (fun other hmem => h other (.tail _ hmem)) hothers
    rw [List.map_cons, List.mapM_cons, hhead, hrest]
    rfl

/-- The elements of a sequence of fixed length come back. -/
theorem decodeElements_eq {form : TupleForm} {size index : Nat} {shapes : List Shape}
    {data : List Data} {values : List Value} (hlength : data.length = shapes.length)
    (h : ∀ part ∈ shapes.zip data, p.Recovers part.1 part.2)
    (hvalues : Data.encodeElements data = .ok values) :
    Shape.decodeElements form size index shapes (values.map p.present) =
      .ok (data.map Data.inKeyOrder) := by
  induction shapes generalizing data values index with
  | nil =>
    rcases List.eq_nil_of_length_eq_zero hlength with rfl
    rfl
  | cons shape shapes ih =>
    cases data with
    | nil => contradiction
    | cons datum rest =>
      rcases Data.exists_of_encodeElements_cons hvalues with ⟨value, others, hvalue, hothers, rfl⟩
      have hhead := h (shape, datum) List.mem_cons_self value hvalue
      have hrest : Shape.decodeElements form size (index + 1) shapes (others.map p.present) =
          .ok (rest.map Data.inKeyOrder) :=
        ih (Nat.succ.inj hlength) (fun part hmem => h part (.tail _ hmem)) hothers
      rw [List.map_cons, Shape.decodeElements, hhead, ok_bind, hrest]
      rfl

/-- The entries of a map come back, each inserted among those before it. -/
theorem decodeEntries_eq {element : Shape} {entries : List (String × Data)}
    {fields : List (String × Value)} (h : ∀ entry ∈ entries, p.Recovers element entry.2)
    (hfields : Data.encodeEntries (entries.map Data.textEntry) = .ok fields)
    (sorted : List (String × Data × Data)) :
    decodeEntries .string element.decode sorted
        (fields.map fun field => (field.1, p.present field.2)) =
      .ok ((entries.map fun entry => keyed (entry.1, entry.2.inKeyOrder)).foldl
        (fun sorted entry => insertSorted entry.1 entry.2 sorted) sorted) := by
  induction entries generalizing fields sorted with
  | nil =>
    cases hfields
    rfl
  | cons entry rest ih =>
    rcases Data.exists_of_encodeEntries_cons hfields with ⟨value, others, hvalue, hothers, rfl⟩
    have hhead := h entry List.mem_cons_self value hvalue
    have hrest := ih (fun other hmem => h other (.tail _ hmem)) hothers
    rw [List.map_cons, decodeEntries, KeyShape.read, ok_bind, hhead, ok_bind]
    exact hrest _

/-- The map of all entries, inserted in turn, has them in the order of their keys. -/
theorem mapOfSorted_eq {entries : List (String × Data)} (h : (entries.map (·.1)).Nodup) :
    mapOfSorted ((entries.map fun entry => keyed (entry.1, entry.2.inKeyOrder)).foldl
        (fun sorted entry => insertSorted entry.1 entry.2 sorted) []) =
      (Data.map (some entries.length) (entries.map Data.textEntry)).inKeyOrder := by
  have hnames : ((entries.map fun entry => (entry.1, entry.2.inKeyOrder)).map (·.1)).Nodup := by
    rw [List.map_map]
    exact h
  have hsorted := foldl_insertSorted_eq_mergeSort hnames
  rw [List.map_map, List.map_map] at hsorted
  have hlength := congrArg List.length hsorted
  rw [List.length_map, List.length_mergeSort, List.length_map] at hlength
  rw [mapOfSorted, Data.inKeyOrder, Data.inKeyOrderEntries_eq_map, List.map_map]
  exact congr (congrArg (fun length => Data.map (some length)) hlength) hsorted

/-- The fields of a record are found, each under one of its spellings, and come back. -/
theorem decodeFound_eq {handle : α} {fields : List Field} {data : List (String × Data)}
    {values : Fields Value} (hlength : data.length = fields.length)
    (h : ∀ part ∈ fields.zip data, p.Recovers part.1.shape part.2.2)
    (hvalues : Data.encodeFields data = .ok values)
    (hfound : ∀ part ∈ fields.zip values,
      part.1.spellings.filterMap (find? handle) = [p.present part.2.2]) :
    Shape.decodeFound fields handle = .ok (data.map fun field => some field.2.inKeyOrder) := by
  induction fields generalizing data values with
  | nil =>
    rcases List.eq_nil_of_length_eq_zero hlength with rfl
    rfl
  | cons field fields ih =>
    cases data with
    | nil => contradiction
    | cons datum rest =>
      rcases Data.exists_of_encodeFields_cons hvalues with ⟨value, others, hvalue, hothers, rfl⟩
      have hhead := h (field, datum) List.mem_cons_self value hvalue
      have hmatches := hfound (field, datum.1, value) List.mem_cons_self
      have hrest := ih (Nat.succ.inj hlength) (fun part hmem => h part (.tail _ hmem)) hothers
        (fun part hmem => hfound part (.tail _ hmem))
      rcases field with ⟨name, spellings, shape, fallback⟩
      rw [Field.spellings] at hmatches
      rw [Field.shape] at hhead
      rw [Shape.decodeFound, hmatches]
      dsimp only
      rw [hhead, ok_bind, List.isEmpty_nil, if_pos rfl, hrest]
      rfl

/-- A record of which every field was found is complete. -/
theorem completeFields_eq {fields : List Field} {data : List (String × Data)}
    (hnames : data.map (·.1) = fields.map Field.name) :
    completeFields fields (data.map fun field => some field.2.inKeyOrder) =
      .ok (Data.inKeyOrderFields data) := by
  induction fields generalizing data with
  | nil =>
    rcases List.map_eq_nil_iff.mp hnames with rfl
    rfl
  | cons field fields ih =>
    cases data with
    | nil => contradiction
    | cons datum rest =>
      rcases List.cons.inj hnames with ⟨hname, hnames⟩
      rw [List.map_cons, completeFields, Option.some_or]
      dsimp only
      rw [ih hnames, ok_bind, ← hname]
      rfl

/-- Of the spellings of a field exactly its name finds something: what the struct has under it. -/
theorem Separates.filterMap_find? {fields : List Field} {values : Fields Value}
    (h : p.Separates fields) (hstored : values.names = fields.map Field.name)
    {part : Field × String × Value} (hpart : part ∈ fields.zip values) :
    part.1.spellings.filterMap (find? (p.present (.struct () values))) = [p.present part.2.2] := by
  rcases part with ⟨field, name, value⟩
  rcases List.of_mem_zip hpart with ⟨hfield, hvalue⟩
  have hname : name = field.name := name_of_mem_zip hstored hpart
  rcases h.own field hfield with ⟨hnodup, hown⟩
  have hfound : find? (p.present (.struct () values)) field.name = some (p.present value) := by
    rw [← hname]
    exact p.find?_present values (name, value) (hstored ▸ h.names) hvalue
  refine filterMap_eq_singleton hnodup hown hfound fun spelling hspelling hne => ?_
  refine p.find?_eq_none values spelling fun other hother => ?_
  rw [hstored] at hother
  rcases List.mem_map.mp hother with ⟨declared, hdeclared, rfl⟩
  exact h.aliases field hfield spelling hspelling hne declared hdeclared

/-- The fields of a record come back from the struct that they are written as. -/
theorem withRecord_eq {fields : List Field} {data : List (String × Data)} {values : Fields Value}
    (hseparates : p.Separates fields) (hnames : data.map (·.1) = fields.map Field.name)
    (h : ∀ part ∈ fields.zip data, p.Recovers part.1.shape part.2.2)
    (hvalues : Data.encodeFields data = .ok values) :
    withRecord (p.present (.struct () values)) fields
        (Shape.decodeFound fields (p.present (.struct () values))) =
      .ok (Data.inKeyOrderFields data) := by
  have hstored : values.names = fields.map Field.name :=
    (Data.names_of_encodeFields hvalues).trans hnames
  have hlength := congrArg List.length hnames
  rw [List.length_map, List.length_map] at hlength
  have hfound := decodeFound_eq hlength h hvalues fun part hpart =>
    hseparates.filterMap_find? hstored hpart
  rw [withRecord, p.visit_present, hfound]
  exact completeFields_eq hnames

/-- What a variant of a given name holds is decoded under the payload declared for it. -/
theorem decodeVariant_eq {family name : String} {variants : List (String × Payload)}
    {payload : Payload} (hnames : (variants.map (·.1)).Nodup) (hmem : (name, payload) ∈ variants)
    (child : α) : Shape.decodeVariant family variants name child =
      Shape.decodePayload family name payload child := by
  induction variants with
  | nil => contradiction
  | cons variant rest ih =>
    rcases List.nodup_cons.mp hnames with ⟨hhead, hrest⟩
    rcases variant with ⟨other, payload'⟩
    rw [Shape.decodeVariant]
    rcases List.mem_cons.mp hmem with heq | hmem
    · cases heq
      rw [if_pos rfl]
    · rw [if_neg, ih hrest hmem]
      intro heq
      exact hhead (List.mem_map.mpr ⟨_, hmem, heq.symm⟩)

/-- A struct of one field named after a variant is decoded as that variant. -/
theorem decode_single {family name : String} {variants : List (String × Payload)}
    {payload : Payload} (hnames : (variants.map (·.1)).Nodup) (hmem : (name, payload) ∈ variants)
    (value : Value) : (Shape.enum family variants).decode (p.present (.single name value)) =
      Shape.decodePayload family name payload (p.present value) := by
  rw [Shape.decode, p.visit_present]
  exact decodeVariant_eq hnames hmem (p.present value)

/-- A scalar that a leaf takes is decoded as the datum that the leaf makes of it. -/
theorem decode_leaf {form : Leaf} {payload : Scalar} {datum : Data}
    (h : form.decodeScalar? payload = some (.ok datum)) :
    (Shape.leaf form).decode (p.present (.scalar payload)) = .ok datum := by
  rw [Shape.decode, p.visit_present, Value.visit, Node.map, Leaf.decode, h]
  rfl

/-- A list is decoded as a sequence of fixed length by its elements. -/
theorem withElements_decodeElements {form : TupleForm} {expected : String} {shapes : List Shape}
    {data : List Data} {values : List Value} (hlength : data.length = shapes.length)
    (h : ∀ part ∈ shapes.zip data, p.Recovers part.1 part.2)
    (hvalues : Data.encodeElements data = .ok values) :
    (withElements (p.present (.seq .list values)) expected fun children =>
        (Shape.decodeElements form shapes.length 0 shapes children).map form.datum) =
      .ok (form.datum (data.map Data.inKeyOrder)) := by
  rw [withElements, p.visit_present]
  dsimp only [Value.visit, Node.map]
  rw [decodeElements_eq hlength h hvalues]
  rfl

/-! ## Data come back -/

/-- A datum that is written as a scalar comes back if a leaf makes it of the scalar. -/
theorem recovers_leaf {form : Leaf} {payload : Scalar} {datum : Data}
    (hencode : datum.encode = .ok (.scalar payload))
    (h : form.decodeScalar? payload = some (.ok datum.inKeyOrder)) :
    p.Recovers (.leaf form) datum := by
  intro value hvalue
  cases hencode.symm.trans hvalue
  exact decode_leaf h

theorem recovers_int {type : IntType} {n : Int} (hfits : type.fits n = true) :
    p.Recovers (.leaf (.int type)) (.int type n) := by
  intro value hvalue
  rcases Data.exists_of_encode_int hvalue with ⟨payload, rfl, rfl⟩
  refine decode_leaf ?_
  rw [Leaf.decodeScalar?, if_pos hfits]
  rfl

theorem recovers_char (c : Char) : p.Recovers (.leaf .char) (.char c) := by
  refine recovers_leaf rfl ?_
  simp [Leaf.decodeScalar?, Scalar.offeredText?, Scalar.lentText?, charOfText, onlyChar?,
    Data.inKeyOrder]

theorem recovers_none (present : Shape) : p.Recovers (.option present) .none := by
  intro value hvalue
  cases hvalue
  rw [Shape.decode, p.isNull_present]
  rfl

theorem recovers_some {present : Shape} {datum : Data}
    (hnull : ∀ value, datum.encode = .ok value → value.isNull = false)
    (h : p.Recovers present datum) : p.Recovers (.option present) (.some datum) := by
  intro value hvalue
  rw [Shape.decode, p.isNull_present, hnull value hvalue, h value hvalue]
  rfl

theorem recovers_seq {element : Shape} {data : List Data}
    (h : ∀ datum ∈ data, p.Recovers element datum) :
    p.Recovers (.seq element) (.seq (some data.length) data) := by
  intro value hvalue
  rcases exists_of_map_eq_ok hvalue with ⟨values, hvalues, rfl⟩
  rw [Shape.decode, withElements, p.visit_present]
  dsimp only [Value.visit, Node.map]
  rw [mapM_decode h hvalues, ok_bind, List.length_map, Data.inKeyOrder,
    Data.inKeyOrderElements_eq_map]
  rfl

theorem recovers_tuple {form : TupleForm} {shapes : List Shape} {data : List Data}
    (hform : ∀ enum name, form ≠ .variant enum name) (hlength : data.length = shapes.length)
    (h : ∀ part ∈ shapes.zip data, p.Recovers part.1 part.2) :
    p.Recovers (.tuple form shapes) (form.datum data) := by
  intro value hvalue
  rcases Data.exists_of_encode_datum hform hvalue with ⟨values, hvalues, rfl⟩
  rw [Shape.decode, Data.inKeyOrder_datum]
  exact withElements_decodeElements hlength h hvalues

theorem recovers_map {element : Shape} {entries : List (String × Data)}
    (hkeys : (entries.map (·.1)).Nodup) (h : ∀ entry ∈ entries, p.Recovers element entry.2) :
    p.Recovers (.map .string element)
      (.map (some entries.length) (entries.map Data.textEntry)) := by
  intro value hvalue
  rcases exists_of_map_eq_ok hvalue with ⟨fields, hfields, rfl⟩
  rw [Shape.decode, withEntries, p.visit_present]
  dsimp only [Value.visit, Node.map]
  rw [decodeEntries_eq h hfields [], Except.map, mapOfSorted_eq hkeys]

theorem recovers_newtype {inner : Shape} {datum : Data} (h : p.Recovers inner datum) :
    p.Recovers (.newtype inner) (.newtypeStruct datum) := by
  intro value hvalue
  rw [Shape.decode, h value hvalue]
  rfl

theorem recovers_record {fields : List Field} {data : List (String × Data)}
    (hseparates : p.Separates fields) (hnames : data.map (·.1) = fields.map Field.name)
    (h : ∀ part ∈ fields.zip data, p.Recovers part.1.shape part.2.2) :
    p.Recovers (.record fields) (.struct data) := by
  intro value hvalue
  rcases exists_of_map_eq_ok hvalue with ⟨values, hvalues, rfl⟩
  rw [Shape.decode, withRecord_eq hseparates hnames h hvalues, Data.inKeyOrder_struct]
  rfl

section Enums

variable {family name : String} {variants : List (String × Payload)}
  (hvariants : (variants.map (·.1)).Nodup)

include hvariants

theorem recovers_unitVariant (hvariant : (name, .unit) ∈ variants) :
    p.Recovers (.enum family variants) (.unitVariant name) := by
  intro value hvalue
  cases hvalue
  have hpayload := Fields.get?_of_mem hvariants hvariant
  rw [Shape.decode, p.visit_present]
  dsimp only [Value.visit, Node.map, Scalar.text?]
  rw [decodeTextVariant, hpayload]
  rfl

theorem recovers_newtypeVariant {inner : Shape} {datum : Data}
    (hvariant : (name, .newtype inner) ∈ variants) (h : p.Recovers inner datum) :
    p.Recovers (.enum family variants) (.newtypeVariant name datum) := by
  intro value hvalue
  rcases exists_of_map_eq_ok hvalue with ⟨inner, hinner, rfl⟩
  rw [decode_single hvariants hvariant, Shape.decodePayload, h inner hinner]
  rfl

theorem recovers_tupleVariant {shapes : List Shape} {data : List Data}
    (hvariant : (name, .tuple shapes) ∈ variants) (hlength : data.length = shapes.length)
    (h : ∀ part ∈ shapes.zip data, p.Recovers part.1 part.2) :
    p.Recovers (.enum family variants) (.tupleVariant name data) := by
  intro value hvalue
  rcases exists_of_map_eq_ok hvalue with ⟨values, hvalues, rfl⟩
  have hsorted := Data.inKeyOrder_datum (.variant family name) data
  rw [decode_single hvariants hvariant, Shape.decodePayload]
  exact (withElements_decodeElements hlength h hvalues).trans (congrArg _ hsorted.symm)

theorem recovers_structVariant {fields : List Field} {data : List (String × Data)}
    (hvariant : (name, .record fields) ∈ variants) (hseparates : p.Separates fields)
    (hnames : data.map (·.1) = fields.map Field.name)
    (h : ∀ part ∈ fields.zip data, p.Recovers part.1.shape part.2.2) :
    p.Recovers (.enum family variants) (.structVariant name data) := by
  intro value hvalue
  rcases exists_of_map_eq_ok hvalue with ⟨values, hvalues, rfl⟩
  rw [decode_single hvariants hvariant, Shape.decodePayload,
    withRecord_eq hseparates hnames h hvalues, Data.inKeyOrder_structVariant]
  rfl

end Enums

/-- The value of a datum of a plain shape is decoded to the datum, when it is presented in a way
that tells the fields of every record apart. -/
theorem recovers_of_holds {shape : Shape} {datum : Data} (h : shape.Holds List.Nodup datum)
    (hplain : shape.Plain p.Separates) : p.Recovers shape datum := by
  induction h with
  | bool | f64 | string | unit | unitStruct => exact recovers_leaf rfl rfl
  | char c => exact recovers_char c
  | int hfits => exact recovers_int hfits
  | none present => exact recovers_none present
  | some hdatum ih =>
    cases hplain with
    | option hpresent hnull =>
      exact recovers_some (fun _ hvalue => hdatum.isNull_encode hnull hvalue) (ih hpresent)
  | seq _ ih =>
    cases hplain with
    | seq helement => exact recovers_seq fun datum hmem => ih datum hmem helement
  | tuple hlength _ ih =>
    cases hplain with
    | tuple hform helements =>
      exact recovers_tuple hform hlength fun part hpart =>
        ih part hpart (helements _ (List.of_mem_zip hpart).1)
  | map hkeys _ ih =>
    cases hplain with
    | map helement => exact recovers_map hkeys fun entry hmem => ih entry hmem helement
  | newtype _ ih =>
    cases hplain with
    | newtype hinner => exact recovers_newtype (ih hinner)
  | record hnames _ ih =>
    cases hplain with
    | record hseparates hfields =>
      exact recovers_record hseparates hnames fun part hpart =>
        ih part hpart (hfields _ (List.of_mem_zip hpart).1)
  | unitVariant hvariant =>
    cases hplain with
    | enum hvariants _ => exact recovers_unitVariant hvariants hvariant
  | newtypeVariant hvariant _ ih =>
    cases hplain with
    | enum hvariants hcontent =>
      exact recovers_newtypeVariant hvariants hvariant (ih (hcontent _ hvariant))
  | tupleVariant hvariant hlength _ ih =>
    cases hplain with
    | enum hvariants hcontent =>
      cases hcontent _ hvariant with
      | tuple _ helements =>
        exact recovers_tupleVariant hvariants hvariant hlength fun part hpart =>
          ih part hpart (helements _ (List.of_mem_zip hpart).1)
  | structVariant hvariant hnames _ ih =>
    cases hplain with
    | enum hvariants hcontent =>
      cases hcontent _ hvariant with
      | record hseparates hfields =>
        exact recovers_structVariant hvariants hvariant hseparates hnames fun part hpart =>
          ih part hpart (hfields _ (List.of_mem_zip hpart).1)

end Presentation

end Parts

/-- The value of a datum of a plain shape is decoded to the datum again, if the names that the
fields of each record are accepted under are different.  Through a view that prefers the exact
spelling it is if besides no alias in a record is the name of a field but for case, and through a
view under which the first match wins if moreover the names of the fields differ even when case is
ignored.  The entries of maps come in the order of their keys, as they were if they were written in
that order. -/
theorem Shape.decode_of_encode {shape : Shape} {datum : Data} {value : Value}
    (hplain : shape.Plain Field.Distinct) (hdatum : shape.Holds List.Nodup datum)
    (hvalue : datum.encode = .ok value) :
    shape.decode value = .ok datum.inKeyOrder ∧
      (shape.Plain Field.AliasesApart →
        shape.decode (wrap .preferExact value) = .ok datum.inKeyOrder ∧
        (shape.Plain Field.FoldApart →
          shape.decode (wrap .firstWins value) = .ok datum.inKeyOrder)) ∧
      (shape.Holds Ascending datum → datum.inKeyOrder = datum) := by
  refine ⟨?_, fun hapart => ⟨?_, fun hfold => ?_⟩, Holds.inKeyOrder_eq_self⟩
  · have hseparates := hplain.imp fun _ => Field.Distinct.separates_bare
    exact Presentation.bare.recovers_of_holds hdatum hseparates value hvalue
  · have hseparates := hapart.imp₂ (fun _ => Field.AliasesApart.separates_preferExact) hplain
    exact (Presentation.wrapped .preferExact).recovers_of_holds hdatum hseparates value hvalue
  · have hseparates := (hapart.imp₂ (fun _ h h' => And.intro h h') hplain).imp₂
      (fun _ h hfold => h.1.separates_firstWins h.2 hfold) hfold
    exact (Presentation.wrapped .firstWins).recovers_of_holds hdatum hseparates value hvalue

/-- A record of one field with another name, which holds a map of optional modes. -/
def Shape.settings : Shape :=
  .record [.mk "modes" ["modes", "settings"] (.map .string (.option mode)) none]

/-- The settings are plain if the fields of the record and those of the modes meet the condition. -/
theorem Shape.plain_settings {meets : List Field → Prop}
    (h : meets [.mk "modes" ["modes", "settings"] (.map .string (.option mode)) none])
    (hspan : meets [.required "from" i32, .required "to" i32]) : settings.Plain meets := by
  have hmode : mode.Plain meets := by
    refine .enum (by decide) fun variant hmem => ?_
    simp only [List.mem_cons, List.not_mem_nil, or_false] at hmem
    rcases hmem with rfl | rfl | rfl
    · exact .unit
    · exact .int .i32
    · refine .record hspan fun field hmem => ?_
      simp only [List.mem_cons, List.not_mem_nil, or_false] at hmem
      rcases hmem with rfl | rfl <;> exact .int .i32
  refine .record h fun field hmem => ?_
  rcases List.mem_singleton.mp hmem with rfl
  exact .map (.option hmode rfl)

/-- Settings whose map is written with its keys in descending order. -/
theorem Shape.decode_of_encode_settings :
    let span : Data := .structVariant "Span" [("from", .int .i32 1), ("to", .int .i32 2)]
    let datum : Data :=
      .struct [("modes", .map (some 2) [(.str "b", .none), (.str "a", .some span)])]
    let value : Value := .struct () [("modes", .struct () [("b", .null),
      ("a", .single "Span" (.struct () [("from", .scalar (.int 1)), ("to", .scalar (.int 2))]))])]
    settings.Plain Field.Distinct ∧ settings.Plain Field.AliasesApart ∧
      settings.Plain Field.FoldApart ∧ settings.Holds List.Nodup datum ∧
      datum.encode = .ok value ∧ settings.decode value = .ok datum.inKeyOrder ∧
      settings.decode (wrap .preferExact value) = .ok datum.inKeyOrder ∧
      settings.decode (wrap .firstWins value) = .ok datum.inKeyOrder := by
  intro span datum value
  have hplain : settings.Plain Field.Distinct := plain_settings (by decide) (by decide)
  have hapart : settings.Plain Field.AliasesApart := plain_settings (by decide) (by decide)
  have hfold : settings.Plain Field.FoldApart := plain_settings (by decide) (by decide)
  have hspan : mode.Holds List.Nodup span := by
    refine .structVariant (.tail _ (.tail _ List.mem_cons_self)) rfl fun part hpart => ?_
    simp only [List.zip_cons_cons, List.zip_nil_right, List.mem_cons, List.not_mem_nil,
      or_false] at hpart
    rcases hpart with rfl | rfl <;> exact .int (by decide)
  have hdatum : settings.Holds List.Nodup datum := by
    have hkeys : (Fields.names [("b", Data.none), ("a", .some span)]).Nodup := by decide
    refine .record rfl fun part hpart => ?_
    rcases List.mem_singleton.mp hpart with rfl
    refine .map hkeys fun entry hentry => ?_
    simp only [List.mem_cons, List.not_mem_nil, or_false] at hentry
    rcases hentry with rfl | rfl
    · exact .none mode
    · exact .some hspan
  have hvalue : datum.encode = .ok value := rfl
  rcases decode_of_encode hplain hdatum hvalue with ⟨hbare, hviewed, -⟩
  rcases hviewed hapart with ⟨hexact, hfirst⟩
  exact ⟨hplain, hapart, hfold, hdatum, hvalue, hbare, hexact, hfirst hfold⟩

/-- A record with an alias that is the name of its field but for case, and whose accepted names are
different, does not come back through views: they find the field by the alias too. -/
theorem Shape.decode_alias_fallback :
    let datum : Data := .struct [("id", .int .i64 5)]
    let value : Value := .struct () [("id", .scalar (.int 5))]
    aliased.Plain Field.Distinct ∧ aliased.Plain Field.FoldApart ∧
      aliased.Holds List.Nodup datum ∧ datum.encode = .ok value ∧
      aliased.decode value = .ok datum ∧
      aliased.decode (wrap .preferExact value) = .error (.duplicateField "id") ∧
      aliased.decode (wrap .firstWins value) = .error (.duplicateField "id") := by
  intro datum value
  have hplain : ∀ {meets : List Field → Prop},
      meets [.mk "id" ["ID", "id", "identifier"] i64 none] → aliased.Plain meets := by
    intro meets h
    refine .record h fun field hmem => ?_
    rcases List.mem_singleton.mp hmem with rfl
    exact .int .i64
  have hdatum : aliased.Holds List.Nodup datum := by
    refine .record rfl fun part hpart => ?_
    rcases List.mem_singleton.mp hpart with rfl
    exact .int (by decide)
  exact ⟨hplain (by decide), hplain (by decide), hdatum, rfl, rfl, rfl, rfl⟩

end Caseless
