import Caseless.Data.Encode
import Caseless.Shape

/-!
# Data of a type

A plain shape stands for a type that a program derives its reading and writing for: it is built from
truth values, integers, floats, characters, text and units by options, sequences, tuples, maps with
text keys, wrappers, records and enumerations.  The data of such a type are what the program writes
for its values.

The entries of a map come in any order, and equal maps may be written in different orders.  Sorting
the entries of every map by their keys makes them equal as data.

Main results:

- Definition `Shape.Plain`: the plain shapes, under a condition on the fields of their records;
- Definition `Shape.Holds`: the data of a plain shape;
- Definition `Data.inKeyOrder`: a datum with the entries of its maps sorted;
- Theorem `Shape.Holds.inKeyOrder_eq_self`: data whose maps are written in order are as they were.
-/

namespace Caseless

/-- The entry of a map under a key that is text. -/
def Data.textEntry (entry : String × Data) : Data × Data :=
  (.str entry.1, entry.2)

/-! ## Plain shapes -/

/-- The shape of what a variant of an enumeration holds. -/
def Payload.content : Payload → Shape
  | .unit => .leaf .unit
  | .newtype inner => inner
  | .tuple elements => .tuple .tuple elements
  | .record fields => .record fields

namespace Shape

/-- Whether no datum of a plain shape is written as a null. -/
def neverNull : Shape → Bool
  | .leaf .unit | .leaf (.unitStruct _) | .option _ => false
  | .newtype inner => inner.neverNull
  | _ => true

/-- A shape of a derived type.  The fields of each record in it meet a condition.  What is optional
is never null by itself. -/
inductive Plain (meets : List Field → Prop) : Shape → Prop where
  | bool : Plain meets (.leaf .bool)
  | int (type : IntType) : Plain meets (.leaf (.int type))
  | f64 : Plain meets (.leaf .f64)
  | char : Plain meets (.leaf .char)
  | string : Plain meets (.leaf .string)
  | unit : Plain meets (.leaf .unit)
  | unitStruct (name : String) : Plain meets (.leaf (.unitStruct name))
  | option {present : Shape} (hpresent : Plain meets present) (hnull : present.neverNull = true) :
    Plain meets (.option present)
  | seq {element : Shape} (helement : Plain meets element) : Plain meets (.seq element)
  | tuple {form : TupleForm} {elements : List Shape}
    (hform : ∀ enum name, form ≠ .variant enum name)
    (helements : ∀ element ∈ elements, Plain meets element) : Plain meets (.tuple form elements)
  | map {element : Shape} (helement : Plain meets element) : Plain meets (.map .string element)
  | newtype {inner : Shape} (hinner : Plain meets inner) : Plain meets (.newtype inner)
  | record {fields : List Field} (hmeets : meets fields)
    (hfields : ∀ field ∈ fields, Plain meets field.shape) : Plain meets (.record fields)
  | enum {name : String} {variants : List (String × Payload)} (hnames : (variants.map (·.1)).Nodup)
    (hcontent : ∀ variant ∈ variants, Plain meets variant.2.content) :
    Plain meets (.enum name variants)

/-- A plain shape whose records meet two conditions is plain under whatever follows from both. -/
theorem Plain.imp₂ {meets meets' meets'' : List Field → Prop}
    (himp : ∀ fields, meets fields → meets' fields → meets'' fields) {shape : Shape}
    (h : shape.Plain meets) (h' : shape.Plain meets') : shape.Plain meets'' := by
  induction h with
  | bool => exact .bool
  | int type => exact .int type
  | f64 => exact .f64
  | char => exact .char
  | string => exact .string
  | unit => exact .unit
  | unitStruct name => exact .unitStruct name
  | option _ hnull ih =>
    cases h' with
    | option hpresent' => exact .option (ih hpresent') hnull
  | seq _ ih =>
    cases h' with
    | seq helement' => exact .seq (ih helement')
  | tuple hform _ ih =>
    cases h' with
    | tuple _ helements' =>
      exact .tuple hform fun element hmem => ih element hmem (helements' element hmem)
  | map _ ih =>
    cases h' with
    | map helement' => exact .map (ih helement')
  | newtype _ ih =>
    cases h' with
    | newtype hinner' => exact .newtype (ih hinner')
  | record hmeets _ ih =>
    cases h' with
    | record hmeets' hfields' =>
      exact .record (himp _ hmeets hmeets') fun field hmem => ih field hmem (hfields' field hmem)
  | enum hnames _ ih =>
    cases h' with
    | enum _ hcontent' =>
      exact .enum hnames fun variant hmem => ih variant hmem (hcontent' variant hmem)

theorem Plain.imp {meets meets' : List Field → Prop}
    (himp : ∀ fields, meets fields → meets' fields) {shape : Shape} (h : shape.Plain meets) :
    shape.Plain meets' :=
  h.imp₂ (fun fields h _ => himp fields h) h

/-- A datum of a plain shape.  The keys of each map in it meet a condition. -/
inductive Holds (keys : List String → Prop) : Shape → Data → Prop where
  | bool (b : Bool) : Holds keys (.leaf .bool) (.bool b)
  | int {type : IntType} {n : Int} (hfits : type.fits n = true) :
    Holds keys (.leaf (.int type)) (.int type n)
  | f64 (x : Float) : Holds keys (.leaf .f64) (.f64 x)
  | char (c : Char) : Holds keys (.leaf .char) (.char c)
  | string (s : String) : Holds keys (.leaf .string) (.str s)
  | unit : Holds keys (.leaf .unit) .unit
  | unitStruct (name : String) : Holds keys (.leaf (.unitStruct name)) .unitStruct
  | none (present : Shape) : Holds keys (.option present) .none
  | some {present : Shape} {datum : Data} (hdatum : Holds keys present datum) :
    Holds keys (.option present) (.some datum)
  | seq {element : Shape} {data : List Data} (hdata : ∀ datum ∈ data, Holds keys element datum) :
    Holds keys (.seq element) (.seq (some data.length) data)
  | tuple {form : TupleForm} {shapes : List Shape} {data : List Data}
    (hlength : data.length = shapes.length)
    (hdata : ∀ part ∈ shapes.zip data, Holds keys part.1 part.2) :
    Holds keys (.tuple form shapes) (form.datum data)
  | map {element : Shape} {entries : List (String × Data)} (hkeys : keys (entries.map (·.1)))
    (hentries : ∀ entry ∈ entries, Holds keys element entry.2) :
    Holds keys (.map .string element) (.map (some entries.length) (entries.map Data.textEntry))
  | newtype {inner : Shape} {datum : Data} (hdatum : Holds keys inner datum) :
    Holds keys (.newtype inner) (.newtypeStruct datum)
  | record {fields : List Field} {data : List (String × Data)}
    (hnames : data.map (·.1) = fields.map Field.name)
    (hdata : ∀ part ∈ fields.zip data, Holds keys part.1.shape part.2.2) :
    Holds keys (.record fields) (.struct data)
  | unitVariant {family name : String} {variants : List (String × Payload)}
    (hvariant : (name, .unit) ∈ variants) : Holds keys (.enum family variants) (.unitVariant name)
  | newtypeVariant {family name : String} {variants : List (String × Payload)} {inner : Shape}
    {datum : Data} (hvariant : (name, .newtype inner) ∈ variants)
    (hdatum : Holds keys inner datum) :
    Holds keys (.enum family variants) (.newtypeVariant name datum)
  | tupleVariant {family name : String} {variants : List (String × Payload)} {shapes : List Shape}
    {data : List Data} (hvariant : (name, .tuple shapes) ∈ variants)
    (hlength : data.length = shapes.length)
    (hdata : ∀ part ∈ shapes.zip data, Holds keys part.1 part.2) :
    Holds keys (.enum family variants) (.tupleVariant name data)
  | structVariant {family name : String} {variants : List (String × Payload)} {fields : List Field}
    {data : List (String × Data)} (hvariant : (name, .record fields) ∈ variants)
    (hnames : data.map (·.1) = fields.map Field.name)
    (hdata : ∀ part ∈ fields.zip data, Holds keys part.1.shape part.2.2) :
    Holds keys (.enum family variants) (.structVariant name data)

end Shape

/-! ## The order of map entries -/

namespace Data

/-- The text of a key that is text. -/
def keyText : Data → String
  | .str s => s
  | _ => ""

/-- Whether an entry of a map stands before another when entries are sorted by their keys. -/
def entryLe (entry other : Data × Data) : Bool :=
  entry.1.keyText ≤ other.1.keyText

mutual

/-- The datum with the entries of all its maps sorted by their keys. -/
def inKeyOrder : Data → Data
  | .some datum => .some datum.inKeyOrder
  | .newtypeStruct datum => .newtypeStruct datum.inKeyOrder
  | .newtypeVariant name datum => .newtypeVariant name datum.inKeyOrder
  | .seq announced elements => .seq announced (inKeyOrderElements elements)
  | .tupleOf announced elements => .tupleOf announced (inKeyOrderElements elements)
  | .tupleStructOf announced elements => .tupleStructOf announced (inKeyOrderElements elements)
  | .tupleVariantOf name announced elements =>
    .tupleVariantOf name announced (inKeyOrderElements elements)
  | .map announced entries => .map announced ((inKeyOrderEntries entries).mergeSort entryLe)
  | .structOf announced fields => .structOf announced (inKeyOrderFields fields)
  | .structVariantOf name announced fields =>
    .structVariantOf name announced (inKeyOrderFields fields)
  | datum => datum

/-- Elements with the entries of their maps sorted. -/
def inKeyOrderElements : List Data → List Data
  | [] => []
  | datum :: rest => datum.inKeyOrder :: inKeyOrderElements rest

/-- Entries with the entries of the maps in their values sorted. -/
def inKeyOrderEntries : List (Data × Data) → List (Data × Data)
  | [] => []
  | (key, datum) :: rest => (key, datum.inKeyOrder) :: inKeyOrderEntries rest

/-- Fields with the entries of their maps sorted. -/
def inKeyOrderFields : List (String × Data) → List (String × Data)
  | [] => []
  | (name, datum) :: rest => (name, datum.inKeyOrder) :: inKeyOrderFields rest

end

theorem inKeyOrderElements_eq_map (data : List Data) :
    inKeyOrderElements data = data.map inKeyOrder := by
  induction data with
  | nil => rfl
  | cons datum rest ih => rw [inKeyOrderElements, ih, List.map_cons]

theorem inKeyOrderEntries_eq_map (entries : List (Data × Data)) :
    inKeyOrderEntries entries = entries.map fun entry => (entry.1, entry.2.inKeyOrder) := by
  induction entries with
  | nil => rfl
  | cons entry rest ih => rw [inKeyOrderEntries, ih, List.map_cons]

theorem inKeyOrderFields_eq_map (fields : List (String × Data)) :
    inKeyOrderFields fields = fields.map fun field => (field.1, field.2.inKeyOrder) := by
  induction fields with
  | nil => rfl
  | cons field rest ih => rw [inKeyOrderFields, ih, List.map_cons]

/-- Sorting the maps in a sequence of fixed length sorts them in its elements. -/
theorem inKeyOrder_datum (form : TupleForm) (data : List Data) :
    (form.datum data).inKeyOrder = form.datum (data.map inKeyOrder) := by
  cases form <;>
    simp only [TupleForm.datum, tuple, tupleStruct, tupleVariant, inKeyOrder,
      inKeyOrderElements_eq_map, List.length_map]

/-- Sorting the maps in the fields of a record leaves as many fields. -/
theorem inKeyOrder_struct (data : List (String × Data)) :
    (struct data).inKeyOrder = struct (inKeyOrderFields data) := by
  rw [inKeyOrder, struct, inKeyOrderFields_eq_map, List.length_map]

theorem inKeyOrder_structVariant (name : String) (data : List (String × Data)) :
    (structVariant name data).inKeyOrder = structVariant name (inKeyOrderFields data) := by
  rw [inKeyOrder, structVariant, inKeyOrderFields_eq_map, List.length_map]

end Data

/-- Keys in ascending order, each one once. -/
def Ascending (keys : List String) : Prop :=
  keys.Pairwise (· < ·)

/-- Every element of the longer of two lists is beside an element of the other. -/
theorem exists_mem_zip {α β : Type} {xs : List α} {ys : List β} (hlength : ys.length ≤ xs.length)
    {y : β} (hmem : y ∈ ys) : ∃ x, (x, y) ∈ xs.zip ys := by
  rw [← List.map_snd_zip hlength] at hmem
  rcases List.mem_map.mp hmem with ⟨part, hpart, rfl⟩
  exact ⟨part.1, hpart⟩

namespace Data

theorem map_inKeyOrder_eq_self {data : List Data} (h : ∀ datum ∈ data, datum.inKeyOrder = datum) :
    data.map inKeyOrder = data := by
  rw [List.map_congr_left h, List.map_id']

theorem inKeyOrderFields_eq_self {fields : List (String × Data)}
    (h : ∀ field ∈ fields, field.2.inKeyOrder = field.2) : inKeyOrderFields fields = fields := by
  rw [inKeyOrderFields_eq_map]
  have hsame : ∀ field ∈ fields, (field.1, field.2.inKeyOrder) = field := by
    intro field hmem
    rw [h field hmem]
  rw [List.map_congr_left hsame, List.map_id']

/-- Entries whose keys ascend are sorted. -/
theorem mergeSort_eq_self_of_ascending {entries : List (String × Data)}
    (h : Ascending (entries.map (·.1))) :
    (entries.map textEntry).mergeSort entryLe = entries.map textEntry := by
  refine List.mergeSort_of_pairwise ?_
  rw [List.pairwise_map]
  refine (List.pairwise_map.mp h).imp fun hlt => ?_
  exact decide_eq_true (String.not_lt.mp (String.lt_asymm hlt))

end Data

namespace Shape

/-- Data whose maps are written in the order of their keys are as they were. -/
theorem Holds.inKeyOrder_eq_self {shape : Shape} {datum : Data} (h : shape.Holds Ascending datum) :
    datum.inKeyOrder = datum := by
  induction h with
  | bool | int | f64 | char | string | unit | unitStruct | none | unitVariant => rfl
  | some _ ih | newtype _ ih | newtypeVariant _ _ ih => rw [Data.inKeyOrder, ih]
  | seq _ ih => rw [Data.inKeyOrder, Data.inKeyOrderElements_eq_map, Data.map_inKeyOrder_eq_self ih]
  | tuple hlength _ ih =>
    rw [Data.inKeyOrder_datum, Data.map_inKeyOrder_eq_self]
    intro datum hmem
    rcases exists_mem_zip (Nat.le_of_eq hlength) hmem with ⟨shape, hpart⟩
    exact ih _ hpart
  | tupleVariant _ hlength _ ih =>
    rw [Data.inKeyOrder, Data.inKeyOrderElements_eq_map, Data.map_inKeyOrder_eq_self]
    intro datum hmem
    rcases exists_mem_zip (Nat.le_of_eq hlength) hmem with ⟨shape, hpart⟩
    exact ih _ hpart
  | @map element entries hkeys hentries ih =>
    have hvalues : ∀ entry ∈ entries.map Data.textEntry,
        (entry.1, entry.2.inKeyOrder) = entry := by
      intro entry hmem
      rcases List.mem_map.mp hmem with ⟨entry, hentry, rfl⟩
      rw [Data.textEntry, ih entry hentry]
    rw [Data.inKeyOrder, Data.inKeyOrderEntries_eq_map, List.map_congr_left hvalues, List.map_id',
      Data.mergeSort_eq_self_of_ascending hkeys]
  | record hnames _ ih | structVariant _ hnames _ ih =>
    rw [Data.inKeyOrder, Data.inKeyOrderFields_eq_self]
    intro field hmem
    have hlength := congrArg List.length hnames
    rw [List.length_map, List.length_map] at hlength
    rcases exists_mem_zip (Nat.le_of_eq hlength) hmem with ⟨declared, hpart⟩
    exact ih _ hpart

end Shape
end Caseless
