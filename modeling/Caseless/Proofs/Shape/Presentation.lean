import Caseless.Proofs.View.Lookup
import Caseless.Shape
import Mathlib.Data.List.Nodup
import Mathlib.Data.List.Pairwise

/-!
# Ways to present a value

A value is read as it is, or through a view of it.  Either way one step of reading shows the same
node, with children presented in the same way.  The ways differ in which names they tell apart: as
long as the names of a struct are told apart, each of them leads to its own field.

A record is written with the names of its fields, and read back by every name that they are accepted
under.  It comes back field by field if each field is found by its name and by none of its aliases.
A value itself leads no alias to a field as long as the accepted names differ; a view does where an
alias is the name of a field but for case.

Main results:

- Definition `Policy.TellsApart`: the lists of names that a policy tells apart;
- Theorem `scan_of_tellsApart`: each of these names is resolved to its own position;
- Definition `Presentation`: a way to present values, with `Presentation.bare` and
  `Presentation.wrapped` for values themselves and for views;
- Definitions `Field.Distinct`, `Field.AliasesApart` and `Field.FoldApart`: conditions on the names
  of the fields of a record;
- Definition `Presentation.Separates`: fields are found by their names and by no aliases, with
  Theorems `Field.Distinct.separates_bare`, `Field.AliasesApart.separates_preferExact` and
  `Field.AliasesApart.separates_firstWins`.
-/

namespace Caseless

/-! ## Names that are told apart -/

namespace Name

/-- Names that differ even when case is ignored. -/
def FoldsApart (names : List String) : Prop :=
  (names.map foldCase).Nodup

instance (names : List String) : Decidable (FoldsApart names) :=
  inferInstanceAs (Decidable (names.map foldCase).Nodup)

/-- A policy tells names apart when each is resolved to its own position. -/
def Policy.TellsApart : Policy → List String → Prop
  | .firstWins, names => FoldsApart names
  | .preferExact, names => names.Nodup

/-- The only name that a name of the list matches is itself. -/
theorem matching_of_foldsApart {names : List String} (h : FoldsApart names) {position : Nat}
    {name : String} (hname : names[position]? = some name) : matching names name = [position] := by
  have hmem : position ∈ matching names name := mem_matching.mpr ⟨name, hname, by simp⟩
  have honly : ∀ other ∈ matching names name, other = position := by
    intro other hother
    rcases mem_matching.mp hother with ⟨name', hname', heq⟩
    have hfold : (names.map foldCase)[position]? = (names.map foldCase)[other]? := by
      rw [List.getElem?_map, List.getElem?_map, hname, hname', Option.map_some, Option.map_some,
        (eqIgnoreCase_iff _ _).mp heq]
    have hlt : position < (names.map foldCase).length := by
      rw [List.length_map]
      exact lt_length_of_mem_matching hmem
    exact ((List.getElem?_inj hlt h).mp hfold).symm
  have hascending := matching_ascending names name
  cases hmatching : matching names name with
  | nil =>
    rw [hmatching] at hmem
    contradiction
  | cons first rest =>
    rw [hmatching] at honly hascending
    have hfirst := honly first List.mem_cons_self
    cases rest with
    | nil => rw [hfirst]
    | cons second rest =>
      have hsecond := honly second (.tail _ List.mem_cons_self)
      have hlt := (List.pairwise_cons.mp hascending).1 second List.mem_cons_self
      omega

/-- A query that matches no name is resolved to none. -/
theorem scan_eq_none {policy : Policy} {names : List String} {query : String}
    (h : ∀ name ∈ names, eqIgnoreCase query name = false) : scan policy names query = none := by
  rw [← Option.not_isSome_iff_eq_none, isSome_scan]
  have hnone : matching names query = [] := by
    rw [List.eq_nil_iff_forall_not_mem]
    intro position hmem
    rcases mem_matching.mp hmem with ⟨name, hname, heq⟩
    rw [h name (List.mem_of_getElem? hname)] at heq
    contradiction
  simp [hnone]

/-- A name that a policy tells apart from the others is resolved to its own position. -/
theorem scan_of_tellsApart {policy : Policy} {names : List String} (h : policy.TellsApart names)
    {position : Nat} {name : String} (hname : names[position]? = some name) :
    scan policy names name = some position := by
  cases policy with
  | firstWins => rw [scan, matching_of_foldsApart h hname, List.head?_cons]
  | preferExact =>
    rcases List.getElem?_eq_some_iff.mp hname with ⟨hlt, hget⟩
    have hspelled : names.findIdx? (· == name) = some position := by
      refine List.findIdx?_eq_some_iff_getElem.mpr ⟨hlt, by simpa using hget, ?_⟩
      intro other hother
      have hne := (List.pairwise_iff_getElem.mp h) other position (by omega) hlt hother
      simpa [hget] using hne
    rw [scan, hspelled, Option.some_or]

end Name

open Name

/-! ## Presentations -/

/-- A way to present values to a reader. -/
structure Presentation (α : Type) [Readable α] where
  present : Value → α
  /-- The lists of names of which each leads to its own field. -/
  apart : List String → Prop
  /-- Whether a query can lead to the field of a name. -/
  answers : String → String → Bool
  visit_present : ∀ value, Readable.visit (present value) = value.visit.map present
  find?_present : ∀ (fields : Fields Value) (field : String × Value), apart fields.names →
    field ∈ fields → Readable.find? (present (.struct () fields)) field.1 = some (present field.2)
  find?_eq_none : ∀ (fields : Fields Value) (query : String),
    (∀ name ∈ fields.names, answers query name = false) →
      Readable.find? (present (.struct () fields)) query = none

/-- Among fields of different names, each is found by its name. -/
theorem Fields.get?_of_mem {α : Type} {fields : Fields α} (h : fields.names.Nodup)
    {field : String × α} (hmem : field ∈ fields) : fields.get? field.1 = some field.2 := by
  induction fields with
  | nil => contradiction
  | cons head rest ih =>
    rcases List.nodup_cons.mp h with ⟨hhead, hrest⟩
    rcases head with ⟨name, value⟩
    rw [get?]
    rcases List.mem_cons.mp hmem with rfl | hmem
    · rw [if_pos rfl]
    · rw [if_neg, ih hrest hmem]
      intro heq
      exact hhead (List.mem_map.mpr ⟨field, hmem, heq.symm⟩)

/-- No field is found by a name that none of them has. -/
theorem Fields.get?_eq_none {α : Type} {fields : Fields α} {query : String}
    (h : ∀ name ∈ fields.names, (query == name) = false) : fields.get? query = none := by
  induction fields with
  | nil => rfl
  | cons head rest ih =>
    rcases List.forall_mem_cons.mp h with ⟨hhead, hrest⟩
    rcases head with ⟨name, value⟩
    rw [get?, if_neg, ih hrest]
    rintro rfl
    simp at hhead

/-- A view finds each field whose name its policy tells apart from the others. -/
theorem StructView.get?_of_mem {σ : Type} [DecidableEq σ] {stamp : σ} {fields : Fields (Value σ)}
    {policy : Policy} (h : policy.TellsApart fields.names) {field : String × Value σ}
    (hmem : field ∈ fields) :
    (StructView.new ⟨stamp, fields⟩ policy).get? field.1 = some (wrap policy field.2) := by
  rcases List.getElem?_of_mem hmem with ⟨position, hposition⟩
  have hname : fields.names[position]? = some field.1 := by
    rw [Fields.names, List.getElem?_map, hposition, Option.map_some]
  rw [get?_new, scan_of_tellsApart h hname, Option.bind_some, hposition, Option.map_some]

/-- A view finds no field by a query that matches no name. -/
theorem StructView.get?_eq_none {σ : Type} [DecidableEq σ] {stamp : σ} {fields : Fields (Value σ)}
    {policy : Policy} {query : String}
    (h : ∀ name ∈ fields.names, eqIgnoreCase query name = false) :
    (StructView.new ⟨stamp, fields⟩ policy).get? query = none := by
  rw [get?_new, scan_eq_none h, Option.bind_none]

namespace Presentation

/-- A value as it is. -/
def bare : Presentation Value where
  present := id
  apart := List.Nodup
  answers query name := query == name
  visit_present value := by
    cases value <;> simp [Readable.visit, Value.visit, Node.map]
  find?_present _ _ h hmem := Fields.get?_of_mem h hmem
  find?_eq_none _ _ h := Fields.get?_eq_none h

/-- A view of a value. -/
def wrapped (policy : Policy) : Presentation View where
  present := wrap policy
  apart := policy.TellsApart
  answers := eqIgnoreCase
  visit_present := View.visit_wrap policy
  find?_present _ _ h hmem := StructView.get?_of_mem h hmem
  find?_eq_none _ _ h := StructView.get?_eq_none h

variable {α : Type} [Readable α] (p : Presentation α)

/-- Presenting a value does not change whether it is a null. -/
theorem isNull_present (value : Value) : Readable.isNull (p.present value) = value.isNull := by
  rw [Readable.isNull, Readable.scalar?, p.visit_present]
  cases value <;> rfl

/-- The fields of a record are told apart: each is found by its name, and none by an alias. -/
structure Separates (fields : List Field) : Prop where
  own : ∀ field ∈ fields, field.spellings.Nodup ∧ field.name ∈ field.spellings
  names : p.apart (fields.map Field.name)
  aliases : ∀ field ∈ fields, ∀ spelling ∈ field.spellings, spelling ≠ field.name →
    ∀ other ∈ fields, p.answers spelling other.name = false

end Presentation

/-! ## Names of the fields of a record -/

namespace Field

/-- Each field is accepted under its own name, and the names that fields are accepted under are all
different. -/
structure Distinct (fields : List Field) : Prop where
  own : ∀ field ∈ fields, field.name ∈ field.spellings
  nodup : (fields.flatMap spellings).Nodup

/-- No alias of a field is, up to case, the name of a field. -/
def AliasesApart (fields : List Field) : Prop :=
  ∀ field ∈ fields, ∀ spelling ∈ field.spellings, spelling ≠ field.name →
    ∀ other ∈ fields, eqIgnoreCase spelling other.name = false

/-- The names of the fields differ even when case is ignored. -/
def FoldApart (fields : List Field) : Prop :=
  FoldsApart (fields.map name)

variable {fields : List Field}

instance : Decidable (Distinct fields) :=
  decidable_of_iff ((∀ field ∈ fields, field.name ∈ field.spellings) ∧
      (fields.flatMap spellings).Nodup)
    ⟨fun h => ⟨h.1, h.2⟩, fun h => ⟨h.own, h.nodup⟩⟩

instance : Decidable (AliasesApart fields) :=
  inferInstanceAs (Decidable (∀ field ∈ fields, ∀ spelling ∈ field.spellings,
    spelling ≠ field.name → ∀ other ∈ fields, eqIgnoreCase spelling other.name = false))

instance : Decidable (FoldApart fields) :=
  inferInstanceAs (Decidable (FoldsApart (fields.map name)))

/-- Fields that are accepted under one name are the same field. -/
theorem Distinct.eq_of_mem (h : Distinct fields) {field other : Field} (hfield : field ∈ fields)
    (hother : other ∈ fields) {spelling : String} (hmem : spelling ∈ field.spellings)
    (hmem' : spelling ∈ other.spellings) : field = other := by
  have hsymm : Std.Symm (Function.onFun List.Disjoint spellings) := ⟨fun _ _ h _ hx hy => h hy hx⟩
  by_contra hne
  exact (List.nodup_flatMap.mp h.nodup).2.forall hfield hother hne hmem hmem'

/-- The names of the fields are all different. -/
theorem Distinct.nodup_names (h : Distinct fields) : (fields.map name).Nodup := by
  refine List.pairwise_map.mpr ((List.nodup_flatMap.mp h.nodup).2.imp_of_mem ?_)
  intro field other hfield hother hdisjoint heq
  exact hdisjoint (h.own field hfield) (heq ▸ h.own other hother)

/-- A value tells the fields of a record apart as long as the names they are accepted under are
different. -/
theorem Distinct.separates_bare (h : Distinct fields) : Presentation.bare.Separates fields where
  own field hmem := ⟨(List.nodup_flatMap.mp h.nodup).1 field hmem, h.own field hmem⟩
  names := h.nodup_names
  aliases field hmem spelling hspelling hne other hother := by
    refine beq_false_of_ne ?_
    rintro rfl
    exact hne (congrArg name (h.eq_of_mem hmem hother hspelling (h.own other hother)).symm)

/-- A view that prefers the exact spelling does so if no alias matches a name. -/
theorem AliasesApart.separates_preferExact (h : AliasesApart fields) (hdistinct : Distinct fields) :
    (Presentation.wrapped .preferExact).Separates fields where
  own := hdistinct.separates_bare.own
  names := hdistinct.nodup_names
  aliases := h

/-- A view under which the first match wins does so if besides names differ even when case is
ignored. -/
theorem AliasesApart.separates_firstWins (h : AliasesApart fields) (hdistinct : Distinct fields)
    (hfold : FoldApart fields) : (Presentation.wrapped .firstWins).Separates fields where
  own := hdistinct.separates_bare.own
  names := hfold
  aliases := h

end Field
end Caseless
