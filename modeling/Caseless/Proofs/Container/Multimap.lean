import Caseless.Proofs.Memory.Edits
import Caseless.Proofs.View.Lookup
import Mathlib.Logic.Function.Iterate

/-!
# Structs as ordered multimaps

Under each name a struct has a list of values, in order of arrival.  Adding a field lengthens the
list of its name at the end, removing a name empties its list, and putting a name leaves it with a
single value.  The lists of all other names are as they were.

Removal is specified by what it leaves.  It can be done in place: the fields are gone through by
position, a field to be removed is taken out where it stands, and the position is then not moved on,
since the fields behind it move up.  Each round takes a field out or passes one, so what is left to
look at gets shorter by one field whichever it does.

Main definitions:

- `Fields.SameUnder`: two structs have the same values under a name;
- `Sweep`: a removal in place, and `Sweep.round`: one round of it;
- `Record.OrderedMultimap`: what the operations do to the values under each name.

Main results:

- Theorem `Fields.remove_eq`: what taking out a name hands back and what it leaves;
- Theorem `Sweep.iterate_round`: what any number of rounds comes to;
- Theorem `Record.orderedMultimap`: a struct is an ordered multimap.
-/

namespace Caseless

variable {σ α : Type}

namespace Fields

variable {fields fields' : Fields α} {name other : String}

/-! ## Reading -/

/-- A name leads to a value exactly when the value is that of the first field with the name. -/
theorem get?_eq_some_iff {value : α} :
    fields.get? name = some value ↔
      ∃ before after, fields = before ++ (name, value) :: after ∧ name ∉ names before := by
  induction fields with
  | nil => simp [get?]
  | cons field rest ih =>
    obtain ⟨first, held⟩ := field
    rw [get?]
    by_cases hname : first = name
    · subst hname
      rw [if_pos rfl]
      constructor
      · rintro ⟨⟩
        exact ⟨[], rest, rfl, by simp⟩
      · rintro ⟨before, after, hfields, hbefore⟩
        cases before with
        | nil =>
          cases hfields
          rfl
        | cons head before =>
          obtain ⟨rfl, -⟩ := List.cons.inj hfields
          exact absurd List.mem_cons_self hbefore
    · rw [if_neg hname, ih]
      constructor
      · rintro ⟨before, after, rfl, hbefore⟩
        refine ⟨(first, held) :: before, after, rfl, ?_⟩
        rw [names_cons, List.mem_cons]
        rintro (hsame | hmem)
        · exact hname hsame.symm
        · exact hbefore hmem
      · rintro ⟨before, after, hfields, hbefore⟩
        cases before with
        | nil =>
          cases hfields
          contradiction
        | cons head before =>
          obtain ⟨-, rfl⟩ := List.cons.inj hfields
          exact ⟨before, after, rfl, fun hmem => hbefore (.tail _ hmem)⟩

/-- What a name leads to is the first of the values under it. -/
theorem get?_eq_head?_getAll (name : String) (fields : Fields α) :
    fields.get? name = (fields.getAll name).head? := by
  unfold getAll
  induction fields with
  | nil => rfl
  | cons field rest ih =>
    obtain ⟨first, value⟩ := field
    rw [get?, List.filterMap_cons]
    by_cases hname : first = name
    · rw [if_pos hname, if_pos hname]
      rfl
    · rw [if_neg hname, if_neg hname]
      exact ih

theorem contains_iff_mem_names : fields.contains name = true ↔ name ∈ fields.names := by
  simp [contains, names]

/-- A field is called so exactly when there is a value under the name. -/
theorem contains_iff_getAll_ne_nil :
    fields.contains name = true ↔ fields.getAll name ≠ [] := by
  rw [contains_iff_mem_names, ne_eq, ← List.head?_eq_none_iff, ← get?_eq_head?_getAll,
    get?_eq_none_iff, not_not]

@[simp]
theorem getAll_append (name : String) (fields fields' : Fields α) :
    getAll name (fields ++ fields') = fields.getAll name ++ fields'.getAll name :=
  List.filterMap_append

theorem getAll_singleton (name : String) (value : α) : getAll name [(name, value)] = [value] := by
  simp [getAll]

theorem getAll_singleton_of_ne (h : other ≠ name) (value : α) :
    getAll other [(name, value)] = [] := by
  simp [getAll, Ne.symm h]

/-- Without the fields of a name there is no value under it. -/
theorem getAll_filter_ne_self (name : String) (fields : Fields α) :
    getAll name (fields.filter (·.1 ≠ name)) = [] := by
  simp [getAll, List.filterMap_filter]

/-- Without the fields of a name the values under another are all there. -/
theorem getAll_filter_ne (h : other ≠ name) (fields : Fields α) :
    getAll other (fields.filter (·.1 ≠ name)) = fields.getAll other := by
  rw [getAll, getAll, List.filterMap_filter]
  congr 1
  funext field
  by_cases hname : field.1 = other
  · have hne : field.1 ≠ name := hname ▸ h
    simp [hne]
  · simp [hname]

/-! ## Taking out a name -/

/-- Taking out a name hands back the first value under it, and leaves the fields of other names in
their order. -/
theorem remove_eq (name : String) (fields : Fields α) :
    fields.remove name = (fields.get? name, fields.filter (·.1 ≠ name)) := by
  induction fields with
  | nil => rfl
  | cons field rest ih =>
    obtain ⟨first, value⟩ := field
    rw [remove_cons, ih, get?]
    by_cases hname : first = name
    · simp [hname]
    · simp [hname]

/-- Where there is nothing to take out, nothing changes. -/
theorem filter_ne_of_get?_eq_none (h : fields.get? name = none) :
    fields.filter (·.1 ≠ name) = fields := by
  rw [List.filter_eq_self]
  rintro field hmem
  rw [decide_eq_true_eq]
  rintro rfl
  exact get?_eq_none_iff.mp h (List.mem_map_of_mem hmem)

/-! ## Structs that are the same under a name -/

/-- A name leads to the same values in two structs, in whichever way it is asked for. -/
structure SameUnder (name : String) (fields fields' : Fields α) : Prop where
  getAll_eq : fields.getAll name = fields'.getAll name
  get?_eq : fields.get? name = fields'.get? name
  contains_eq : fields.contains name = fields'.contains name

/-- The values under a name decide all that is asked for by it. -/
theorem sameUnder_of_getAll_eq (h : fields.getAll name = fields'.getAll name) :
    SameUnder name fields fields' where
  getAll_eq := h
  get?_eq := by rw [get?_eq_head?_getAll, get?_eq_head?_getAll, h]
  contains_eq := by
    rw [Bool.eq_iff_iff, contains_iff_getAll_ne_nil, contains_iff_getAll_ne_nil, h]

end Fields

/-! ## Removal in place -/

/-- A removal in place: the fields as they stand, the position that is looked at next, and the first
value that was taken out. -/
structure Sweep (α : Type) where
  fields : Fields α
  position : Nat
  removed : Option α

namespace Sweep

/-- A removal before its first round. -/
def start (fields : Fields α) : Sweep α :=
  ⟨fields, 0, none⟩

/-- How many fields are still to be looked at.  The removal goes on as long as there are any. -/
def left (sweep : Sweep α) : Nat :=
  sweep.fields.length - sweep.position

/-- One round.  A field with the name is taken out and the position stays, as the next field moves
up to it; any other field is passed. -/
def round (name : String) (sweep : Sweep α) : Sweep α :=
  match sweep.fields[sweep.position]? with
  | some field =>
    if field.1 = name then
      { fields := sweep.fields.eraseIdx sweep.position
        position := sweep.position
        removed := sweep.removed.or (some field.2) }
    else { sweep with position := sweep.position + 1 }
  | none => sweep

/-- A round at a field, between those that were passed and those that are still to be looked at. -/
theorem round_eq (name : String) (passed : Fields α) (field : String × α) (rest : Fields α)
    (removed : Option α) :
    round name ⟨passed ++ field :: rest, passed.length, removed⟩ =
      if field.1 = name then ⟨passed ++ rest, passed.length, removed.or (some field.2)⟩
      else ⟨(passed ++ [field]) ++ rest, (passed ++ [field]).length, removed⟩ := by
  have hfield : (passed ++ field :: rest)[passed.length]? = some field := by simp
  have herase : (passed ++ field :: rest).eraseIdx passed.length = passed ++ rest := by
    simp [List.eraseIdx_append_of_length_le]
  simp only [round, hfield, herase]
  by_cases hname : field.1 = name
  · rw [if_pos hname, if_pos hname]
  · rw [if_neg hname, if_neg hname, List.append_assoc, List.length_append]
    rfl

/-- After any number of rounds, up to one for each field: of the fields that were looked at those
with other names stand in front, and the first value under the name was kept. -/
theorem iterate_round (name : String) (passed looked rest : Fields α) (removed : Option α) :
    (round name)^[looked.length] ⟨passed ++ (looked ++ rest), passed.length, removed⟩ =
      { fields := (passed ++ looked.filter (·.1 ≠ name)) ++ rest
        position := (passed ++ looked.filter (·.1 ≠ name)).length
        removed := removed.or (looked.get? name) } := by
  induction looked generalizing passed removed with
  | nil => simp [Fields.get?]
  | cons field looked ih =>
    rw [List.length_cons, Function.iterate_succ_apply, List.cons_append, round_eq, Fields.get?]
    by_cases hname : field.1 = name
    · rw [if_pos hname, if_pos hname, ih, List.filter_cons_of_neg (by simpa using hname)]
      cases removed <;> simp
    · rw [if_neg hname, if_neg hname, ih, List.filter_cons_of_pos (by simpa using hname),
        List.append_assoc passed [field], List.singleton_append]

/-- The removal goes through one round for each field, and then stands at the end with what
`Fields.remove` gives. -/
theorem ends (name : String) (fields : Fields α) :
    (∀ rounds < fields.length, ((round name)^[rounds] (start fields)).left ≠ 0) ∧
      ((round name)^[fields.length] (start fields)).left = 0 ∧
      ((round name)^[fields.length] (start fields)).removed = (fields.remove name).1 ∧
      ((round name)^[fields.length] (start fields)).fields = (fields.remove name).2 := by
  have hrounds : ∀ looked rest, fields = looked ++ rest →
      (round name)^[looked.length] (start fields) =
        ⟨looked.filter (·.1 ≠ name) ++ rest, (looked.filter (·.1 ≠ name)).length,
          looked.get? name⟩ := by
    rintro looked rest rfl
    simpa [start] using iterate_round name [] looked rest none
  have hend := hrounds fields [] (List.append_nil fields).symm
  refine ⟨?_, ?_, ?_, ?_⟩
  · intro rounds hlt
    have hsplit := hrounds (fields.take rounds) (fields.drop rounds) (List.take_append_drop ..).symm
    rw [List.length_take_of_le (Nat.le_of_lt hlt)] at hsplit
    rw [hsplit, left, List.length_append, List.length_drop, Nat.add_sub_cancel_left]
    omega
  · rw [hend, left, List.append_nil, Nat.sub_self]
  · rw [hend, Fields.remove_eq]
  · rw [hend, Fields.remove_eq, List.append_nil]

end Sweep

/-! ## Structs -/

namespace Record

variable (record : Record Stamp α) (clock : Clock)

/-- What taking a name out of a struct hands back, and what it leaves. -/
theorem remove_spec (name : String) :
    (record.remove name clock).1 = record.fields.get? name ∧
      (record.remove name clock).2.1.fields = record.fields.filter (·.1 ≠ name) := by
  have hremove := Fields.remove_eq name record.fields
  simp only [remove, hremove]
  cases hget : record.fields.get? name with
  | none => exact ⟨rfl, (Fields.filter_ne_of_get?_eq_none hget).symm⟩
  | some value => exact ⟨rfl, rfl⟩

/-- What putting a name into a struct hands back, and what is there afterwards. -/
theorem put_spec (name : String) (value : α) :
    (record.put name value clock).1 = record.fields.get? name ∧
      (record.put name value clock).2.1.fields =
        record.fields.filter (·.1 ≠ name) ++ [(name, value)] := by
  obtain ⟨hremoved, hkept⟩ := record.remove_spec clock name
  refine ⟨hremoved, ?_⟩
  rw [← hkept]
  rfl

/-- A field is taken out at a position exactly when it stands there, and then it alone is. -/
theorem removeAt_eq_ok_iff {position : Nat} {field : String × α} :
    (record.removeAt position clock).1 = .ok field ↔
      ∃ before after, record.fields = before ++ field :: after ∧ before.length = position ∧
        (record.removeAt position clock).2.1.fields = before ++ after := by
  constructor
  · intro hok
    have hat : record.fields[position]? = some field := by
      rw [removeAt, Fields.removeAt] at hok
      cases hget : record.fields[position]? with
      | none =>
        rw [hget] at hok
        contradiction
      | some found =>
        rw [hget] at hok
        rw [Except.ok.inj hok]
    obtain ⟨hlt, rfl⟩ := List.getElem?_eq_some_iff.mp hat
    refine ⟨record.fields.take position, record.fields.drop (position + 1), ?_, ?_, ?_⟩
    · rw [List.getElem_cons_drop, List.take_append_drop]
    · exact List.length_take_of_le (Nat.le_of_lt hlt)
    · rw [removeAt, Fields.removeAt, hat]
      exact List.eraseIdx_eq_take_drop_succ ..
  · rintro ⟨before, after, hfields, rfl, -⟩
    have hat : record.fields[before.length]? = some field := by simp [hfields]
    rw [removeAt, Fields.removeAt, hat]

/-- A struct is an ordered multimap from names to values. -/
structure OrderedMultimap (record : Record Stamp α) : Prop where
  /-- A name leads to the value of the first field that is called so. -/
  first : ∀ name value, record.fields.get? name = some value ↔ ∃ before after,
    record.fields = before ++ (name, value) :: after ∧ name ∉ Fields.names before
  /-- It is the first of the values under the name. -/
  get?_eq : ∀ name, record.fields.get? name = (record.fields.getAll name).head?
  contains_iff : ∀ name, record.fields.contains name = true ↔ record.fields.getAll name ≠ []
  /-- Removing a name hands back what it leads to, and leaves exactly the other fields, in order. -/
  remove_eq : ∀ name clock, (record.remove name clock).1 = record.fields.get? name ∧
    (record.remove name clock).2.1.fields = record.fields.filter (·.1 ≠ name)
  /-- Done in place, it comes to its end after one round for each field, with the same outcome. -/
  inPlace : ∀ name clock,
    let after (rounds : Nat) := (Sweep.round name)^[rounds] (.start record.fields)
    (∀ rounds < record.size, (after rounds).left ≠ 0) ∧ (after record.size).left = 0 ∧
      (after record.size).removed = (record.remove name clock).1 ∧
      (after record.size).fields = (record.remove name clock).2.1.fields
  /-- Putting a name hands back the same, and leaves the same fields and the new one behind them. -/
  put_eq : ∀ name value clock, (record.put name value clock).1 = (record.remove name clock).1 ∧
    (record.put name value clock).2.1.fields =
      (record.remove name clock).2.1.fields ++ [(name, value)]
  add_eq : ∀ name value clock, (record.add name value clock).1.fields =
    record.fields ++ [(name, value)]
  getAll_put : ∀ name value clock, (record.put name value clock).2.1.fields.getAll name = [value]
  contains_remove : ∀ name clock,
    (record.remove name clock).2.1.fields.contains name = false
  /-- No operation under one name is noticed under another. -/
  others : ∀ name other, other ≠ name → ∀ value clock,
    Fields.SameUnder other (record.add name value clock).1.fields record.fields ∧
      Fields.SameUnder other (record.put name value clock).2.1.fields record.fields ∧
      Fields.SameUnder other (record.remove name clock).2.1.fields record.fields
  /-- Taking out the field at a position hands it back and leaves all other fields in order. -/
  removeAt_iff : ∀ position field clock, (record.removeAt position clock).1 = .ok field ↔
    ∃ before after, record.fields = before ++ field :: after ∧ before.length = position ∧
      (record.removeAt position clock).2.1.fields = before ++ after

/-- Every struct is an ordered multimap, and its operations keep to that. -/
theorem orderedMultimap (record : Record Stamp α) : record.OrderedMultimap where
  first _ _ := Fields.get?_eq_some_iff
  get?_eq name := Fields.get?_eq_head?_getAll name record.fields
  contains_iff _ := Fields.contains_iff_getAll_ne_nil
  remove_eq name clock := record.remove_spec clock name
  inPlace name clock := by
    obtain ⟨hremoved, hleft⟩ := record.remove_spec clock name
    have hsweep := Sweep.ends name record.fields
    rw [Fields.remove_eq] at hsweep
    rw [hremoved, hleft]
    exact hsweep
  put_eq name value clock := by
    obtain ⟨hremoved, hleft⟩ := record.remove_spec clock name
    rw [hremoved, hleft]
    exact record.put_spec clock name value
  add_eq _ _ _ := rfl
  getAll_put name value clock := by
    rw [(record.put_spec clock name value).2, Fields.getAll_append, Fields.getAll_filter_ne_self,
      Fields.getAll_singleton, List.nil_append]
  contains_remove name clock := by
    rw [(record.remove_spec clock name).2, ← Bool.not_eq_true, Fields.contains_iff_getAll_ne_nil,
      Fields.getAll_filter_ne_self, not_not]
  others name other hne value clock := by
    have hkept := Fields.getAll_filter_ne hne record.fields
    have hnew := Fields.getAll_singleton_of_ne hne value
    refine ⟨Fields.sameUnder_of_getAll_eq ?_, Fields.sameUnder_of_getAll_eq ?_,
      Fields.sameUnder_of_getAll_eq ?_⟩
    · change Fields.getAll other (record.fields ++ [(name, value)]) = _
      rw [Fields.getAll_append, hnew, List.append_nil]
    · rw [(record.put_spec clock name value).2, Fields.getAll_append, hkept, hnew, List.append_nil]
    · rw [(record.remove_spec clock name).2, hkept]
  removeAt_iff _ _ clock := record.removeAt_eq_ok_iff clock

end Record
end Caseless
