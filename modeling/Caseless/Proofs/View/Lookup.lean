import Caseless.Proofs.Name.Lookup
import Caseless.Readable

/-!
# Looking up a name in a value and in its view

The fields of a struct are asked for a name by its spelling, and a view of them ignoring case.  Both
lookups select a position among the names; they are compared here field by field.

Main results:

- Theorems `Fields.get?_eq_findIdx?`, `StructView.position?_new` and `StructView.get?_new`: what is
  selected;
- Theorem `StructView.get?_of_get?`: a view that prefers the exact spelling finds what there is of
  that spelling;
- Theorem `StructView.get?_eq_map_get?`: where no name differs from the query by case alone, every
  view finds the same field.
-/

namespace Caseless

open Name

variable {σ : Type}

/-- By its spelling, a name leads to the first field that is called so. -/
theorem Fields.get?_eq_findIdx? {α : Type} (query : String) (fields : Fields α) :
    fields.get? query =
      (fields.names.findIdx? (· == query)).bind fun position => (fields[position]?).map (·.2) := by
  induction fields with
  | nil => rfl
  | cons field rest ih =>
    rcases field with ⟨name, value⟩
    rw [get?, names_cons, List.findIdx?_cons]
    by_cases hname : name = query
    · simp [hname]
    · have hbeq : (name == query) = false := by simpa using hname
      rw [if_neg hname, ih, hbeq, if_neg Bool.false_ne_true, Option.bind_map]
      rfl

/-- What a name leads to is a field that is called so. -/
theorem Fields.mem_of_get? {α : Type} {query : String} {value : α} {fields : Fields α}
    (h : fields.get? query = some value) : (query, value) ∈ fields := by
  induction fields with
  | nil => contradiction
  | cons field rest ih =>
    rcases field with ⟨name, other⟩
    rw [get?] at h
    by_cases hname : name = query
    · rw [if_pos hname] at h
      rw [hname, Option.some.inj h]
      exact List.mem_cons_self
    · rw [if_neg hname] at h
      exact .tail _ (ih h)

/-- A name is not found by its spelling exactly when no field is called so. -/
theorem Fields.get?_eq_none_iff {α : Type} {query : String} {fields : Fields α} :
    fields.get? query = none ↔ query ∉ fields.names := by
  induction fields with
  | nil => simp [get?]
  | cons field rest ih =>
    rcases field with ⟨name, value⟩
    rw [get?, names_cons]
    by_cases hname : name = query
    · simp [hname]
    · simp [hname, ih, Ne.symm hname]

namespace StructView

variable [DecidableEq σ] {stamp : σ} {fields : Fields (Value σ)} {policy : Policy}

/-- A new view resolves a name to the position that a scan of the names selects. -/
theorem position?_new (query : String) :
    (new ⟨stamp, fields⟩ policy).position? query = scan policy fields.names query := by
  have htrue : (NameIndex.new policy).TrueOf (Record.mk stamp fields) :=
    NameIndex.trueOf_of_built_eq_none _ rfl
  exact htrue.lookup_eq_scan query

/-- A new view finds the field that a scan of the names selects. -/
theorem get?_new (query : String) : (new ⟨stamp, fields⟩ policy).get? query =
    (scan policy fields.names query).bind fun position =>
      (fields[position]?).map fun field => wrap policy field.2 := by
  rw [get?, position?_new]
  rfl

/-- What is found by its spelling, a view that prefers the exact spelling finds too. -/
theorem get?_of_get? (stamp : σ) {query : String} {value : Value σ}
    (h : fields.get? query = some value) :
    (new ⟨stamp, fields⟩ .preferExact).get? query = some (wrap .preferExact value) := by
  rw [Fields.get?_eq_findIdx?] at h
  rcases Option.bind_eq_some_iff.mp h with ⟨position, hposition, hvalue⟩
  rcases Option.map_eq_some_iff.mp hvalue with ⟨field, hfield, rfl⟩
  rw [get?_new, scan, hposition, Option.some_or, Option.bind_some, hfield]
  rfl

/-- Where no name differs from the query by case alone, every view finds what the spelling leads
to. -/
theorem get?_eq_map_get? {query : String}
    (h : ∀ name ∈ fields.names, eqIgnoreCase query name = true → query = name) :
    (new ⟨stamp, fields⟩ policy).get? query = (fields.get? query).map (wrap policy) := by
  rw [get?_new, scan_eq_findIdx? policy h, Fields.get?_eq_findIdx?, Option.map_bind]
  congr 1
  funext position
  rw [Function.comp_apply, Option.map_map]
  rfl

end StructView
end Caseless
