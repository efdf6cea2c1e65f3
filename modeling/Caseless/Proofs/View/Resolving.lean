import Caseless.Proofs.View.Places
import Caseless.Value.Stamped

/-!
# What names resolve to

A name is looked up among the fields of a struct by its spelling, or ignoring case under a policy.
Either way it leads to the first field that satisfies a condition on names, so fields that the name
does not lead to matter only as far as they must not come to be the first.  A change of such fields
leaves what the name leads to as it is.

Main definitions:

- `Record.resolve?`, `Value.resolve?`: the child that a name leads to;
- `FieldChange`: a change of fields, some of which are kept;
- `FieldChange.Spares`: no name leads to a field that is not kept, neither before nor after.

Main results:

- Theorem `Record.resolve?_eq_pick`: the field that a name leads to, as the first that satisfies a
  condition;
- Theorem `FieldChange.Spares.resolve?_eq`: a name leads to the same before and after a change that
  spares it.
-/

namespace Caseless

open Name

variable {σ : Type} [DecidableEq σ]

/-! ## Resolving a name -/

/-- The value of the field that a name leads to. -/
def Record.resolve? {α : Type} (access : Access) (record : Record σ α) (name : String) : Option α :=
  (access.position? record name).bind fun position => (record.fields[position]?).map (·.2)

/-- The child of a struct that a name leads to. -/
def Value.resolve? (access : Access) (value : Value σ) (name : String) : Option (Value σ) :=
  match value with
  | .struct stamp fields => (Record.mk stamp fields).resolve? access name
  | _ => none

/-- What a name leads to does not depend on the stamp, and goes along with a change of all values. -/
theorem Record.resolve?_map {τ α β : Type} [DecidableEq τ] {access : Access} {record : Record σ α}
    {other : Record τ β} {f : α → β}
    (h : other.fields = record.fields.map fun field => (field.1, f field.2)) (name : String) :
    other.resolve? access name = (record.resolve? access name).map f := by
  have hnames : other.names = record.names := by
    rw [names, names, h, Fields.names, Fields.names, List.map_map]
    rfl
  rw [resolve?, resolve?, Access.position?_eq_scan, Access.position?_eq_scan, hnames, h,
    Option.map_bind]
  congr 1
  funext position
  rw [Function.comp_apply, List.getElem?_map, Option.map_map, Option.map_map]
  rfl

theorem Value.resolve?_unstamped (access : Access) (value : Value σ) (name : String) :
    value.unstamped.resolve? access name = (value.resolve? access name).map unstamped := by
  cases value with
  | scalar payload => rfl
  | seq kind elements => rfl
  | struct stamp fields => exact Record.resolve?_map (unstampedFields_eq_map fields) name

/-! ## The first field that satisfies a condition -/

/-- The field that a name leads to. -/
def Access.pick {α : Type} (access : Access) (name : String) (fields : Fields α) :
    Option (String × α) :=
  match access with
  | .exact => fields.find? fun field => field.1 == name
  | .folded .firstWins => fields.find? fun field => eqIgnoreCase name field.1
  | .folded .preferExact =>
    (fields.find? fun field => field.1 == name).or
      (fields.find? fun field => eqIgnoreCase name field.1)

/-- The field at the first position whose name satisfies a condition is the first such field. -/
theorem Fields.findIdx?_bind {α : Type} (p : String → Bool) (fields : Fields α) :
    (fields.names.findIdx? p).bind (fun position => fields[position]?) =
      fields.find? fun field => p field.1 := by
  induction fields with
  | nil => rfl
  | cons field rest ih =>
    rw [names_cons, List.findIdx?_cons, List.find?_cons]
    cases p field.1 with
    | true => rfl
    | false =>
      rw [← ih, if_neg Bool.false_ne_true, Option.bind_map]
      rfl

theorem Access.scan_bind {α : Type} (access : Access) (name : String) (fields : Fields α) :
    (access.scan fields.names name).bind (fun position => fields[position]?) =
      access.pick name fields := by
  cases access with
  | exact => exact Fields.findIdx?_bind (· == name) fields
  | folded policy =>
    cases policy with
    | firstWins =>
      rw [scan, Name.scan, head?_matching]
      exact Fields.findIdx?_bind (eqIgnoreCase name) fields
    | preferExact =>
      have hspelled := Fields.findIdx?_bind (· == name) fields
      have hmatched := Fields.findIdx?_bind (eqIgnoreCase name) fields
      rw [scan, Name.scan, head?_matching, pick, ← hspelled, ← hmatched]
      cases hposition : fields.names.findIdx? (· == name) with
      | none => rfl
      | some position =>
        rcases List.findIdx?_eq_some_iff_getElem.mp hposition with ⟨hlt, -⟩
        rw [Fields.names, List.length_map] at hlt
        rw [Option.some_or, Option.bind_some, List.getElem?_eq_getElem hlt, Option.some_or]

theorem Record.resolve?_eq_pick {α : Type} (access : Access) (record : Record σ α) (name : String) :
    record.resolve? access name = (access.pick name record.fields).map (·.2) := by
  rw [resolve?, Access.position?_eq_scan, names, ← Access.scan_bind, Option.map_bind]
  rfl

/-! ## Changes of other fields -/

/-- The fields that are marked as kept. -/
def Fields.kept {α : Type} (fields : Fields (α × Bool)) : Fields (α × Bool) :=
  fields.filter fun field => field.2.2

/-- The fields without their marks. -/
def Fields.unmarked {α : Type} (fields : Fields (α × Bool)) : Fields α :=
  fields.map fun field => (field.1, field.2.1)

/-- A change of the fields of a struct.  Each field before and after is marked with whether the
change keeps it; those that are kept are the same, and in the same order.  All others may have been
inserted, deleted, renamed, overwritten or moved. -/
structure FieldChange (α : Type) where
  before : Fields (α × Bool)
  after : Fields (α × Bool)
  kept_eq : before.kept = after.kept

/-- A change spares names if each leads to a field that is kept, before and after, wherever it leads
to any. -/
def FieldChange.Spares {α : Type} (change : FieldChange α) (access : Access)
    (names : List String) : Prop :=
  ∀ name ∈ names, ∀ fields ∈ [change.before, change.after], ∀ found,
    (Record.mk () fields).resolve? access name = some found → found.2 = true

/-- Where the first element that satisfies a condition is kept, it is the first among those that
are kept. -/
theorem find?_filter_of_kept {α : Type} {p keep : α → Bool} {l : List α}
    (h : ∀ x, l.find? p = some x → keep x = true) : (l.filter keep).find? p = l.find? p := by
  induction l with
  | nil => rfl
  | cons x rest ih =>
    by_cases hx : p x = true
    · have hkeep := h x (List.find?_cons_of_pos hx)
      rw [List.filter_cons_of_pos hkeep, List.find?_cons_of_pos hx, List.find?_cons_of_pos hx]
    · rw [List.find?_cons_of_neg hx] at h ⊢
      by_cases hkeep : keep x = true
      · rw [List.filter_cons_of_pos hkeep, List.find?_cons_of_neg hx, ih h]
      · rw [List.filter_cons_of_neg hkeep, ih h]

/-- Where a name leads to a field that is kept, it leads there among those that are kept. -/
theorem Access.pick_kept {α : Type} {access : Access} {name : String} {fields : Fields (α × Bool)}
    (h : ∀ field, access.pick name fields = some field → field.2.2 = true) :
    access.pick name fields.kept = access.pick name fields := by
  cases access with
  | exact => exact find?_filter_of_kept h
  | folded policy =>
    cases policy with
    | firstWins => exact find?_filter_of_kept h
    | preferExact =>
      rw [pick] at h ⊢
      have hspelled : fields.kept.find? (fun field => field.1 == name) =
          fields.find? fun field => field.1 == name := by
        refine find?_filter_of_kept fun field hfield => h field ?_
        rw [hfield, Option.some_or]
      rw [pick, hspelled]
      cases hfound : fields.find? fun field => field.1 == name with
      | some field => rfl
      | none =>
        refine find?_filter_of_kept fun field hfield => h field ?_
        rw [hfound, Option.none_or, hfield]

namespace FieldChange

variable {α : Type} {change : FieldChange α} {access : Access} {names : List String} {name : String}

/-- A name that is spared leads to the same field as among those that are kept. -/
theorem Spares.pick_kept {fields : Fields (α × Bool)} (h : change.Spares access names)
    (hname : name ∈ names) (hfields : fields ∈ [change.before, change.after]) :
    access.pick name fields.kept = access.pick name fields := by
  refine Access.pick_kept fun field hfield => h name hname fields hfields field.2 ?_
  rw [Record.resolve?_eq_pick, hfield]
  rfl

/-- A name that is spared leads to the same before and after the change. -/
theorem Spares.resolve?_eq (h : change.Spares access names) (hname : name ∈ names)
    (stamp stamp' : σ) :
    (Record.mk stamp change.before.unmarked).resolve? access name =
      (Record.mk stamp' change.after.unmarked).resolve? access name := by
  have hbefore := h.pick_kept hname List.mem_cons_self
  have hafter := h.pick_kept hname (.tail _ List.mem_cons_self)
  have hunmarked : ∀ (stamp : σ) (fields : Fields (α × Bool)),
      (Record.mk stamp fields.unmarked).resolve? access name =
        ((access.pick name fields).map (·.2)).map (·.1) := by
    intro stamp fields
    rw [← Record.resolve?_eq_pick access (Record.mk stamp fields)]
    exact Record.resolve?_map rfl name
  rw [hunmarked, hunmarked, ← hbefore, ← hafter, change.kept_eq]

end FieldChange
end Caseless
