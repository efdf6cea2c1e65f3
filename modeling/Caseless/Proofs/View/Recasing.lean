import Caseless.Proofs.View.Lookup
import Mathlib.Data.List.Forall2

/-!
# Values that differ in the case of names

Two values may be the same up to the case of the names of their fields, at any depth.  A view that
resolves a name to its first match cannot tell them apart: whatever the spelling of the query, it
resolves to the same position in both.

Main results:

- Definition `Value.Recased`: values that differ in the case of names alone;
- Theorem `Name.scan_firstWins_recased`: the first match is at the same position;
- Definition `View.Recased` and Theorem `View.Recased.find?`: the views of such values, and what a
  name leads to in them.
-/

namespace Caseless

open Name

/-- Two values are the same up to the case of the names of fields, at any depth. -/
inductive Value.Recased {σ τ : Type} : Value σ → Value τ → Prop where
  | scalar (payload : Scalar) : Recased (.scalar payload) (.scalar payload)
  | seq (kind : SeqKind) {elements : List (Value σ)} {others : List (Value τ)}
    (helements : List.Forall₂ Recased elements others) :
    Recased (.seq kind elements) (.seq kind others)
  | struct (stamp : σ) (stamp' : τ) {fields : Fields (Value σ)} {others : Fields (Value τ)}
    (hnames : List.Forall₂ (fun name other => eqIgnoreCase name other = true) fields.names
      others.names)
    (hvalues : List.Forall₂ Recased (fields.map (·.2)) (others.map (·.2))) :
    Recased (.struct stamp fields) (.struct stamp' others)

/-! ## The first match -/

namespace Name

/-- Names that match ignoring case are matched by the same queries, however they are spelled. -/
theorem eqIgnoreCase_congr {query query' name name' : String}
    (hquery : eqIgnoreCase query query' = true) (hname : eqIgnoreCase name name' = true) :
    eqIgnoreCase query name = eqIgnoreCase query' name' := by
  rw [eqIgnoreCase_iff] at hquery hname
  rw [Bool.eq_iff_iff, eqIgnoreCase_iff, eqIgnoreCase_iff, hquery, hname]

/-- Among names that differ in case alone, the first match of a query is at the same position. -/
theorem scan_firstWins_recased {query query' : String} {names others : List String}
    (hquery : eqIgnoreCase query query' = true)
    (h : List.Forall₂ (fun name other => eqIgnoreCase name other = true) names others) :
    scan .firstWins names query = scan .firstWins others query' := by
  rw [scan, scan, head?_matching, head?_matching]
  induction h with
  | nil => rfl
  | cons hhead _ ih =>
    rw [List.findIdx?_cons, List.findIdx?_cons, eqIgnoreCase_congr hquery hhead, ih]

end Name

/-! ## Fields and views -/

theorem rel_getElem? {α β : Type} {rel : α → β → Prop} {xs : List α} {ys : List β}
    (h : List.Forall₂ rel xs ys) (position : Nat) :
    Option.Rel rel xs[position]? ys[position]? := by
  induction h generalizing position with
  | nil => exact .none
  | cons hhead _ ih =>
    cases position with
    | zero => exact .some hhead
    | succ position => exact ih position

/-- Two lists are related element by element exactly when they are at every index. -/
theorem forall₂_iff_getElem? {α β : Type} {rel : α → β → Prop} {xs : List α} {ys : List β} :
    List.Forall₂ rel xs ys ↔ ∀ index : Nat, Option.Rel rel xs[index]? ys[index]? := by
  constructor
  · exact rel_getElem?
  · intro h
    induction xs generalizing ys with
    | nil =>
      cases ys with
      | nil => exact .nil
      | cons y ys => nomatch h 0
    | cons x xs ih =>
      cases ys with
      | nil => nomatch h 0
      | cons y ys =>
        have hhead : Option.Rel rel (some x) (some y) := h 0
        cases hhead with
        | some hhead => exact .cons hhead (ih fun index => h (index + 1))

/-- Fields are related exactly when their names and their values are. -/
theorem Fields.forall₂_iff {α β : Type} (same : String → String → Prop) (rel : α → β → Prop)
    {fields : Fields α} {others : Fields β} :
    List.Forall₂ (fun field other => same field.1 other.1 ∧ rel field.2 other.2) fields others ↔
      List.Forall₂ same fields.names others.names ∧
        List.Forall₂ rel (fields.map (·.2)) (others.map (·.2)) := by
  rw [names, names, List.forall₂_map_left_iff, List.forall₂_map_right_iff,
    List.forall₂_map_left_iff, List.forall₂_map_right_iff]
  constructor
  · intro h
    exact ⟨h.imp fun _ _ hfield => hfield.1, h.imp fun _ _ hfield => hfield.2⟩
  · rintro ⟨hnames, hvalues⟩
    exact hnames.mp (fun _ _ hname hvalue => ⟨hname, hvalue⟩) hvalues

namespace View

variable {σ τ : Type}

/-- The views, resolving names to their first matches, of values that differ in the case of names
alone. -/
inductive Recased : View σ → View τ → Prop where
  | wrap {value : Value σ} {other : Value τ} (h : value.Recased other) :
    Recased (wrap .firstWins value) (wrap .firstWins other)

/-- Queries that differ in case alone lead to views of values that differ in case alone, or both
lead nowhere. -/
theorem Recased.find? [DecidableEq σ] [DecidableEq τ] {view : View σ} {other : View τ}
    (h : view.Recased other) {query query' : String} (hquery : eqIgnoreCase query query' = true) :
    Option.Rel Recased (view.find? query) (other.find? query') := by
  rcases h with ⟨hvalue⟩
  cases hvalue with
  | scalar payload => exact .none
  | seq kind helements => exact .none
  | @struct stamp stamp' fields others hnames hvalues =>
    have hfields := (Fields.forall₂_iff _ _).mpr ⟨hnames, hvalues⟩
    change Option.Rel Recased ((StructView.new ⟨stamp, fields⟩ .firstWins).get? query)
      ((StructView.new ⟨stamp', others⟩ .firstWins).get? query')
    rw [StructView.get?_new, StructView.get?_new, scan_firstWins_recased hquery hnames]
    cases scan .firstWins others.names query' with
    | none => exact .none
    | some position =>
      have hfield := rel_getElem? hfields position
      rw [Option.bind_some, Option.bind_some]
      generalize fields[position]? = field?, others[position]? = other? at hfield
      cases hfield with
      | none => exact .none
      | some h => exact .some (.wrap h.2)

end View
end Caseless
