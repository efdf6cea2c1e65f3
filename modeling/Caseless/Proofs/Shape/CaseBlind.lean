import Caseless.Proofs.Shape.Simulation
import Caseless.Proofs.View.Recasing
import Caseless.Shape.Catalogue

/-!
# Decoding does not see the case of names

A declared field is looked up through the view, and a view that resolves names to their first match
finds the same whatever the case of the stored names.  Data whose type never takes a name as it is
stored is therefore decoded alike from any two values that differ in the case of names alone: the
data are the same, or the failures are.

Main results:

- Definition `Simulation.recasing`: views of such values, side by side;
- Theorem `Shape.decode_eq_of_recased`: they are decoded alike.
-/

namespace Caseless

open Name

variable {σ τ : Type} [DecidableEq σ] [DecidableEq τ]

namespace Simulation

/-- Views of values that differ in the case of names alone, read side by side. -/
def recasing : Simulation (View σ) (View τ) where
  rel := View.Recased
  names name other := eqIgnoreCase name other = true
  alike := by
    rintro _ _ ⟨hvalue⟩
    cases hvalue with
    | scalar payload => exact .scalar payload
    | seq kind helements =>
      refine .seq kind ?_
      rw [ListView.children, ListView.children, List.forall₂_map_left_iff,
        List.forall₂_map_right_iff]
      exact helements.imp fun _ _ h => .wrap h
    | struct stamp stamp' hnames hvalues =>
      refine .struct ?_
      rw [StructView.entries, StructView.entries, List.forall₂_map_left_iff,
        List.forall₂_map_right_iff]
      exact ((Fields.forall₂_iff _ _).mpr ⟨hnames, hvalues⟩).imp fun _ _ h => ⟨h.1, .wrap h.2⟩

/-- Every declared field is found as views side by side. -/
theorem binds_recasing (field : Field) :
    (recasing (σ := σ) (τ := τ)).Binds False False field := by
  intro view other h
  refine Or.inl (List.rel_filterMap (R := Eq) ?_ (List.forall₂_refl field.spellings))
  rintro spelling _ rfl
  exact h.find? (eqIgnoreCase_self spelling)

end Simulation

namespace Shape

/-- Values that differ in the case of names alone are decoded alike through views that resolve names
to their first matches, whatever the names of declared fields: both give the same data, or the same
failure. -/
theorem decode_eq_of_recased {shape : Shape}
    (hshape : shape.Everywhere fun part => part.readsNames = false) {value : Value σ}
    {other : Value τ} (h : value.Recased other) :
    shape.decode (wrap .firstWins value) = shape.decode (wrap .firstWins other) := by
  have hagree : (Simulation.recasing (σ := σ) (τ := τ)).Decodes False False shape := by
    refine Simulation.decode_agree (hshape.imp fun part hnames => ⟨fun hreads => ?_, ?_⟩)
    · rw [hnames] at hreads
      contradiction
    · intro field _
      exact Simulation.binds_recasing field
  exact (hagree _ _ (.wrap h)).eq

/-- Orders in two casings.  The quantity is there twice, and the first one is taken in either. -/
theorem decode_orders_of_recased :
    let value : Value := .seq .list [.struct () [("SKU", .scalar (.string "a")),
      ("Qty", .scalar (.int 2)), ("qty", .null)]]
    let other : Value := .seq .list [.struct () [("sku", .scalar (.string "a")),
      ("QTY", .scalar (.int 2)), ("Qty", .null)]]
    ((Shape.seq order).Everywhere fun part => part.readsNames = false) ∧ value.Recased other ∧
      (Shape.seq order).decode (wrap .firstWins value) =
        (Shape.seq order).decode (wrap .firstWins other) ∧
      (Shape.seq order).decode (wrap .firstWins other) =
        .ok (.seq (some 1) [.struct [("sku", .str "a"), ("qty", .int .u16 2)]]) := by
  intro value other
  have horder : order.Everywhere fun part => part.readsNames = false := by
    refine .intro rfl fun part hmem => ?_
    rcases List.mem_pair.mp hmem with rfl | rfl
    · exact .of_parts_eq_nil rfl rfl
    · exact .of_parts_eq_nil rfl rfl
  have hshape : (Shape.seq order).Everywhere fun part => part.readsNames = false := by
    refine .intro rfl fun part hmem => ?_
    rw [List.mem_singleton.mp hmem]
    exact horder
  have hvalue : value.Recased other := by
    refine .seq .list (.cons (.struct () () ?_ ?_) .nil)
    · exact .cons (by decide) (.cons (by decide) (.cons (by decide) .nil))
    · exact .cons (.scalar _) (.cons (.scalar _) (.cons (.scalar _) .nil))
  exact ⟨hshape, hvalue, decode_eq_of_recased hshape hvalue, rfl⟩

end Shape
end Caseless
