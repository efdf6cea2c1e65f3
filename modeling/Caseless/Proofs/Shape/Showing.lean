import Caseless.Proofs.Shape.Simulation
import Caseless.Proofs.View.Resolving

/-!
# Values shown to a reader

Data are decoded from a value as it is, or from a view of it.  Either way a step of reading shows
the node of the value, with the children shown in the same way, and a name leads to one of the
fields.  Nothing else is read of a value, so values that differ in their stamps alone are decoded
alike.

Main definition: `Showing`, a way to show values to a reader.

Main results:

- Theorems `Showing.raw` and `Showing.wrapped`: values as they are, and their views;
- Theorem `Showing.decode_eq_of_unstamped_eq`: values of the same data are decoded alike.
-/

namespace Caseless

open Name Readable

variable {σ : Type} [DecidableEq σ]

/-! ## Ways to show a value -/

/-- Values are shown to a reader as they are: a step of reading shows the node, and a name leads to
the field that an access gives for it. -/
structure Showing {α : Type} [Readable α] (access : Access) (present : Value σ → α) : Prop where
  visit_eq : ∀ value, visit (present value) = value.visit.map present
  find?_eq : ∀ value name, find? (present value) name = (value.resolve? access name).map present

namespace Showing

/-- A value as it is; names are looked up by their spelling. -/
theorem raw : Showing .exact (id : Value σ → Value σ) where
  visit_eq value := by
    cases value <;> simp [visit, Value.visit, Node.map]
  find?_eq value name := by
    cases value with
    | scalar payload => rfl
    | seq kind elements => rfl
    | struct stamp fields =>
      rw [id, Option.map_id_fun, id, Value.resolve?, Record.resolve?, Access.position?_eq_scan]
      exact Fields.get?_eq_findIdx? name fields

/-- A view of a value; names are resolved under its policy. -/
theorem wrapped (policy : Policy) :
    Showing (.folded policy) (wrap policy : Value σ → View σ) where
  visit_eq := View.visit_wrap policy
  find?_eq value name := by
    cases value with
    | scalar payload => rfl
    | seq kind elements => rfl
    | struct stamp fields =>
      change (StructView.new ⟨stamp, fields⟩ policy).get? name = _
      rw [StructView.get?, Value.resolve?, Record.resolve?, Option.map_bind]
      congr 1
      funext position
      rw [Function.comp_apply, Option.map_map]
      rfl

variable {α : Type} [Readable α] {access : Access} {present : Value σ → α}

theorem tag_eq (h : Showing access present) (value : Value σ) :
    tag (present value) = value.tag := by
  rw [tag, h.visit_eq, Node.tag_map]
  cases value <;> rfl

theorem isNull_eq (h : Showing access present) (value : Value σ) :
    isNull (present value) = value.isNull := by
  rw [isNull, scalar?, h.visit_eq]
  cases value <;> rfl

end Showing

/-! ## Values of the same data -/

omit [DecidableEq σ] in
/-- Values of the same data have nodes of the same data. -/
theorem Value.alike_of_unstamped_eq {value other : Value σ}
    (h : value.unstamped = other.unstamped) :
    Node.Alike Eq (fun child child' => child.unstamped = child'.unstamped) value.visit
      other.visit := by
  cases value with
  | scalar payload =>
    cases other with
    | scalar payload' =>
      obtain rfl : payload = payload' := by simpa [unstamped] using h
      exact .scalar payload
    | seq | struct => simp [unstamped] at h
  | seq kind elements =>
    cases other with
    | seq kind' elements' =>
      simp only [unstamped, unstampedElements_eq_map, seq.injEq] at h
      obtain ⟨rfl, helements⟩ := h
      refine .seq kind ?_
      rwa [← List.forall₂_eq_eq_eq, List.forall₂_map_left_iff, List.forall₂_map_right_iff]
        at helements
    | scalar | struct => simp [unstamped] at h
  | struct stamp fields =>
    cases other with
    | struct stamp' fields' =>
      simp only [unstamped, unstampedFields_eq_map, struct.injEq, true_and] at h
      rw [← List.forall₂_eq_eq_eq, List.forall₂_map_left_iff, List.forall₂_map_right_iff] at h
      exact .struct (h.imp fun field field' heq => Prod.mk.inj heq)
    | scalar | seq => simp [unstamped] at h

namespace Showing

variable {α : Type} [Readable α] {access : Access} {present : Value σ → α}

/-- Values of the same data, shown side by side. -/
def sameData (h : Showing access present) : Simulation α α where
  rel handle other := ∃ value value', handle = present value ∧ other = present value' ∧
    value.unstamped = value'.unstamped
  names := Eq
  alike := by
    rintro _ _ ⟨value, value', rfl, rfl, hdata⟩
    rw [h.visit_eq, h.visit_eq]
    have halike := Value.alike_of_unstamped_eq hdata
    generalize value.visit = node, value'.visit = node' at halike
    cases halike with
    | scalar payload => exact .scalar payload
    | seq kind helements =>
      refine .seq kind ?_
      rw [List.forall₂_map_left_iff, List.forall₂_map_right_iff]
      exact helements.imp fun child child' heq => ⟨child, child', rfl, rfl, heq⟩
    | struct hentries =>
      refine .struct ?_
      rw [List.forall₂_map_left_iff, List.forall₂_map_right_iff]
      exact hentries.imp fun field field' heq => ⟨heq.1, field.2, field'.2, rfl, rfl, heq.2⟩

/-- Children of the same data are found as handles side by side. -/
theorem sameData_find? (h : Showing access present) {value other : Value σ} {name : String}
    (hdata : (value.resolve? access name).map Value.unstamped =
      (other.resolve? access name).map Value.unstamped) :
    Option.Rel h.sameData.rel (find? (present value) name) (find? (present other) name) := by
  rw [h.find?_eq, h.find?_eq]
  generalize value.resolve? access name = child?, other.resolve? access name = child'? at hdata
  cases child? with
  | none =>
    cases child'? with
    | none => exact .none
    | some child' => contradiction
  | some child =>
    cases child'? with
    | none => contradiction
    | some child' => exact .some ⟨child, child', rfl, rfl, Option.some.inj hdata⟩

/-- A field whose names lead to the same data is found as handles side by side. -/
theorem sameData_foundIn (h : Showing access present) {value other : Value σ} {field : Field}
    (hdata : ∀ name ∈ field.spellings, (value.resolve? access name).map Value.unstamped =
      (other.resolve? access name).map Value.unstamped) :
    List.Forall₂ h.sameData.rel (field.foundIn (present value)) (field.foundIn (present other)) := by
  have hspellings : List.Forall₂ (fun name name' => name = name' ∧ name ∈ field.spellings)
      field.spellings field.spellings := List.forall₂_same.mpr fun _ hmem => ⟨rfl, hmem⟩
  refine List.rel_filterMap ?_ hspellings
  rintro name _ ⟨rfl, hmem⟩
  exact h.sameData_find? (hdata name hmem)

/-- Any type of data is decoded alike from values of the same data. -/
theorem decodes_sameData (h : Showing access present) (shape : Shape) :
    h.sameData.Decodes False False shape := by
  refine Simulation.decode_agree (.of_forall (fun part => ⟨fun _ _ _ hname => hname, ?_⟩) shape)
  rintro field - _ _ ⟨value, other, rfl, rfl, hdata⟩
  refine Or.inl (h.sameData_foundIn fun name _ => ?_)
  rw [← Value.resolve?_unstamped, ← Value.resolve?_unstamped, hdata]

/-- Values of the same data are decoded alike. -/
theorem decode_eq_of_unstamped_eq (h : Showing access present) (shape : Shape)
    {value other : Value σ} (hdata : value.unstamped = other.unstamped) :
    shape.decode (present value) = shape.decode (present other) :=
  (h.decodes_sameData shape _ _ ⟨value, other, rfl, rfl, hdata⟩).eq

end Showing
end Caseless
