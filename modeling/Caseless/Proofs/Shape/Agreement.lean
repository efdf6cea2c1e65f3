import Caseless.Proofs.Shape.Simulation
import Caseless.Proofs.View.Lookup
import Caseless.Shape.Catalogue

/-!
# Decoding a value and its view

A value is decoded by the spelling of names, and a view of it ignoring case.  Only the names of
declared fields are looked up, so the two can differ only where a stored name differs from a
declared one by case alone.  Where some do, a view that prefers the exact spelling still finds all
that the value itself shows; it may find more, which matters to a field that may be absent and to a
field with several spellings.

Main results:

- Definition `Value.allNames`: the names of fields that occur in a value;
- Definition `Field.MatchesExactly`: a declared field that differs from no stored name by case alone;
- Definition `Simulation.viewing`: values and their views, side by side;
- Theorem `Shape.decode_wrap`: a view is decoded as the value is, where no stored name differs from
  a declared one by case alone;
- Theorem `Shape.decode_preferExact`: preferring the exact spelling changes no datum, if no declared
  field may be absent.
-/

namespace Caseless

open Name Readable

/-! ## The names in a value -/

namespace Value

variable {σ : Type}

mutual

/-- The names of fields that occur in a value, at any depth. -/
def allNames : Value σ → List String
  | .scalar _ => []
  | .seq _ elements => allNamesOfElements elements
  | .struct _ fields => allNamesOfFields fields

/-- The names that occur in elements. -/
def allNamesOfElements : List (Value σ) → List String
  | [] => []
  | x :: xs => x.allNames ++ allNamesOfElements xs

/-- The names of fields, and those that occur in their values. -/
def allNamesOfFields : List (String × Value σ) → List String
  | [] => []
  | (name, x) :: xs => name :: (x.allNames ++ allNamesOfFields xs)

end

theorem allNames_subset_of_mem_elements {x : Value σ} {xs : List (Value σ)} (h : x ∈ xs) :
    x.allNames ⊆ allNamesOfElements xs := by
  induction xs with
  | nil => contradiction
  | cons y ys ih =>
    rw [allNamesOfElements]
    rcases List.mem_cons.mp h with rfl | h
    · exact List.subset_append_left ..
    · exact List.subset_append_of_subset_right _ (ih h)

theorem mem_allNames_of_mem_names {name : String} {fields : Fields (Value σ)}
    (h : name ∈ fields.names) : name ∈ allNamesOfFields fields := by
  induction fields with
  | nil => contradiction
  | cons field rest ih =>
    rcases field with ⟨name', y⟩
    rw [allNamesOfFields]
    rcases List.mem_cons.mp h with rfl | h
    · exact List.mem_cons_self
    · exact .tail _ (List.mem_append_right _ (ih h))

theorem allNames_subset_of_mem_fields {x : Value σ} {fields : Fields (Value σ)}
    (h : x ∈ fields.map (·.2)) : x.allNames ⊆ allNamesOfFields fields := by
  induction fields with
  | nil => contradiction
  | cons field rest ih =>
    rcases field with ⟨name, y⟩
    rw [allNamesOfFields]
    refine List.subset_cons_of_subset _ ?_
    rcases List.mem_cons.mp h with rfl | h
    · exact List.subset_append_left ..
    · exact List.subset_append_of_subset_right _ (ih h)

/-- What occurs in a child occurs in the value. -/
theorem allNames_subset_of_mem_visit {value child : Value σ} (h : child ∈ value.visit.children) :
    child.allNames ⊆ value.allNames := by
  cases value with
  | scalar payload => contradiction
  | seq kind elements => exact allNames_subset_of_mem_elements h
  | struct stamp fields => exact allNames_subset_of_mem_fields h

/-- What a name leads to is a child. -/
theorem mem_visit_of_find? {value child : Value σ} {query : String}
    (h : value.find? query = some child) : child ∈ value.visit.children := by
  cases value with
  | scalar payload => contradiction
  | seq kind elements => contradiction
  | struct stamp fields =>
    have hmem : (query, child) ∈ fields := Fields.mem_of_get? h
    exact List.mem_map.mpr ⟨(query, child), hmem, rfl⟩

end Value

/-! ## What a view finds -/

namespace View

variable {σ : Type} [DecidableEq σ]

/-- Where no stored name differs from the query by case alone, a view finds what the value shows. -/
theorem find?_wrap {policy : Policy} {value : Value σ} {query : String}
    (h : ∀ name ∈ value.allNames, eqIgnoreCase query name = true → query = name) :
    (wrap policy value).find? query = (value.find? query).map (wrap policy) := by
  cases value with
  | scalar payload => rfl
  | seq kind elements => rfl
  | struct stamp fields =>
    refine StructView.get?_eq_map_get? fun name hname => ?_
    exact h name (Value.mem_allNames_of_mem_names hname)

/-- A view that prefers the exact spelling finds what the value shows. -/
theorem find?_wrap_preferExact {value child : Value σ} {query : String}
    (h : value.find? query = some child) :
    (wrap .preferExact value).find? query = some (wrap .preferExact child) := by
  cases value with
  | scalar payload => contradiction
  | seq kind elements => contradiction
  | struct stamp fields => exact StructView.get?_of_get? stamp h

end View

/-- Every stored name that matches a spelling of the field ignoring case is that spelling. -/
def Field.MatchesExactly (field : Field) (stored : List String) : Prop :=
  ∀ spelling ∈ field.spellings, ∀ name ∈ stored,
    eqIgnoreCase spelling name = true → spelling = name

instance (field : Field) (stored : List String) : Decidable (field.MatchesExactly stored) :=
  inferInstanceAs (Decidable (∀ spelling ∈ field.spellings, ∀ name ∈ stored,
    eqIgnoreCase spelling name = true → spelling = name))

/-- If one function gives something wherever another does, and related to it, then of a list they
select related elements, or the one selects more. -/
theorem forall₂_filterMap_or_length_lt {α β γ : Type} {rel : β → γ → Prop} {f : α → Option β}
    {g : α → Option γ} (h : ∀ a x, f a = some x → ∃ y, g a = some y ∧ rel x y) (l : List α) :
    List.Forall₂ rel (l.filterMap f) (l.filterMap g) ∨
      (l.filterMap f).length < (l.filterMap g).length := by
  induction l with
  | nil => exact Or.inl .nil
  | cons a rest ih =>
    cases hf : f a with
    | some x =>
      rcases h a x hf with ⟨y, hg, hrel⟩
      rw [List.filterMap_cons_some hf, List.filterMap_cons_some hg]
      rcases ih with hrest | hlt
      · exact Or.inl (.cons hrel hrest)
      · exact Or.inr (Nat.succ_lt_succ hlt)
    | none =>
      rw [List.filterMap_cons_none hf]
      cases hg : g a with
      | none =>
        rw [List.filterMap_cons_none hg]
        exact ih
      | some y =>
        rw [List.filterMap_cons_some hg]
        right
        rcases ih with hrest | hlt
        · rw [hrest.length_eq]
          exact Nat.lt_succ_self _
        · exact Nat.lt_succ_of_lt hlt

/-! ## Values and views side by side -/

namespace Simulation

variable {σ : Type} [DecidableEq σ]

/-- Values with no other names than given ones, side by side with their views. -/
def viewing (policy : Policy) (stored : List String) : Simulation (Value σ) (View σ) where
  rel value view := view = wrap policy value ∧ value.allNames ⊆ stored
  names := Eq
  alike := by
    rintro value _ ⟨rfl, hstored⟩
    have hvisit : visit (wrap policy value) = (visit value).map (wrap policy) :=
      View.visit_wrap policy value
    rw [hvisit]
    refine Node.alike_map (wrap policy) fun child hmem => ⟨rfl, ?_⟩
    exact List.Subset.trans (Value.allNames_subset_of_mem_visit hmem) hstored

variable {policy : Policy} {stored : List String} {field : Field}

theorem keepsNames_viewing : (viewing (σ := σ) policy stored).KeepsNames :=
  fun _ _ h => h

/-- A child that is found is side by side with its view. -/
theorem viewing_of_find? {value child : Value σ} (hstored : value.allNames ⊆ stored)
    {query : String} (h : value.find? query = some child) :
    (viewing policy stored).rel child (wrap policy child) :=
  ⟨rfl, List.Subset.trans (Value.allNames_subset_of_mem_visit (Value.mem_visit_of_find? h)) hstored⟩

/-- A field that matches stored names exactly is found on both sides. -/
theorem binds_viewing (h : field.MatchesExactly stored) :
    (viewing (σ := σ) policy stored).Binds False False field := by
  rintro value _ ⟨rfl, hstored⟩
  left
  have hspellings : List.Forall₂ (fun spelling other => spelling = other ∧
      spelling ∈ field.spellings) field.spellings field.spellings :=
    List.forall₂_same.mpr fun _ hmem => ⟨rfl, hmem⟩
  refine List.rel_filterMap ?_ hspellings
  rintro spelling _ ⟨rfl, hmem⟩
  have hview : find? (wrap policy value) spelling = (find? value spelling).map (wrap policy) :=
    View.find?_wrap fun name hname => h spelling hmem name (hstored hname)
  rw [hview]
  cases hchild : find? value spelling with
  | none => exact .none
  | some child => exact .some (viewing_of_find? hstored hchild)

/-- A field that must be there is found on both sides by a view that prefers the exact spelling.
Else the value has none, or the view has two of them, under different spellings. -/
theorem binds_viewing_preferExact {right : Prop} (habsent : field.absent? = none)
    (hright : 2 ≤ field.spellings.length → right) :
    (viewing (σ := σ) .preferExact stored).Binds True right field := by
  rintro value _ ⟨rfl, hstored⟩
  have hextends : ∀ spelling child, find? value spelling = some child →
      ∃ view, find? (wrap .preferExact value) spelling = some view ∧
        (viewing .preferExact stored).rel child view := by
    intro spelling child hchild
    exact ⟨_, View.find?_wrap_preferExact hchild, viewing_of_find? hstored hchild⟩
  rcases forall₂_filterMap_or_length_lt hextends field.spellings with hfound | hmore
  · exact Or.inl hfound
  · -- The view finds more.  If the value shows nothing it lacks the field, else the view has two.
    right
    cases hnone : field.foundIn value with
    | nil => exact Or.inl ⟨trivial, Or.inl ⟨hnone, habsent⟩⟩
    | cons child others =>
      have htwice : 2 ≤ (field.foundIn (wrap .preferExact value)).length := by
        have hlength : (field.foundIn value).length = others.length + 1 := by
          rw [hnone, List.length_cons]
        change (field.foundIn value).length < (field.foundIn _).length at hmore
        omega
      have hle : (field.foundIn (wrap .preferExact value)).length ≤ field.spellings.length :=
        List.length_filterMap_le ..
      exact Or.inr ⟨hright (Nat.le_trans htwice hle), Or.inr htwice⟩

end Simulation

/-! ## Decoding -/

namespace Shape

variable {σ : Type} [DecidableEq σ] {shape : Shape} {value : Value σ}

theorem decode_wrap_of_matchesExactly (policy : Policy)
    (hshape : shape.Everywhere fun part => ∀ field ∈ part.boundFields,
      field.MatchesExactly value.allNames) :
    shape.decode (wrap policy value) = shape.decode value := by
  have hagree : (Simulation.viewing (σ := σ) policy value.allNames).Decodes False False shape := by
    refine Simulation.decode_agree (hshape.imp fun part hpart => ⟨fun _ => ?_, ?_⟩)
    · exact Simulation.keepsNames_viewing
    · intro field hmem
      exact Simulation.binds_viewing (hpart field hmem)
  exact (hagree value _ ⟨rfl, List.Subset.refl _⟩).eq.symm

/-- A view is decoded as the value is, to the same data or with the same failure, where no name that
occurs in the value differs from a spelling of a declared field by case alone.  Where no field is
declared at all, the view of every value is. -/
theorem decode_wrap (policy : Policy) (shape : Shape) (value : Value σ) :
    ((shape.Everywhere fun part => ∀ field ∈ part.boundFields,
        field.MatchesExactly value.allNames) →
      shape.decode (wrap policy value) = shape.decode value) ∧
    ((shape.Everywhere fun part => part.boundFields = []) →
      shape.decode (wrap policy value) = shape.decode value) := by
  refine ⟨decode_wrap_of_matchesExactly policy, fun hnone => ?_⟩
  refine decode_wrap_of_matchesExactly policy (hnone.imp fun part hpart field hmem => ?_)
  rw [hpart] at hmem
  contradiction

/-- Keys that differ by case alone stay apart, and so do the same keys of a map of any values. -/
theorem decode_wrap_map :
    let strictMap : Shape := .map .string strict
    let freeMap : Shape := .map .string .value
    let row (x : Int64) : Value := .struct () [("x", .scalar (.int x))]
    let value : Value := .struct () [("A", row 1), ("a", row 2)]
    (strictMap.Everywhere fun part => ∀ field ∈ part.boundFields,
      field.MatchesExactly value.allNames) ∧
    strictMap.decode (wrap .firstWins value) = strictMap.decode value ∧
    (freeMap.Everywhere fun part => part.boundFields = []) ∧
    freeMap.decode (wrap .firstWins value) = freeMap.decode value := by
  intro strictMap freeMap row value
  have hstrict : strict.Everywhere fun part => ∀ field ∈ part.boundFields,
      field.MatchesExactly value.allNames := by
    refine .intro (by decide) fun part hmem => ?_
    rw [List.mem_singleton.mp hmem]
    exact .of_parts_eq_nil (by decide) rfl
  have hmap : strictMap.Everywhere fun part => ∀ field ∈ part.boundFields,
      field.MatchesExactly value.allNames := by
    refine .intro (by decide) fun part hmem => ?_
    rw [List.mem_singleton.mp hmem]
    exact hstrict
  have hfree : freeMap.Everywhere fun part => part.boundFields = [] := by
    refine .intro rfl fun part hmem => ?_
    rw [List.mem_singleton.mp hmem]
    exact .of_parts_eq_nil rfl rfl
  exact ⟨hmap, (decode_wrap .firstWins strictMap value).1 hmap, hfree,
    (decode_wrap .firstWins freeMap value).2 hfree⟩

theorem agree_decode_preferExact {right : Prop}
    (hshape : shape.Everywhere fun part => ∀ field ∈ part.boundFields,
      field.absent? = none ∧ (2 ≤ field.spellings.length → right)) :
    Agree True right Eq (shape.decode value) (shape.decode (wrap .preferExact value)) := by
  have hagree : (Simulation.viewing (σ := σ) .preferExact value.allNames).Decodes True right shape := by
    refine Simulation.decode_agree (hshape.imp fun part hpart => ⟨fun _ => ?_, ?_⟩)
    · exact Simulation.keepsNames_viewing
    · intro field hmem
      exact Simulation.binds_viewing_preferExact (hpart field hmem).1 (hpart field hmem).2
  exact hagree value _ ⟨rfl, List.Subset.refl _⟩

/-- If no declared field may be absent, what a value is decoded to by the spelling of names is all
that its view can be decoded to when it prefers the exact spelling; and the view is decoded to it,
if no declared field has more than one spelling. -/
theorem decode_preferExact
    (hshape : shape.Everywhere fun part => ∀ field ∈ part.boundFields, field.absent? = none)
    {datum : Data} (h : shape.decode value = .ok datum) :
    (∀ other, shape.decode (wrap .preferExact value) = .ok other → other = datum) ∧
    ((shape.Everywhere fun part => ∀ field ∈ part.boundFields, field.spellings.length ≤ 1) →
      shape.decode (wrap .preferExact value) = .ok datum) := by
  constructor
  · intro other hother
    have hagree : Agree True True Eq (shape.decode value)
        (shape.decode (wrap .preferExact value)) :=
      agree_decode_preferExact (hshape.imp fun _ hpart field hmem =>
        ⟨hpart field hmem, fun _ => trivial⟩)
    rw [h, hother] at hagree
    exact hagree.result_eq.symm
  · intro hsingle
    have hagree : Agree True False Eq (shape.decode value)
        (shape.decode (wrap .preferExact value)) := by
      refine agree_decode_preferExact ((hshape.and hsingle).imp fun _ hpart field hmem => ?_)
      refine ⟨hpart.1 field hmem, fun htwo => ?_⟩
      have hone := hpart.2 field hmem
      omega
    rw [h] at hagree
    exact hagree.eq_ok

/-- An order beside fields of other spellings, among them the first one. -/
theorem decode_preferExact_order :
    let value : Value := .struct () [("SKU", .null), ("sku", .scalar (.string "a")),
      ("qty", .scalar (.int 2)), ("Qty", .scalar (.int 3))]
    let datum : Data := .struct [("sku", .str "a"), ("qty", .int .u16 2)]
    (order.Everywhere fun part => ∀ field ∈ part.boundFields, field.absent? = none) ∧
    (order.Everywhere fun part => ∀ field ∈ part.boundFields, field.spellings.length ≤ 1) ∧
    order.decode value = .ok datum ∧ order.decode (wrap .preferExact value) = .ok datum := by
  intro value datum
  have habsent : order.Everywhere fun part =>
      ∀ field ∈ part.boundFields, field.absent? = none := by
    refine .intro ?_ fun part hmem => ?_
    · intro field hfield
      rcases List.mem_pair.mp hfield with rfl | rfl <;> rfl
    · rcases List.mem_pair.mp hmem with rfl | rfl <;> exact .of_parts_eq_nil nofun rfl
  have hsingle : order.Everywhere fun part =>
      ∀ field ∈ part.boundFields, field.spellings.length ≤ 1 := by
    refine .intro (by decide) fun part hmem => ?_
    rcases List.mem_pair.mp hmem with rfl | rfl <;> exact .of_parts_eq_nil nofun rfl
  have hdatum : order.decode value = .ok datum := rfl
  exact ⟨habsent, hsingle, hdatum, (decode_preferExact habsent hdatum).2 hsingle⟩

/-- An optional field is absent from a value that has it in another spelling, but not from the view. -/
example :
    let shape : Shape := .record [.required "note" (.option string)]
    let value : Value := .struct () [("Note", .scalar (.string "a"))]
    shape.decode value = .ok (.struct [("note", .none)]) ∧
    shape.decode (wrap .preferExact value) = .ok (.struct [("note", .some (.str "a"))]) :=
  ⟨rfl, rfl⟩

/-- With several spellings a view may find one field under two of them, and then refuses what the
value itself is decoded to. -/
theorem decode_aliased_refused :
    let value : Value := .struct () [("id", .scalar (.int 5))]
    (aliased.Everywhere fun part => ∀ field ∈ part.boundFields, field.absent? = none) ∧
    aliased.decode value = .ok (.struct [("id", .int .i64 5)]) ∧
    aliased.decode (wrap .preferExact value) = .error (.duplicateField "id") := by
  intro value
  refine ⟨.intro ?_ fun part hmem => ?_, rfl, rfl⟩
  · intro field hfield
    rw [List.mem_singleton.mp hfield]
    rfl
  · rw [List.mem_singleton.mp hmem]
    exact .of_parts_eq_nil nofun rfl

end Shape
end Caseless
