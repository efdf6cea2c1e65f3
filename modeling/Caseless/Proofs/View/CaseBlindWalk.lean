import Caseless.Proofs.View.Recasing
import Caseless.Proofs.View.Standing

/-!
# Walks do not see case

A view that resolves names to their first matches is walked along a path whose names may be written
in any case, through a value whose names may be stored in any case.  Where two values have the same
shape and their names match ignoring case, and so do the names of two paths, the walks stop after
the same number of keys, for the same reason, and at the same address.

Main results:

- Definitions `Value.SameShape` and `Key.SameIgnoringCase`: which values and keys are compared;
- Theorems `View.get_agree` and `View.index?_eq`: a key leads to the same child in both values;
- Theorem `NameIndex.not_mem_lookupAll_of_differ`: what differs outside ASCII never matches;
- Theorem `Path.walk_caseBlind`: whole walks.
-/

namespace Caseless

open Name

/-- Two values have the same shape, and the names at each position match ignoring case.  What their
scalars hold, which kind of sequence a sequence is, and how names are spelled may differ. -/
inductive Value.SameShape {σ τ : Type} : Value σ → Value τ → Prop where
  | scalar (payload payload' : Scalar) : SameShape (.scalar payload) (.scalar payload')
  | seq (kind kind' : SeqKind) {elements : List (Value σ)} {others : List (Value τ)}
    (helements : List.Forall₂ SameShape elements others) :
    SameShape (.seq kind elements) (.seq kind' others)
  | struct (stamp : σ) (stamp' : τ) {fields : Fields (Value σ)} {others : Fields (Value τ)}
    (hnames : List.Forall₂ (fun name other => eqIgnoreCase name other = true) fields.names
      others.names)
    (hvalues : List.Forall₂ SameShape (fields.map (·.2)) (others.map (·.2))) :
    SameShape (.struct stamp fields) (.struct stamp' others)

/-- Two keys are the same position, or names that match ignoring case. -/
inductive Key.SameIgnoringCase : Key → Key → Prop where
  | name {text text' : String} (h : eqIgnoreCase text text' = true) :
    SameIgnoringCase (.name text) (.name text')
  | position (index : Nat) : SameIgnoringCase (.position index) (.position index)

variable {σ τ : Type}

/-! ## One key -/

namespace Elements

/-- Sequences of related elements answer a position alike: with related elements, or with the same
failure. -/
theorem get_agree {α β : Type} {rel : α → β → Prop} {elements : Elements α} {others : Elements β}
    (h : List.Forall₂ rel elements others) (index : Nat) :
    Agree False False rel (elements.get index) (others.get index) := by
  have hlength : elements.length = others.length := h.length_eq
  have hchild := rel_getElem? h index
  unfold get
  rw [hlength]
  generalize elements[index]? = child?, others[index]? = other? at hchild
  cases hchild with
  | none => exact .error _
  | some hchild => exact .ok hchild

end Elements

namespace View

/-- The views, resolving names to their first matches, of values of the same shape. -/
inductive SameShape : View σ → View τ → Prop where
  | wrap {value : Value σ} {other : Value τ} (h : value.SameShape other) :
    SameShape (wrap .firstWins value) (wrap .firstWins other)

variable [DecidableEq σ] [DecidableEq τ] {view : View σ} {other : View τ} {key key' : Key}

/-- Keys that are the same ignoring case lead to views of values of the same shape, or both lead
nowhere, or both fail alike. -/
theorem get_agree (h : view.SameShape other) (hkey : key.SameIgnoringCase key') :
    Agree False False (Option.Rel SameShape) (view.get key) (other.get key') := by
  rcases h with ⟨hvalue⟩
  cases hvalue with
  | scalar payload payload' => exact .ok .none
  | @seq kind kind' elements others helements =>
    cases hkey with
    | name hname => exact .ok .none
    | position index =>
      have hget := Elements.get_agree helements index
      have hwrapped : Agree False False SameShape
          ((Elements.get elements index).map (wrap .firstWins))
          ((Elements.get others index).map (wrap .firstWins)) :=
        hget.map fun _ _ hchild => SameShape.wrap hchild
      exact hwrapped.map fun _ _ hchild => .some hchild
  | @struct stamp stamp' fields others hnames hvalues =>
    cases hkey with
    | position index => exact .ok .none
    | @name query query' hquery =>
      refine .ok ?_
      have hfields := (Fields.forall₂_iff _ _).mpr ⟨hnames, hvalues⟩
      rw [StructView.get?_new, StructView.get?_new, scan_firstWins_recased hquery hnames]
      cases scan .firstWins others.names query' with
      | none => exact .none
      | some index =>
        have hfield := rel_getElem? hfields index
        simp only [Option.bind_some]
        generalize fields[index]? = field?, others[index]? = other? at hfield
        cases hfield with
        | none => exact .none
        | some hfield => exact .some (.wrap hfield.2)

/-- Keys that are the same ignoring case lead to children of the same index. -/
theorem index?_eq (h : view.SameShape other) (hkey : key.SameIgnoringCase key') :
    view.index? key = other.index? key' := by
  rcases h with ⟨hvalue⟩
  cases hvalue with
  | scalar payload payload' => rfl
  | seq kind kind' helements => cases hkey <;> rfl
  | @struct stamp stamp' fields others hnames hvalues =>
    cases hkey with
    | position index => rfl
    | @name query query' hquery =>
      change (StructView.new ⟨stamp, fields⟩ .firstWins).position? query =
        (StructView.new ⟨stamp', others⟩ .firstWins).position? query'
      rw [StructView.position?_new, StructView.position?_new]
      exact scan_firstWins_recased hquery hnames

end View

namespace Standing

variable [DecidableEq σ] [DecidableEq τ]

/-- Two standings have the same address, and show values of the same shape. -/
structure Same (standing : Standing σ) (other : Standing τ) : Prop where
  position_eq : standing.position = other.position
  sameShape : standing.view.SameShape other.view

/-- Keys that are the same ignoring case lead from one address to one address. -/
theorem enter_agree {standing : Standing σ} {other : Standing τ} (h : standing.Same other)
    {key key' : Key} (hkey : key.SameIgnoringCase key') :
    Agree False False (Option.Rel Same) (standing.enter key) (other.enter key') := by
  have hindex := View.index?_eq h.sameShape hkey
  have hget := View.get_agree h.sameShape hkey
  unfold enter
  rw [hindex, h.position_eq]
  refine hget.map ?_
  intro child? child?' hchild
  cases hchild with
  | none => exact .none
  | some hchild =>
    cases other.view.index? key' with
    | none => exact .none
    | some index => exact .some ⟨rfl, hchild⟩

/-- Walks along paths that are the same ignoring case end alike, and at the same address. -/
theorem walk_alike {value : Value σ} {other : Value τ} (h : value.SameShape other)
    {path path' : List Key} (hpath : List.Forall₂ Key.SameIgnoringCase path path') :
    (walk .firstWins value path).Alike Same (walk .firstWins other path') := by
  have hroot : Same ⟨[], wrap .firstWins value⟩ ⟨[], wrap .firstWins other⟩ := ⟨rfl, .wrap h⟩
  refine Path.follow_alike ?_ hpath hroot
  intro standing other' key key' hstanding hkey
  exact enter_agree hstanding hkey

end Standing

/-- A name never matches one that differs from it outside ASCII. -/
theorem NameIndex.not_mem_lookupAll_of_differ [DecidableEq σ] {α : Type} (policy : Policy)
    {record : Record σ α} {query name : String} {position : Nat}
    (hname : record.names[position]? = some name) (hdiffer : DifferOutsideAscii query name) :
    position ∉ (new policy).lookupAll record query := by
  have htrue : (NameIndex.new policy).TrueOf record := trueOf_of_built_eq_none _ rfl
  intro hmem
  rw [htrue.lookupAll_eq_matching] at hmem
  obtain ⟨stored, hstored, hmatches⟩ := mem_matching.mp hmem
  have hsame : stored = name := by
    rw [hname] at hstored
    exact (Option.some.inj hstored).symm
  rw [hsame] at hmatches
  exact not_differOutsideAscii hmatches hdiffer

/-! ## Whole walks -/

namespace Path

variable [DecidableEq σ] [DecidableEq τ]

/-- Through values of the same shape whose names match ignoring case, walks along paths whose names
match ignoring case end after the same number of keys, found, absent or with the same failure, and
where they have found a node its address is the same.  Names that differ outside ASCII never
match. -/
theorem walk_caseBlind {value : Value σ} {other : Value τ} (h : value.SameShape other)
    {path path' : List Key} (hpath : List.Forall₂ Key.SameIgnoringCase path path') :
    (Standing.walk .firstWins value path).map Standing.position =
        (Standing.walk .firstWins other path').map Standing.position ∧
      Standing.Tracks .firstWins value path ∧ Standing.Tracks .firstWins other path' ∧
      ∀ (record : Record σ (Value σ)) (query name : String) (position : Nat),
        record.names[position]? = some name → DifferOutsideAscii query name →
          position ∉ (NameIndex.new .firstWins).lookupAll record query ∧
            (StructView.new record .firstWins).position? query ≠ some position := by
  have halike := Standing.walk_alike h hpath
  refine ⟨?_, Standing.tracks _ value path, Standing.tracks _ other path', ?_⟩
  · exact halike.map_eq fun standing other' hsame => hsame.position_eq
  · intro record query name position hname hdiffer
    have hnot := NameIndex.not_mem_lookupAll_of_differ .firstWins hname hdiffer
    refine ⟨hnot, ?_⟩
    intro hposition
    rw [StructView.position?_new] at hposition
    have htrue : (NameIndex.new .firstWins).TrueOf record :=
      NameIndex.trueOf_of_built_eq_none _ rfl
    rw [htrue.lookupAll_eq_matching] at hnot
    exact hnot (mem_matching_of_scan hposition)

/-- Rows with two fields of one name, stored in two casings and asked for in two: either walk takes
the first of them. -/
theorem walk_caseBlind_rows :
    let value : Value := .struct () [("Rows", .seq .list
      [.struct () [("id", .scalar (.int 1)), ("ID", .scalar (.int 2))]])]
    let other : Value := .struct () [("ROWS", .seq .sexp
      [.struct () [("Id", .scalar (.bool true)), ("iD", .null)]])]
    let path := [Key.name "rows", Key.position 0, Key.name "ID"]
    let path' := [Key.name "rOWs", Key.position 0, Key.name "id"]
    value.SameShape other ∧ List.Forall₂ Key.SameIgnoringCase path path' ∧
      (Standing.walk .firstWins value path).map Standing.position =
        (Standing.walk .firstWins other path').map Standing.position ∧
      Standing.walk .firstWins other path' = .found ⟨[0, 0, 0], .scalar (.bool true)⟩ := by
  intro value other path path'
  have hrow : (Value.struct () [("id", .scalar (.int 1)), ("ID", .scalar (.int 2))]).SameShape
      (Value.struct () [("Id", .scalar (.bool true)), ("iD", .null)]) := by
    refine .struct () () ?_ ?_
    · exact .cons (by decide) (.cons (by decide) .nil)
    · exact .cons (.scalar _ _) (.cons (.scalar _ _) .nil)
  have hshape : value.SameShape other := by
    refine .struct () () (.cons (by decide) .nil) (.cons ?_ .nil)
    exact .seq .list .sexp (.cons hrow .nil)
  have hpath : List.Forall₂ Key.SameIgnoringCase path path' :=
    .cons (.name (by decide)) (.cons (.position 0) (.cons (.name (by decide)) .nil))
  have hwalk := walk_caseBlind hshape hpath
  exact ⟨hshape, hpath, hwalk.1, rfl⟩

end Path
end Caseless
