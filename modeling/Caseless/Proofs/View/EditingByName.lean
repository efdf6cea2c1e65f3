import Caseless.Proofs.Container.Multimap
import Caseless.Proofs.View.Recasing
import Caseless.Proofs.View.Run
import Mathlib.Data.Finset.Card

/-!
# Editing what a name resolves to

A struct is edited by the exact spelling of names, and a query resolves ignoring case.  To edit the
field that a query finds, its name is resolved first and the edit is made under that spelling.  What
is found is always the first field of its spelling, so the edit takes the value that was found; but
fields of other spellings that match the query stay, and the next lookup may find them.

Main definitions:

- `Name.spellings`: the different names that match a query;
- `StructState.removingResolved`: the state after what a query resolves to was removed;
- `StructState.EditsByName`: what edits under resolved names do.

Main results:

- Theorem `Name.findIdx?_eq_of_scan`: what is selected is the first name of its spelling;
- Theorem `StructState.resolve?_iterate`: how often a query has to be resolved and removed;
- Theorem `StructState.editsByName`: this is what edits do at every point of every run.
-/

namespace Caseless

open Name

/-! ## Names -/

namespace Name

/-- The different names that match a query. -/
def spellings (names : List String) (query : String) : Finset String :=
  (names.filter (eqIgnoreCase query)).toFinset

theorem mem_spellings {names : List String} {query name : String} :
    name ∈ spellings names query ↔ name ∈ names ∧ eqIgnoreCase query name = true := by
  simp [spellings]

/-- Without a name, its spelling is gone and the others are left. -/
theorem spellings_filter_ne (names : List String) (query name : String) :
    spellings (names.filter (· ≠ name)) query = (spellings names query).erase name := by
  ext other
  simp only [Finset.mem_erase, mem_spellings, List.mem_filter, decide_eq_true_eq]
  tauto

/-- A scan selects nothing exactly when no name matches. -/
theorem scan_eq_none_iff (policy : Policy) {names : List String} {query : String} :
    scan policy names query = none ↔ ∀ name ∈ names, eqIgnoreCase query name = false := by
  have hsome := isSome_scan policy names query
  rw [← Option.not_isSome_iff_eq_none, hsome, Bool.not_eq_true, Bool.not_eq_false',
    List.isEmpty_iff, ← List.head?_eq_none_iff, head?_matching, List.findIdx?_eq_none_iff]

/-- What a scan selects is the first name of its spelling. -/
theorem findIdx?_eq_of_scan {policy : Policy} {names : List String} {query name : String}
    {position : Nat} (hscan : scan policy names query = some position)
    (hname : names[position]? = some name) : names.findIdx? (· == name) = some position := by
  have hfirst : names.findIdx? (eqIgnoreCase query) = some position →
      names.findIdx? (· == name) = some position := by
    intro hmatch
    rw [List.findIdx?_eq_some_iff_getElem] at hmatch ⊢
    obtain ⟨hlt, hmatches, hbefore⟩ := hmatch
    obtain rfl : names[position] = name := (List.getElem?_eq_some_iff.mp hname).2
    refine ⟨hlt, beq_self_eq_true _, ?_⟩
    intro earlier hearlier hsame
    rw [beq_iff_eq] at hsame
    exact hbefore earlier hearlier (hsame ▸ hmatches)
  cases policy with
  | firstWins => exact hfirst (head?_matching names query ▸ hscan)
  | preferExact =>
    rw [scan, Option.or_eq_some_iff] at hscan
    rcases hscan with hspelled | ⟨-, hmatch⟩
    · obtain ⟨hlt, hquery, -⟩ := List.findIdx?_eq_some_iff_getElem.mp hspelled
      obtain rfl : names[position] = name := (List.getElem?_eq_some_iff.mp hname).2
      rwa [← beq_iff_eq.mp hquery] at hspelled
    · exact hfirst (head?_matching names query ▸ hmatch)

/-- A condition is first met at the end of a list exactly when it is met there and not before. -/
theorem findIdx?_append_singleton_eq_iff {α : Type} (p : α → Bool) (front : List α) (last : α) :
    (front ++ [last]).findIdx? p = some front.length ↔
      p last = true ∧ ∀ a ∈ front, p a = false := by
  rw [List.findIdx?_append]
  cases hfront : front.findIdx? p with
  | none =>
    rw [List.findIdx?_eq_none_iff] at hfront
    have hbefore : ∀ a ∈ front, p a = false := hfront
    cases hlast : p last
    · simp [List.findIdx?_cons, hlast]
    · simpa [List.findIdx?_cons, hlast] using hbefore
  | some position =>
    obtain ⟨hlt, hp, -⟩ := List.findIdx?_eq_some_iff_getElem.mp hfront
    constructor
    · intro heq
      have : position = front.length := by simpa using heq
      omega
    · rintro ⟨-, hnone⟩
      have hfalse := hnone front[position] (List.getElem_mem hlt)
      rw [hp] at hfalse
      contradiction

/-- A name that is added at the end is selected exactly when no name matches before it, or it is
spelled like the query, no name before is, and that counts. -/
theorem scan_append_singleton_eq_iff {policy : Policy} {front : List String} {query last : String}
    (hlast : eqIgnoreCase query last = true) :
    scan policy (front ++ [last]) query = some front.length ↔
      (∀ name ∈ front, eqIgnoreCase query name = false) ∨
        policy = .preferExact ∧ last = query ∧ query ∉ front := by
  have hmatch := findIdx?_append_singleton_eq_iff (eqIgnoreCase query) front last
  cases policy with
  | firstWins =>
    rw [scan, head?_matching, hmatch]
    simp [hlast]
  | preferExact =>
    have hspelled := findIdx?_append_singleton_eq_iff (· == query) front last
    rw [scan, head?_matching, Option.or_eq_some_iff]
    constructor
    · rintro (hfound | ⟨-, hfound⟩)
      · obtain ⟨hsame, hnone⟩ := hspelled.mp hfound
        refine .inr ⟨rfl, beq_iff_eq.mp hsame, ?_⟩
        intro hmem
        simpa using hnone query hmem
      · exact .inl (hmatch.mp hfound).2
    · rintro (hnone | ⟨-, rfl, hnot⟩)
      · have hunspelled : ∀ name ∈ front, (name == query) = false := by
          intro name hmem
          rw [beq_eq_false_iff_ne]
          rintro rfl
          simpa using hnone name hmem
        by_cases hsame : last = query
        · exact .inl (hspelled.mpr ⟨beq_iff_eq.mpr hsame, hunspelled⟩)
        · refine .inr ⟨?_, hmatch.mpr ⟨hlast, hnone⟩⟩
          rw [List.findIdx?_eq_none_iff]
          intro name hmem
          rcases List.mem_append.mp hmem with hmem | hmem
          · exact hunspelled name hmem
          · rw [List.mem_singleton.mp hmem]
            exact beq_eq_false_iff_ne.mpr hsame
      · refine .inl (hspelled.mpr ⟨beq_self_eq_true last, ?_⟩)
        intro name hmem
        rw [beq_eq_false_iff_ne]
        rintro rfl
        exact hnot hmem

end Name

/-! ## Fields -/

theorem Fields.names_filter {α : Type} (p : String → Bool) (fields : Fields α) :
    names (fields.filter fun field => p field.1) = fields.names.filter p := by
  rw [names, names, List.filter_map]
  rfl

namespace StructView

variable {view : StructView Stamp}

/-! ## Views -/

/-- Taking out a name through a view: what is handed back, what is left, and that no table is. -/
theorem remove_spec (view : StructView Stamp) (name : String) (clock : Clock) :
    (view.remove name clock).1 = view.record.fields.get? name ∧
      (view.remove name clock).2.1.record.fields = view.record.fields.filter (·.1 ≠ name) ∧
      (view.remove name clock).2.1.index = view.index.invalidate := by
  obtain ⟨hremoved, hleft⟩ := view.record.remove_spec clock name
  exact ⟨hremoved, hleft, rfl⟩

/-- Putting a name through a view: what is handed back, what is there, and that no table is. -/
theorem put_spec (view : StructView Stamp) (name : String) (new : Value Stamp) (clock : Clock) :
    (view.put name new clock).1 = view.record.fields.get? name ∧
      (view.put name new clock).2.1.record.fields =
        view.record.fields.filter (·.1 ≠ name) ++ [(name, new)] ∧
      (view.put name new clock).2.1.index = view.index.invalidate := by
  obtain ⟨hremoved, hfields⟩ := view.record.put_spec clock name new
  exact ⟨hremoved, hfields, rfl⟩

/-- A name resolves to nothing exactly when no name of the struct matches it. -/
theorem Sound.resolve?_eq_none_iff (h : view.Sound) (query : String) :
    view.resolve? query = none ↔ ∀ name ∈ view.names, eqIgnoreCase query name = false := by
  rw [← scan_eq_none_iff view.policy, ← position?_eq_scan h.trueOf,
    ← Option.not_isSome_iff_eq_none, (answersAsScan_of_trueOf h.trueOf query).resolve?_isSome,
    contains, Option.not_isSome_iff_eq_none]

/-- The name that a query resolves to leads by its spelling to the field that the query finds. -/
theorem Sound.get?_of_resolve? (h : view.Sound) {query name : String}
    (hname : view.resolve? query = some name) :
    ∃ value, view.get? query = some (wrap view.policy value) ∧
      view.record.fields.get? name = some value := by
  have hposition := position?_eq_scan h.trueOf query
  rw [resolve?, Option.bind_eq_some_iff] at hname
  obtain ⟨position, hfound, hspelled⟩ := hname
  obtain ⟨field, hfield, rfl⟩ := Option.map_eq_some_iff.mp hspelled
  have hat : view.names[position]? = some field.1 := by
    rw [names, Record.names, Fields.names, List.getElem?_map, hfield]
    rfl
  refine ⟨field.2, ?_, ?_⟩
  · rw [get?, hfound, Option.bind_some, hfield]
    rfl
  · have hfirst := findIdx?_eq_of_scan (hposition ▸ hfound) hat
    rw [Fields.get?_eq_findIdx?]
    change (view.names.findIdx? _).bind _ = _
    rw [hfirst, Option.bind_some, hfield]
    rfl

/-- What a name resolves to matches it. -/
theorem Sound.eqIgnoreCase_of_resolve? (h : view.Sound) {query name : String}
    (hname : view.resolve? query = some name) :
    name ∈ view.names ∧ eqIgnoreCase query name = true := by
  rw [(answersAsScan_of_trueOf h.trueOf query).resolve?_eq, Option.bind_eq_some_iff] at hname
  obtain ⟨position, hscan, hat⟩ := hname
  obtain ⟨other, hother, hmatch⟩ := mem_matching.mp (mem_matching_of_scan hscan)
  obtain rfl : name = other := Option.some.inj (hat.symm.trans hother)
  exact ⟨List.mem_of_getElem? hat, hmatch⟩

/-- After a name that a query resolves to was put, the query leads to what was put exactly when no
other name matched it, or when it is spelled like the name and that counts. -/
theorem Sound.position?_put_iff (h : view.Sound) {query name : String}
    (hname : view.resolve? query = some name) (new : Value Stamp) (clock : Clock) :
    (view.put name new clock).2.1.position? query =
        some ((view.put name new clock).2.1.size - 1) ↔
      (∀ other ∈ view.names, eqIgnoreCase query other = true → other = name) ∨
        view.policy = .preferExact ∧ name = query := by
  obtain ⟨-, hfields, hindex⟩ := view.put_spec name new clock
  obtain ⟨-, hmatch⟩ := h.eqIgnoreCase_of_resolve? hname
  generalize (view.put name new clock).2.1 = after at hfields hindex
  have hsound : after.Sound := sound_of_built_eq_none (by rw [hindex]; rfl)
  have hpolicy : after.policy = view.policy := by rw [policy, hindex]; rfl
  have hnames : after.names = view.names.filter (· ≠ name) ++ [name] := by
    rw [names, Record.names, hfields, Fields.names, List.map_append, ← Fields.names,
      Fields.names_filter (· ≠ name)]
    rfl
  have hsize : after.size - 1 = (view.names.filter (· ≠ name)).length := by
    have hlength : after.size = after.names.length := (List.length_map ..).symm
    rw [hlength, hnames, List.length_append]
    rfl
  rw [position?_eq_scan hsound.trueOf, hpolicy, hnames, hsize, scan_append_singleton_eq_iff hmatch]
  refine or_congr ?_ (and_congr_right fun _ => ?_)
  · constructor
    · intro hnone other hmem hother
      by_contra hne
      have hkept : other ∈ view.names.filter (· ≠ name) := by simp [hmem, hne]
      exact Bool.false_ne_true ((hnone other hkept).symm.trans hother)
    · intro honly other hkept
      obtain ⟨hmem, hne⟩ := List.mem_filter.mp hkept
      rw [← Bool.not_eq_true]
      exact fun hother => (of_decide_eq_true hne) (honly other hmem hother)
  · constructor
    · exact And.left
    · rintro rfl
      exact ⟨rfl, by simp⟩

/-- After a name that resolves to nothing was added, it leads to what was added, in any casing. -/
theorem Sound.position?_add (h : view.Sound) {query query' : String}
    (hnone : view.resolve? query = none) (hquery : eqIgnoreCase query query' = true)
    (new : Value Stamp) (clock : Clock) :
    (view.add query new clock).1.position? query' = some view.size := by
  have hsound : (view.add query new clock).1.Sound := sound_of_built_eq_none rfl
  have hnames : (view.add query new clock).1.names = view.names ++ [query] :=
    Fields.names_add view.record.fields query new
  have hsize : view.size = view.names.length := (List.length_map ..).symm
  have hlast : eqIgnoreCase query' query = true := by
    rw [eqIgnoreCase_iff] at hquery ⊢
    exact hquery.symm
  rw [position?_eq_scan hsound.trueOf, hnames, hsize, scan_append_singleton_eq_iff hlast]
  left
  intro name hmem
  rw [← eqIgnoreCase_congr hquery (eqIgnoreCase_self name)]
  exact (h.resolve?_eq_none_iff query).mp hnone name hmem

end StructView

/-! ## Rounds of resolving and removing -/

namespace StructState

/-- The state after what a query resolves to was removed, and the same state if that is nothing. -/
def removingResolved (query : String) (state : StructState) : StructState :=
  ((StructCommand.removeResolved query).step state).2.2

theorem removingResolved_of_resolve? {query name : String} {state : StructState}
    (h : state.view.resolve? query = some name) :
    (removingResolved query state).view = (state.view.remove name state.clock).2.1 := by
  simp only [removingResolved, StructCommand.step, h]
  rfl

/-- One round takes one spelling away. -/
theorem spellings_removingResolved {query name : String} {state : StructState}
    (h : state.view.resolve? query = some name) :
    spellings (removingResolved query state).view.names query =
      (spellings state.view.names query).erase name := by
  obtain ⟨-, hfields, -⟩ := state.view.remove_spec name state.clock
  rw [removingResolved_of_resolve? h, StructView.names, Record.names, hfields,
    Fields.names_filter (· ≠ name), spellings_filter_ne]
  rfl

/-- What a query resolves to can be removed exactly as often as there are different names that match
it.  What is left are the fields that do not match, in their order. -/
theorem resolve?_iterate {state : StructState} (h : state.view.Sound) (query : String) {count : Nat}
    (hcount : (spellings state.view.names query).card = count) :
    (∀ round < count, (((removingResolved query)^[round] state).view.resolve? query) ≠ none) ∧
      ((removingResolved query)^[count] state).view.record.fields =
        state.view.record.fields.filter (fun field => !eqIgnoreCase query field.1) ∧
      ((removingResolved query)^[count] state).view.resolve? query = none := by
  induction count generalizing state with
  | zero =>
    have hnone : ∀ name ∈ state.view.names, eqIgnoreCase query name = false := by
      intro name hmem
      rw [← Bool.not_eq_true]
      intro hmatch
      have hspelled : name ∈ spellings state.view.names query := mem_spellings.mpr ⟨hmem, hmatch⟩
      rw [Finset.card_eq_zero.mp hcount] at hspelled
      contradiction
    refine ⟨nofun, ?_, (h.resolve?_eq_none_iff query).mpr hnone⟩
    refine (List.filter_eq_self.mpr ?_).symm
    intro field hmem
    simpa using hnone field.1 (List.mem_map_of_mem hmem)
  | succ count ih =>
    cases hname : state.view.resolve? query with
    | none =>
      have hnone := (h.resolve?_eq_none_iff query).mp hname
      have hpos : 0 < (spellings state.view.names query).card := by omega
      obtain ⟨name, hspelled⟩ := Finset.card_pos.mp hpos
      obtain ⟨hmem, hmatch⟩ := mem_spellings.mp hspelled
      exact absurd hmatch (by simp [hnone name hmem])
    | some name =>
      obtain ⟨hmem, hmatch⟩ := h.eqIgnoreCase_of_resolve? hname
      obtain ⟨-, hfields, hindex⟩ := state.view.remove_spec name state.clock
      rw [← removingResolved_of_resolve? hname] at hfields hindex
      have hsound : (removingResolved query state).view.Sound :=
        StructView.sound_of_built_eq_none (by rw [hindex]; rfl)
      have hless : (spellings (removingResolved query state).view.names query).card = count := by
        rw [spellings_removingResolved hname,
          Finset.card_erase_of_mem (mem_spellings.mpr ⟨hmem, hmatch⟩), hcount]
        rfl
      obtain ⟨hrounds, hleft, hend⟩ := ih hsound hless
      refine ⟨?_, ?_, hend⟩
      · intro round hround
        cases round with
        | zero => simp [hname]
        | succ round => exact hrounds round (Nat.lt_of_succ_lt_succ hround)
      · rw [Function.iterate_succ_apply, hleft, hfields, List.filter_filter]
        refine List.filter_congr ?_
        intro field _
        by_cases hsame : field.1 = name
        · simp [hsame, hmatch]
        · simp [hsame]

/-! ## Edits under resolved names -/

/-- What edits do when the name that they are made under was resolved from a query. -/
structure EditsByName (state : StructState) (query : String) : Prop where
  /-- Removing or putting the name hands back the value that the query finds. -/
  taken : ∀ name, state.view.resolve? query = some name →
    ∃ value, state.view.get? query = some (wrap state.view.policy value) ∧
      (state.view.remove name state.clock).1 = some value ∧
      ∀ new, (state.view.put name new state.clock).1 = some value
  /-- Exactly the fields with this very name are removed, and the others are left in their order. -/
  left_remove : ∀ name, (state.view.remove name state.clock).2.1.record.fields =
    state.view.record.fields.filter (·.1 ≠ name)
  /-- The same are left by putting, with the new field at the end. -/
  left_put : ∀ name new, (state.view.put name new state.clock).2.1.record.fields =
    state.view.record.fields.filter (·.1 ≠ name) ++ [(name, new)]
  /-- The query then leads to the new field exactly when no other spelling matched, or when it is
  spelled so itself and the policy prefers that. -/
  resolves_put : ∀ name new, state.view.resolve? query = some name →
    ((state.view.put name new state.clock).2.1.position? query =
        some ((state.view.put name new state.clock).2.1.size - 1) ↔
      (∀ other ∈ state.view.names, eqIgnoreCase query other = true → other = name) ∨
        state.view.policy = .preferExact ∧ name = query)
  /-- The query resolves once for every spelling that matches it, if what it resolves to is removed
  each time. -/
  rounds : ∀ round < (spellings state.view.names query).card,
    ((removingResolved query)^[round] state).view.resolve? query ≠ none
  /-- Then it resolves to nothing, and the fields that do not match it are left in their order. -/
  rounds_end :
    ((removingResolved query)^[(spellings state.view.names query).card] state).view.resolve? query =
      none
  left_rounds :
    ((removingResolved query)^[(spellings state.view.names query).card] state).view.record.fields =
      state.view.record.fields.filter fun field => !eqIgnoreCase query field.1
  /-- A query that resolves to nothing, once added, leads to what was added, in any casing. -/
  resolves_add : state.view.resolve? query = none → ∀ new query',
    eqIgnoreCase query query' = true →
      (state.view.add query new state.clock).1.record.fields =
          state.view.record.fields ++ [(query, new)] ∧
        (state.view.add query new state.clock).1.position? query' = some state.view.size ∧
        (state.view.add query new state.clock).1.resolve? query' = some query ∧
        (state.view.add query new state.clock).1.get? query' = some (wrap state.view.policy new)

theorem editsByName_of_sound {state : StructState} (h : state.view.Sound) (query : String) :
    state.EditsByName query := by
  obtain ⟨hrounds, hleft, hend⟩ := resolve?_iterate h query rfl
  refine
    { taken := ?_, left_remove := fun name => (state.view.remove_spec name state.clock).2.1,
      left_put := fun name new => (state.view.put_spec name new state.clock).2.1,
      resolves_put := fun name new hname => h.position?_put_iff hname new state.clock,
      rounds := hrounds, rounds_end := hend, left_rounds := hleft, resolves_add := ?_ }
  · intro name hname
    obtain ⟨value, hshown, hvalue⟩ := h.get?_of_resolve? hname
    refine ⟨value, hshown, ?_, ?_⟩
    · rw [(state.view.remove_spec name state.clock).1, hvalue]
    · intro new
      rw [(state.view.put_spec name new state.clock).1, hvalue]
  · intro hnone new query' hquery
    have hposition := h.position?_add hnone hquery new state.clock
    have hat : (state.view.add query new state.clock).1.record.fields[state.view.size]? =
        some (query, new) := List.getElem?_concat_length
    refine ⟨rfl, hposition, ?_, ?_⟩
    · rw [StructView.resolve?, hposition, Option.bind_some, hat]
      rfl
    · rw [StructView.get?, hposition, Option.bind_some, hat]
      rfl

/-- At every point of every run, for every query: edits under the name that it resolves to take what
it finds, and removing what it resolves to ends after one round for each spelling. -/
theorem editsByName (record : Record Stamp (Value Stamp)) (policy : Policy) (clock : Clock)
    (actions : List ViewAction) (query : String) :
    ((start record policy clock).run actions).EditsByName query := by
  have hstart : (start record policy clock).view.Sound := StructView.sound_of_built_eq_none rfl
  exact editsByName_of_sound (sound_run hstart actions) query

/-- A field that was put under the name that a query resolves to is hidden by one of another
spelling that matches the query. -/
example :
    let view := (start ⟨⟨0⟩, [("ID", .null), ("id", .null)]⟩ .firstWins .start).view
    view.resolve? "Id" = some "ID" ∧ (view.put "ID" .null .start).2.1.resolve? "Id" = some "id" :=
  ⟨rfl, rfl⟩

end StructState
end Caseless
