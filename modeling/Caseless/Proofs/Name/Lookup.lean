import Caseless.Name.Index
import Caseless.Proofs.Name.Folding

/-!
# The index answers as a scan does

A table groups the positions of names by folded name.  The group of a folded query holds exactly
the positions that a linear scan for the query finds, in the same order, so a lookup in a table that
describes the record in hand resolves a query as the scan does.

Main results:

- Theorems `mem_matching` and `matching_ascending`: what a scan finds;
- Theorem `Buckets.positions_ofNames`: the group of a folded query is what the scan finds;
- Theorem `Policy.select_matching`: selecting among the matches is scanning under the policy;
- Theorems `NameIndex.TrueOf.lookupAll_eq_matching` and `NameIndex.TrueOf.lookup_eq_scan`: the
  answers of an index that is true of a record.
-/

namespace Caseless
namespace Name

/-! ## What a scan finds -/

theorem mem_positionsFrom {p : String → Bool} {start position : Nat} {names : List String} :
    position ∈ positionsFrom p start names ↔
      start ≤ position ∧ ∃ name, names[position - start]? = some name ∧ p name = true := by
  induction names generalizing start with
  | nil => simp [positionsFrom]
  | cons head rest ih =>
    have htail : position ∈ positionsFrom p (start + 1) rest ↔ start < position ∧
        ∃ name, (head :: rest)[position - start]? = some name ∧ p name = true := by
      rw [ih, Nat.succ_le_iff]
      refine and_congr_right fun hlt => ?_
      rw [show position - start = position - (start + 1) + 1 by omega, List.getElem?_cons_succ]
    unfold positionsFrom
    by_cases hhead : p head = true
    · rw [if_pos hhead, List.mem_cons, htail]
      constructor
      · rintro (rfl | ⟨hlt, hname⟩)
        · exact ⟨Nat.le_refl _, head, by simp, hhead⟩
        · exact ⟨Nat.le_of_lt hlt, hname⟩
      · rintro ⟨hle, hname⟩
        rcases Nat.eq_or_lt_of_le hle with heq | hlt
        · exact Or.inl heq.symm
        · exact Or.inr ⟨hlt, hname⟩
    · rw [if_neg hhead, htail]
      constructor
      · rintro ⟨hlt, hname⟩
        exact ⟨Nat.le_of_lt hlt, hname⟩
      · rintro ⟨hle, name, hname, hp⟩
        rcases Nat.eq_or_lt_of_le hle with rfl | hlt
        · simp only [Nat.sub_self, List.getElem?_cons_zero, Option.some.injEq] at hname
          exact absurd (hname ▸ hp) hhead
        · exact ⟨hlt, name, hname, hp⟩

theorem positionsFrom_ascending (p : String → Bool) (start : Nat) (names : List String) :
    (positionsFrom p start names).Pairwise (· < ·) := by
  induction names generalizing start with
  | nil => exact List.Pairwise.nil
  | cons head rest ih =>
    unfold positionsFrom
    split
    · refine List.pairwise_cons.mpr ⟨fun position hmem => ?_, ih (start + 1)⟩
      exact (mem_positionsFrom.mp hmem).1
    · exact ih (start + 1)

/-- The matches are the positions whose name equals the query ignoring case. -/
theorem mem_matching {names : List String} {query : String} {position : Nat} :
    position ∈ matching names query ↔
      ∃ name, names[position]? = some name ∧ eqIgnoreCase query name = true := by
  simp [matching, mem_positionsFrom]

/-- The matches are in ascending order. -/
theorem matching_ascending (names : List String) (query : String) :
    (matching names query).Pairwise (· < ·) :=
  positionsFrom_ascending ..

/-- Every match is the position of a name. -/
theorem lt_length_of_mem_matching {names : List String} {query : String} {position : Nat}
    (h : position ∈ matching names query) : position < names.length := by
  rcases mem_matching.mp h with ⟨name, hname, -⟩
  exact (List.getElem?_eq_some_iff.mp hname).1

/-! ## The groups of a table -/

namespace Buckets

theorem positions_insert (buckets : Buckets) (key other : String) (position : Nat) :
    (buckets.insert other position).positions key =
      buckets.positions key ++ if other = key then [position] else [] := by
  induction buckets with
  | nil =>
    unfold insert positions positions
    split <;> rfl
  | cons group rest ih =>
    rcases group with ⟨name, group⟩
    unfold insert
    by_cases hname : name = other
    · subst hname
      rw [if_pos rfl]
      by_cases hkey : name = key <;> simp [positions, hkey]
    · rw [if_neg hname]
      by_cases hkey : name = key
      · subst hkey
        simp [positions, Ne.symm hname]
      · simp [positions, hkey, ih]

theorem positions_addFrom (buckets : Buckets) (start : Nat) (names : List String) (key : String) :
    (buckets.addFrom start names).positions key =
      buckets.positions key ++ positionsFrom (fun name => foldCase name == key) start names := by
  induction names generalizing buckets start with
  | nil => simp [addFrom, positionsFrom]
  | cons name rest ih =>
    rw [addFrom, ih, positions_insert, positionsFrom]
    by_cases hkey : foldCase name = key <;> simp [hkey]

/-- The group of a folded query holds what a scan for the query finds. -/
theorem positions_ofNames (names : List String) (query : String) :
    (ofNames names).positions (foldCase query) = matching names query := by
  have hsame : (fun name => foldCase name == foldCase query) = eqIgnoreCase query := by
    funext name
    rw [Bool.eq_iff_iff, beq_iff_eq, eqIgnoreCase_iff]
    exact eq_comm
  rw [ofNames, positions_addFrom, hsame]
  rfl

end Buckets

/-! ## Selection among the matches -/

theorem findIdx?_spelled_eq (names : List String) (query : String) (start : Nat) :
    (positionsFrom (eqIgnoreCase query) start names).find?
        (fun position => names[position - start]? == some query) =
      (names.findIdx? (· == query)).map (· + start) := by
  induction names generalizing start with
  | nil => rfl
  | cons head rest ih =>
    -- Positions of the tail are past the head, so the tail is looked at from the next position on.
    have htail : (positionsFrom (eqIgnoreCase query) (start + 1) rest).find?
          (fun position => (head :: rest)[position - start]? == some query) =
        ((rest.findIdx? (· == query)).map (· + 1)).map (· + start) := by
      rw [Option.map_map, show ((· + start) ∘ (· + 1)) = (· + (start + 1)) by
        funext n; simp only [Function.comp_apply]; omega, ← ih (start + 1),
        ← List.head?_filter, ← List.head?_filter]
      congr 1
      refine List.filter_congr fun position hmem => ?_
      have hlt : start + 1 ≤ position := (mem_positionsFrom.mp hmem).1
      rw [show position - start = position - (start + 1) + 1 by omega, List.getElem?_cons_succ]
    rw [positionsFrom, List.findIdx?_cons]
    by_cases hspelled : head = query
    · subst hspelled
      simp
    · have hbeq : (head == query) = false := by simpa using hspelled
      rw [hbeq]
      split
      · rw [List.find?_cons_of_neg (by simpa using hspelled), htail]
        rfl
      · rw [htail]
        rfl

/-- Selecting among the matches of a query is scanning for it under the policy. -/
theorem Policy.select_matching (policy : Policy) (names : List String) (query : String) :
    policy.select names query (matching names query) = scan policy names query := by
  cases policy with
  | firstWins => rfl
  | preferExact =>
    have hspelled := findIdx?_spelled_eq names query 0
    simp only [Nat.sub_zero, Nat.add_zero, Option.map_id'] at hspelled
    rw [select, scan, matching, hspelled]

theorem head?_positionsFrom (p : String → Bool) (start : Nat) (names : List String) :
    (positionsFrom p start names).head? = (names.findIdx? p).map (· + start) := by
  induction names generalizing start with
  | nil => rfl
  | cons head rest ih =>
    rw [positionsFrom, List.findIdx?_cons]
    by_cases hhead : p head = true
    · simp [hhead]
    · have hrest : (positionsFrom p (start + 1) rest).head? =
          ((rest.findIdx? p).map (· + 1)).map (· + start) := by
        rw [ih, Option.map_map]
        congr 1
        funext position
        simp only [Function.comp_apply]
        omega
      simp only [hhead, Bool.false_eq_true, if_false, hrest]

/-- The first match is at the first name that equals the query ignoring case. -/
theorem head?_matching (names : List String) (query : String) :
    (matching names query).head? = names.findIdx? (eqIgnoreCase query) := by
  simp [matching, head?_positionsFrom]

/-- Where a query differs from no name by case alone, ignoring case makes no difference. -/
theorem findIdx?_eqIgnoreCase {names : List String} {query : String}
    (h : ∀ name ∈ names, eqIgnoreCase query name = true → query = name) :
    names.findIdx? (eqIgnoreCase query) = names.findIdx? (· == query) := by
  induction names with
  | nil => rfl
  | cons head rest ih =>
    have hhead : eqIgnoreCase query head = (head == query) := by
      rw [Bool.eq_iff_iff, beq_iff_eq]
      constructor
      · intro heq
        exact (h head List.mem_cons_self heq).symm
      · intro heq
        rw [heq, eqIgnoreCase_self]
    rw [List.findIdx?_cons, List.findIdx?_cons, hhead, ih fun name hmem => h name (.tail _ hmem)]

/-- A query that differs from no name by case alone is resolved to the first name of its spelling,
whatever the policy. -/
theorem scan_eq_findIdx? (policy : Policy) {names : List String} {query : String}
    (h : ∀ name ∈ names, eqIgnoreCase query name = true → query = name) :
    scan policy names query = names.findIdx? (· == query) := by
  cases policy with
  | firstWins => rw [scan, head?_matching, findIdx?_eqIgnoreCase h]
  | preferExact => rw [scan, head?_matching, findIdx?_eqIgnoreCase h, Option.or_self]

/-- What a scan selects is a match. -/
theorem mem_matching_of_scan {policy : Policy} {names : List String} {query : String}
    {position : Nat} (h : scan policy names query = some position) :
    position ∈ matching names query := by
  cases policy with
  | firstWins => exact List.mem_of_mem_head? h
  | preferExact =>
    rw [scan, Option.or_eq_some_iff] at h
    rcases h with hspelled | ⟨-, hfirst⟩
    · rcases List.findIdx?_eq_some_iff_getElem.mp hspelled with ⟨hlt, hname, -⟩
      rw [beq_iff_eq] at hname
      exact mem_matching.mpr ⟨query, List.getElem?_eq_some_iff.mpr ⟨hlt, hname⟩, by simp⟩
    · exact List.mem_of_mem_head? hfirst

/-- A scan selects something exactly when there is a match. -/
theorem isSome_scan (policy : Policy) (names : List String) (query : String) :
    (scan policy names query).isSome = !(matching names query).isEmpty := by
  cases hscan : scan policy names query with
  | some position =>
    have hmem := mem_matching_of_scan hscan
    cases hmatching : matching names query with
    | nil => simp [hmatching] at hmem
    | cons => rfl
  | none =>
    have hnone : (matching names query).head? = none := by
      cases policy with
      | firstWins => exact hscan
      | preferExact => exact (Option.or_eq_none_iff.mp hscan).2
    rw [List.head?_eq_none_iff.mp hnone]
    rfl

end Name

/-! ## The answers of an index -/

namespace NameIndex

open Name

variable {σ α : Type}

/-- An index is true of a record when the record's stamp lets through only a table of its names. -/
def TrueOf (index : NameIndex σ) (record : Record σ α) : Prop :=
  ∀ built, index.built = some built → built.stamp = record.stamp →
    built.buckets = Buckets.ofNames record.names

/-- An index without a table is true of every record. -/
theorem trueOf_of_built_eq_none {index : NameIndex σ} (record : Record σ α)
    (h : index.built = none) : index.TrueOf record := by
  intro built hbuilt
  rw [h] at hbuilt
  contradiction

variable [DecidableEq σ]

/-- The table that a lookup uses groups the names of the record. -/
theorem TrueOf.tableFor_buckets {index : NameIndex σ} {record : Record σ α}
    (h : index.TrueOf record) :
    (index.tableFor record).buckets = Buckets.ofNames record.names := by
  unfold tableFor
  split
  · rename_i built hbuilt
    split
    · rename_i hstamp
      exact h built hbuilt hstamp
    · rfl
  · rfl

/-- Every position that an index true of a record gives, a scan of the record finds. -/
theorem TrueOf.lookupAll_eq_matching {index : NameIndex σ} {record : Record σ α}
    (h : index.TrueOf record) (query : String) :
    index.lookupAll record query = matching record.names query := by
  rw [lookupAll, h.tableFor_buckets, Buckets.positions_ofNames]

/-- An index true of a record resolves a query as a scan of the record does. -/
theorem TrueOf.lookup_eq_scan {index : NameIndex σ} {record : Record σ α}
    (h : index.TrueOf record) (query : String) :
    index.lookup record query = scan index.policy record.names query := by
  rw [lookup, h.lookupAll_eq_matching, Policy.select_matching]

end NameIndex
end Caseless
