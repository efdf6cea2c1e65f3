import Mathlib.Data.Finset.Card
import Mathlib.Data.Finset.Dedup
import Caseless.Name.Index

/-!
# When tables are built

A lookup drops a table that has another stamp than the record at hand, builds one if none is left,
and reads off it.  Only the lookup that builds reports: how many fields there are, and how many
names when case is ignored.

Main definitions:

- `NameIndex.consult`: a lookup as it goes along;
- `Record.buildReport`: the report of a build.

Main results:

- Theorem `Buckets.length_ofNames`: a table has one group for every folded name;
- Theorem `NameIndex.pending_eq`: the build that a lookup makes is reported with the right numbers;
- Theorem `NameIndex.consult_eq`: what a lookup finds, reports and leaves.
-/

namespace Caseless
namespace Name.Buckets

/-! ## The groups of a table -/

/-- The folded names that have a group. -/
def keys (buckets : Buckets) : List String :=
  buckets.map (·.1)

@[simp]
theorem keys_nil : keys [] = [] :=
  rfl

@[simp]
theorem keys_cons (group : String × List Nat) (rest : Buckets) :
    keys (group :: rest) = group.1 :: keys rest :=
  rfl

theorem keys_insert (buckets : Buckets) (key : String) (position : Nat) :
    (buckets.insert key position).keys =
      if key ∈ buckets.keys then buckets.keys else buckets.keys ++ [key] := by
  induction buckets with
  | nil => simp [insert]
  | cons group rest ih =>
    obtain ⟨other, positions⟩ := group
    unfold insert
    by_cases hother : other = key
    · simp [hother]
    · by_cases hrest : key ∈ keys rest <;> simp [hother, Ne.symm hother, hrest, ih]

theorem mem_keys_insert {buckets : Buckets} {key other : String} {position : Nat} :
    other ∈ (buckets.insert key position).keys ↔ other ∈ buckets.keys ∨ other = key := by
  rw [keys_insert]
  split
  · rename_i hmem
    exact ⟨.inl, fun h => h.elim id fun heq => heq ▸ hmem⟩
  · simp

theorem nodup_keys_insert {buckets : Buckets} (h : buckets.keys.Nodup) (key : String)
    (position : Nat) : (buckets.insert key position).keys.Nodup := by
  rw [keys_insert]
  split
  · exact h
  · rename_i hmem
    rw [← List.concat_eq_append]
    exact h.concat hmem

/-- No folded name has two groups, and the folded names of what was added are those that have
one. -/
theorem keys_addFrom {buckets : Buckets} (h : buckets.keys.Nodup) (start : Nat)
    (names : List String) :
    (buckets.addFrom start names).keys.Nodup ∧ ∀ key,
      key ∈ (buckets.addFrom start names).keys ↔ key ∈ buckets.keys ∨ key ∈ names.map foldCase := by
  induction names generalizing buckets start with
  | nil => exact ⟨h, fun key => by simp [addFrom]⟩
  | cons name rest ih =>
    obtain ⟨hnodup, hmem⟩ := ih (nodup_keys_insert h (foldCase name) start) (start + 1)
    refine ⟨hnodup, fun key => ?_⟩
    rw [addFrom, hmem, mem_keys_insert, List.map_cons, List.mem_cons, or_assoc]

/-- A table has one group for every name, when case is ignored. -/
theorem length_ofNames (names : List String) :
    (ofNames names).length = (names.map foldCase).toFinset.card := by
  obtain ⟨hnodup, hmem⟩ := keys_addFrom (keys_nil ▸ List.nodup_nil) 0 names
  have hkeys : (ofNames names).keys.toFinset = (names.map foldCase).toFinset := by
    ext key
    rw [List.mem_toFinset, List.mem_toFinset, ofNames, hmem, keys_nil]
    simp
  rw [← hkeys, ofNames, List.toFinset_card_of_nodup hnodup, keys, List.length_map]

end Name.Buckets

open Name

/-- The report of a build for a record: how many fields it has, and how many names when case is
ignored. -/
def Record.buildReport {σ α : Type} (record : Record σ α) : BuildEvent :=
  ⟨record.fields.length, (record.names.map foldCase).toFinset.card⟩

namespace NameIndex

variable {σ α : Type} [DecidableEq σ] {index : NameIndex σ} {record : Record σ α}

/-! ## Freshness -/

/-- A table is fresh for a record when it has the stamp of the record. -/
theorem isFreshFor_iff :
    index.isFreshFor record = true ↔ index.built.map (·.stamp) = some record.stamp := by
  unfold isFreshFor
  cases index.built with
  | none => simp
  | some built => simp

theorem tableFor_of_stamp_eq {built : BuiltIndex σ} (hbuilt : index.built = some built)
    (hstamp : built.stamp = record.stamp) : index.tableFor record = built := by
  rw [tableFor, hbuilt]
  exact if_pos hstamp

theorem tableFor_of_stamp_ne (h : index.built.map (·.stamp) ≠ some record.stamp) :
    index.tableFor record = .build record := by
  unfold tableFor
  cases hbuilt : index.built with
  | none => rfl
  | some built =>
    rw [hbuilt, Option.map_some, ne_eq, Option.some.injEq] at h
    exact if_neg h

/-- A lookup without a fresh table reports the record at hand, and one with a fresh table reports
nothing. -/
theorem pending_eq (index : NameIndex σ) (record : Record σ α) :
    index.pending record = if index.isFreshFor record then none else some record.buildReport := by
  unfold pending
  split
  · rfl
  · rename_i hfresh
    rw [isFreshFor_iff] at hfresh
    rw [tableFor_of_stamp_ne hfresh, BuiltIndex.build, Buckets.length_ofNames]
    rfl

/-! ## A lookup as it goes along -/

/-- Looks up a query: a table with another stamp is dropped, a table is built and reported if none
is left, and the group of the query is read off. -/
def consult (index : NameIndex σ) (record : Record σ α) (query : String) :
    List Nat × List BuildEvent × NameIndex σ :=
  match index.built.filter fun built => built.stamp = record.stamp with
  | some built =>
    (built.buckets.positions (foldCase query), [], { index with built := some built })
  | none =>
    let built : BuiltIndex σ := .build record
    (built.buckets.positions (foldCase query), [⟨record.size, built.buckets.length⟩],
      { index with built := some built })

/-- What a lookup finds, what it reports, and what it leaves. -/
theorem consult_eq (index : NameIndex σ) (record : Record σ α) (query : String) :
    index.consult record query =
      (index.lookupAll record query, (index.pending record).toList, index.warm record) := by
  unfold consult lookupAll pending warm isFreshFor tableFor
  cases index.built with
  | none => rfl
  | some built => by_cases hstamp : built.stamp = record.stamp <;> simp [hstamp, Option.filter]

end NameIndex
end Caseless
