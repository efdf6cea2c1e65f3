import Caseless.Proofs.Name.Lookup
import Caseless.Proofs.Name.Rebuilding
import Mathlib.Data.List.Nodup

/-!
# A table partitions the positions

A table is built in one pass over the names: each position goes to the end of the group of its
folded name, or starts that group.  What the pass has added to a group is at any time the positions
seen so far whose names fold to its name, ascending, and no folded name has two groups
(`positions_addFrom` and `keys_addFrom`).  So at the end each group holds what a scan for its name
finds, and every position is in exactly one group.

Main definition: `Buckets.Partitions`, a table whose groups partition the positions of names.

Main results:

- Theorem `Buckets.mem_ofNames`: the groups of a table;
- Theorem `BuiltIndex.partitions_build`: the table of a record partitions the positions of its
  fields.
-/

namespace Caseless
namespace Name
namespace Buckets

/-! ## The groups -/

/-- Where no folded name has two groups, a group is what is found under its name. -/
theorem mem_iff_positions {buckets : Buckets} (h : buckets.keys.Nodup) {key : String}
    {group : List Nat} :
    (key, group) ∈ buckets ↔ key ∈ buckets.keys ∧ buckets.positions key = group := by
  induction buckets with
  | nil => simp
  | cons head rest ih =>
    obtain ⟨other, held⟩ := head
    rw [keys_cons, List.nodup_cons] at h
    rw [List.mem_cons, ih h.2, keys_cons, List.mem_cons, positions]
    by_cases hkey : other = key
    · subst hkey
      simp [h.1, eq_comm]
    · simp [hkey, Ne.symm hkey]

/-- The groups of a table: each is under the folded name of one of the names, and holds what a scan
for that name finds. -/
theorem mem_ofNames {names : List String} {group : String × List Nat} :
    group ∈ ofNames names ↔ ∃ name ∈ names, group = (foldCase name, matching names name) := by
  obtain ⟨hdistinct, hkeys⟩ := keys_addFrom (keys_nil ▸ List.nodup_nil) 0 names
  obtain ⟨key, held⟩ := group
  rw [ofNames, mem_iff_positions hdistinct, hkeys, ← ofNames, keys_nil]
  constructor
  · rintro ⟨hkey, rfl⟩
    obtain ⟨name, hname, rfl⟩ := List.mem_map.mp (hkey.resolve_left List.not_mem_nil)
    exact ⟨name, hname, by rw [positions_ofNames]⟩
  · rintro ⟨name, hname, heq⟩
    obtain ⟨rfl, rfl⟩ := Prod.mk.inj heq
    exact ⟨.inr (List.mem_map_of_mem hname), positions_ofNames names name⟩

/-- The positions in a group are those of the names that fold to the name of the group. -/
theorem mem_group_iff {names : List String} {group : String × List Nat}
    (h : group ∈ ofNames names) {position : Nat} :
    position ∈ group.2 ↔ ∃ name, names[position]? = some name ∧ foldCase name = group.1 := by
  obtain ⟨spelling, -, rfl⟩ := mem_ofNames.mp h
  rw [mem_matching]
  refine exists_congr fun name => and_congr_right fun _ => ?_
  rw [eqIgnoreCase_iff]
  exact eq_comm

/-- No folded name has two groups. -/
theorem nodup_keys_ofNames (names : List String) : (ofNames names).keys.Nodup :=
  (keys_addFrom (keys_nil ▸ List.nodup_nil) 0 names).1

/-- A position is in one group only. -/
theorem eq_of_mem_groups {names : List String} {group other : String × List Nat}
    (h : group ∈ ofNames names) (h' : other ∈ ofNames names) {position : Nat}
    (hmem : position ∈ group.2) (hmem' : position ∈ other.2) : group = other := by
  obtain ⟨name, hname, hkey⟩ := (mem_group_iff h).mp hmem
  obtain ⟨name', hname', hkey'⟩ := (mem_group_iff h').mp hmem'
  -- The position has one name, so both groups are under its folded name.
  obtain rfl : name = name' := Option.some.inj (hname.symm.trans hname')
  obtain ⟨key, held⟩ := group
  obtain ⟨key', held'⟩ := other
  obtain rfl : key = key' := hkey.symm.trans hkey'
  rw [mem_iff_positions (nodup_keys_ofNames names)] at h h'
  rw [← h.2, ← h'.2]

theorem nodup_group {names : List String} {group : String × List Nat} (h : group ∈ ofNames names) :
    group.2.Nodup := by
  obtain ⟨name, -, rfl⟩ := mem_ofNames.mp h
  exact (matching_ascending names name).imp Nat.ne_of_lt

/-- The groups together hold every position of a name once, and nothing else. -/
theorem perm_flatMap_ofNames (names : List String) :
    ((ofNames names).flatMap (·.2)).Perm (List.range names.length) := by
  have hgroups : (ofNames names).Nodup := (nodup_keys_ofNames names).of_map
  have hnodup : ((ofNames names).flatMap (·.2)).Nodup := by
    refine List.nodup_flatMap.mpr ⟨fun group hgroup => nodup_group hgroup, ?_⟩
    refine hgroups.imp_of_mem fun hgroup hother hne => ?_
    intro position hmem hmem'
    exact hne (eq_of_mem_groups hgroup hother hmem hmem')
  refine (List.perm_ext_iff_of_nodup hnodup List.nodup_range).mpr fun position => ?_
  rw [List.mem_flatMap, List.mem_range]
  constructor
  · rintro ⟨group, hgroup, hmem⟩
    obtain ⟨name, hname, -⟩ := (mem_group_iff hgroup).mp hmem
    exact (List.getElem?_eq_some_iff.mp hname).1
  · intro hlt
    have hname : names[position]? = some names[position] := List.getElem?_eq_getElem hlt
    have hgroup := mem_ofNames.mpr ⟨names[position], List.getElem_mem hlt, rfl⟩
    exact ⟨_, hgroup, (mem_group_iff hgroup).mpr ⟨_, hname, rfl⟩⟩

/-! ## The partition -/

/-- The groups of a table partition the positions of names, by folded name. -/
structure Partitions (buckets : Buckets) (names : List String) : Prop where
  /-- No folded name has two groups. -/
  distinct : buckets.keys.Nodup
  /-- Every position is in the group of its folded name, once, and in no other. -/
  placed : ∀ position name, names[position]? = some name →
    ∃ group, (foldCase name, group) ∈ buckets ∧ group.count position = 1 ∧
      ∀ other ∈ buckets, position ∈ other.2 → other = (foldCase name, group)
  /-- The groups together hold every position once. -/
  perm : (buckets.flatMap (·.2)).Perm (List.range names.length)
  bounded : ∀ group ∈ buckets, ∀ position ∈ group.2, position < names.length
  nonempty : ∀ group ∈ buckets, group.2 ≠ []
  ascending : ∀ group ∈ buckets, group.2.Pairwise (· < ·)
  /-- Each group is under a folded name. -/
  folded : ∀ group ∈ buckets, foldCase group.1 = group.1
  /-- There are as many groups as names, when case is ignored. -/
  length_eq : buckets.length = (names.map foldCase).toFinset.card

end Buckets

/-- The table that is built for a record partitions the positions of its fields. -/
theorem BuiltIndex.partitions_build {σ α : Type} (record : Record σ α) :
    (BuiltIndex.build record).buckets.Partitions record.names where
  distinct := Buckets.nodup_keys_ofNames record.names
  placed position name hname := by
    have hgroup : (foldCase name, matching record.names name) ∈ Buckets.ofNames record.names :=
      Buckets.mem_ofNames.mpr ⟨name, List.mem_of_getElem? hname, rfl⟩
    have hmem : position ∈ matching record.names name :=
      (Buckets.mem_group_iff hgroup).mpr ⟨name, hname, rfl⟩
    refine ⟨_, hgroup, List.count_eq_one_of_mem (Buckets.nodup_group hgroup) hmem, ?_⟩
    intro other hother hmem'
    exact Buckets.eq_of_mem_groups hother hgroup hmem' hmem
  perm := Buckets.perm_flatMap_ofNames record.names
  bounded group hgroup position hmem := by
    obtain ⟨name, -, rfl⟩ := Buckets.mem_ofNames.mp hgroup
    exact lt_length_of_mem_matching hmem
  nonempty group hgroup := by
    obtain ⟨name, hname, rfl⟩ := Buckets.mem_ofNames.mp hgroup
    obtain ⟨position, hposition⟩ := List.mem_iff_getElem?.mp hname
    exact List.ne_nil_of_mem (mem_matching.mpr ⟨name, hposition, eqIgnoreCase_self name⟩)
  ascending group hgroup := by
    obtain ⟨name, -, rfl⟩ := Buckets.mem_ofNames.mp hgroup
    exact matching_ascending record.names name
  folded group hgroup := by
    obtain ⟨name, -, rfl⟩ := Buckets.mem_ofNames.mp hgroup
    exact foldCase_foldCase name
  length_eq := Buckets.length_ofNames record.names

end Name
end Caseless
