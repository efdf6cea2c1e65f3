import Caseless.Name.Scan
import Caseless.Record

/-!
# The name index

Looking up names ignoring case by a scan costs a comparison with every field.  The index is a table
from folded name to positions that is built on the first lookup and remembers the stamp of the
record it was built from.  A later lookup uses it again as long as the record in hand has that
stamp, and builds it anew otherwise.

Main definitions:

- `Buckets`: positions grouped by folded name;
- `NameIndex`: the policy and the table, if one has been built;
- `NameIndex.warm`: the state after any lookup;
- `NameIndex.pending`: the build that the next lookup makes, if it makes one;
- `NameIndex.lookup`, `NameIndex.lookupAll`: the answers.
-/

namespace Caseless
namespace Name

/-- Positions grouped by folded name.  Every group is met in the order of its first position. -/
abbrev Buckets := List (String × List Nat)

namespace Buckets

/-- Adds a position to the group of a folded name, and starts the group if there is none. -/
def insert (key : String) (position : Nat) : Buckets → Buckets
  | [] => [(key, [position])]
  | (other, positions) :: rest =>
    if other = key then (other, positions ++ [position]) :: rest
    else (other, positions) :: insert key position rest

/-- Adds names in order, the first of them at position `start`. -/
def addFrom (buckets : Buckets) : Nat → List String → Buckets
  | _, [] => buckets
  | start, name :: rest => addFrom (buckets.insert (foldCase name) start) (start + 1) rest

/-- The groups of a list of names. -/
def ofNames (names : List String) : Buckets :=
  addFrom [] 0 names

/-- The positions in the group of a folded name. -/
def positions (key : String) : Buckets → List Nat
  | [] => []
  | (other, positions) :: rest => if other = key then positions else Buckets.positions key rest

end Buckets

/-- A table and the stamp of the record it describes. -/
structure BuiltIndex (σ : Type) where
  stamp : σ
  buckets : Buckets

/-- The table for a record. -/
def BuiltIndex.build {σ α : Type} (record : Record σ α) : BuiltIndex σ :=
  ⟨record.stamp, Buckets.ofNames record.names⟩

/-- What is reported when a table is built: the number of fields and of different folded names. -/
structure BuildEvent where
  fields : Nat
  keys : Nat
  deriving DecidableEq, Repr

end Name

open Name

/-- A policy, and a table once one has been built. -/
structure NameIndex (σ : Type) where
  policy : Policy
  built : Option (BuiltIndex σ)

namespace NameIndex

variable {σ α : Type}

/-- The index of a new view. -/
def new (policy : Policy) : NameIndex σ :=
  ⟨policy, none⟩

/-- The same table under another policy. -/
def withPolicy (index : NameIndex σ) (policy : Policy) : NameIndex σ :=
  { index with policy }

/-- Forgets the table. -/
def invalidate (index : NameIndex σ) : NameIndex σ :=
  { index with built := none }

/-- An index for a copy of the view: the policy is kept, the table is not shared. -/
def fork (index : NameIndex σ) : NameIndex σ :=
  new index.policy

variable [DecidableEq σ]

/-- Whether a lookup in `record` would use the table that is there. -/
def isFreshFor (index : NameIndex σ) (record : Record σ α) : Bool :=
  match index.built with
  | some built => built.stamp = record.stamp
  | none => false

/-- The table that a lookup in `record` uses: the one that is there if it is fresh, and otherwise
one that is built for the record. -/
def tableFor (index : NameIndex σ) (record : Record σ α) : BuiltIndex σ :=
  match index.built with
  | some built => if built.stamp = record.stamp then built else .build record
  | none => .build record

/-- The state after a lookup in `record`. -/
def warm (index : NameIndex σ) (record : Record σ α) : NameIndex σ :=
  { index with built := some (index.tableFor record) }

/-- The report of the build that the next lookup in `record` makes, if it makes one. -/
def pending (index : NameIndex σ) (record : Record σ α) : Option BuildEvent :=
  if index.isFreshFor record then none
  else some ⟨record.size, (index.tableFor record).buckets.length⟩

/-- Every position whose name matches the query ignoring case, ascending. -/
def lookupAll (index : NameIndex σ) (record : Record σ α) (query : String) : List Nat :=
  (index.tableFor record).buckets.positions (foldCase query)

/-- The position that the query resolves to under the policy. -/
def lookup (index : NameIndex σ) (record : Record σ α) (query : String) : Option Nat :=
  index.policy.select record.names query (index.lookupAll record query)

/-! ### Freshness -/

@[simp]
theorem isFreshFor_warm (index : NameIndex σ) (record : Record σ α) :
    (index.warm record).isFreshFor record = true := by
  unfold warm isFreshFor tableFor
  cases index.built with
  | none => simp [BuiltIndex.build]
  | some built =>
    by_cases h : built.stamp = record.stamp <;> simp [h, BuiltIndex.build]

@[simp]
theorem isFreshFor_invalidate (index : NameIndex σ) (record : Record σ α) :
    index.invalidate.isFreshFor record = false :=
  rfl

@[simp]
theorem isFreshFor_withPolicy (index : NameIndex σ) (policy : Policy) (record : Record σ α) :
    (index.withPolicy policy).isFreshFor record = index.isFreshFor record :=
  rfl

theorem pending_eq_none_iff (index : NameIndex σ) (record : Record σ α) :
    index.pending record = none ↔ index.isFreshFor record = true := by
  unfold pending
  split <;> simp_all

end NameIndex
end Caseless
