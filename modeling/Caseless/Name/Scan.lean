import Caseless.Name.Fold

/-!
# Matching names by a linear scan

What it means for a query to match the names of a struct, and which match a policy selects.  These
are the plain definitions; `Caseless.Name.Index` answers the same questions from a table.

Main definitions:

- `Policy`: which field is selected when several names differ only by case;
- `matching`: the positions whose name equals the query ignoring case, ascending;
- `Policy.select`: the position that a policy selects among given ones;
- `scan`: the position that a query resolves to.
-/

namespace Caseless
namespace Name

/-- Which field is selected when several names match a query ignoring case. -/
inductive Policy where
  /-- The first match, even if a later name is spelled like the query. -/
  | firstWins
  /-- The first name spelled like the query, and the first match if there is none. -/
  | preferExact
  deriving DecidableEq, Repr

instance : Inhabited Policy := ⟨.firstWins⟩

/-- The positions at or after `start` whose name satisfies `p`, ascending. -/
def positionsFrom (p : String → Bool) : Nat → List String → List Nat
  | _, [] => []
  | start, name :: rest =>
    if p name then start :: positionsFrom p (start + 1) rest else positionsFrom p (start + 1) rest

/-- The positions whose name equals `query` ignoring case, ascending. -/
def matching (names : List String) (query : String) : List Nat :=
  positionsFrom (eqIgnoreCase query) 0 names

/-- The position that a policy selects among matching positions. -/
def Policy.select (policy : Policy) (names : List String) (query : String)
    (positions : List Nat) : Option Nat :=
  match policy with
  | .firstWins => positions.head?
  | .preferExact =>
    (positions.find? fun position => names[position]? == some query).or positions.head?

/-- The position that `query` resolves to by a scan of the names. -/
def scan (policy : Policy) (names : List String) (query : String) : Option Nat :=
  match policy with
  | .firstWins => (matching names query).head?
  | .preferExact => (names.findIdx? (· == query)).or (matching names query).head?

@[simp]
theorem Policy.select_nil (policy : Policy) (names : List String) (query : String) :
    policy.select names query [] = none := by
  cases policy <;> rfl

end Name
end Caseless
