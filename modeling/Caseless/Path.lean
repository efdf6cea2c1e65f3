import Caseless.Error

/-!
# Paths

A path is a list of keys.  Anything that answers one key with a child, with nothing, or with a
failure can be followed along a path; the walk ends at the first key that has no child.

Main definitions:

- `Key`: a name or a position;
- `Arrival`: how a walk ends, with the number of keys that were followed before it ended;
- `follow`: the end of a walk;
- `trace`: every answer along a walk.
-/

namespace Caseless

/-- The address of a child: a name in a struct, or a position in a sequence. -/
inductive Key where
  | name (text : String)
  | position (index : Nat)
  deriving DecidableEq, Repr

/-- How a walk ends. -/
inductive Arrival (α : Type) where
  /-- Every key was followed. -/
  | found (target : α)
  /-- After `steps` keys there was no child. -/
  | missing (steps : Nat)
  /-- After `steps` keys a key failed. -/
  | failed (steps : Nat) (failure : Error)

namespace Arrival

variable {α β : Type}

/-- The same end of a walk that is one key longer at the front. -/
def later : Arrival α → Arrival α
  | .found target => .found target
  | .missing steps => .missing (steps + 1)
  | .failed steps failure => .failed (steps + 1) failure

/-- The same end with another target. -/
def map (f : α → β) : Arrival α → Arrival β
  | .found target => .found (f target)
  | .missing steps => .missing steps
  | .failed steps failure => .failed steps failure

end Arrival

namespace Path

variable {α : Type}

/-- Follows a path from a start, one `get` a key. -/
def follow (get : α → Key → Except Error (Option α)) (start : α) : List Key → Arrival α
  | [] => .found start
  | key :: rest =>
    match get start key with
    | .ok (some child) => (follow get child rest).later
    | .ok none => .missing 0
    | .error failure => .failed 0 failure

/-- The answers along a path, up to the first that is not a child. -/
def trace (get : α → Key → Except Error (Option α)) (start : α) :
    List Key → List (Except Error (Option α))
  | [] => []
  | key :: rest =>
    match get start key with
    | .ok (some child) => .ok (some child) :: trace get child rest
    | .ok none => [.ok none]
    | .error failure => [.error failure]

@[simp]
theorem follow_nil (get : α → Key → Except Error (Option α)) (start : α) :
    follow get start [] = .found start :=
  rfl

end Path
end Caseless
