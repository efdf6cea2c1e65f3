/-!
# Drawing from both ends

Items in a row are drawn one by one, each from the front or from the back of what is left.
-/

namespace Caseless

/-- The end that an item is drawn from. -/
inductive RowEnd where
  | front
  | back
  deriving DecidableEq, Repr

namespace RowEnd

variable {α : Type}

/-- Draws one item. -/
def draw : RowEnd → List α → Option α × List α
  | .front, items => (items.head?, items.tail)
  | .back, items => (items.getLast?, items.dropLast)

/-- Draws by a pattern of ends: before each draw the number of items that are left, and the item
that is drawn, if one is left. -/
def pick : List RowEnd → List α → List (Nat × Option α)
  | [], _ => []
  | side :: pattern, items =>
    let (item, rest) := side.draw items
    (items.length, item) :: pick pattern rest

/-- Every draw of a pattern is answered, also when nothing is left. -/
@[simp]
theorem length_pick (pattern : List RowEnd) (items : List α) :
    (pick pattern items).length = pattern.length := by
  induction pattern generalizing items with
  | nil => rfl
  | cons side pattern ih => simp [pick, ih]

end RowEnd
end Caseless
