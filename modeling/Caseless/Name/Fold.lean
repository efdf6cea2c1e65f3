/-!
# Folding names

Two names match ignoring case when they agree after their ASCII letters are lowered.  No other
character is changed, so letters outside ASCII always match exactly.

Main definitions:

- `foldCase`: the form under which names are compared;
- `needsFolding`: whether folding changes a name;
- `eqIgnoreCase`: the comparison itself, character by character.

Main results: `foldCase_toList`, folding acts character by character, and `foldCase_eq_self`, a name
without capitals folds to itself.
-/

namespace Caseless
namespace Name

/-- Whether a character is one of the ASCII capitals. -/
def isCapital (c : Char) : Bool :=
  'A' ≤ c && c ≤ 'Z'

/-- The small letter of an ASCII capital; any other character as it is. -/
def foldChar (c : Char) : Char :=
  if isCapital c then Char.ofNat (c.toNat + 32) else c

/-- Whether a name holds an ASCII capital. -/
def needsFolding (name : String) : Bool :=
  name.toList.any isCapital

/-- A name with its ASCII capitals lowered. -/
def lowered (name : String) : String :=
  String.ofList (name.toList.map foldChar)

/-- The form under which names are compared.  A name without capitals is its own form and is handed
back as it is. -/
def foldCase (name : String) : String :=
  if needsFolding name then lowered name else name

/-- Agreement at every character up to the case of ASCII letters. -/
def eqIgnoreCaseChars : List Char → List Char → Bool
  | [], [] => true
  | a :: as, b :: bs =>
    (a == b || (isCapital a && foldChar a == b) || (isCapital b && a == foldChar b)) &&
      eqIgnoreCaseChars as bs
  | _, _ => false

/-- Whether two names have the same length and agree up to the case of ASCII letters. -/
def eqIgnoreCase (a b : String) : Bool :=
  eqIgnoreCaseChars a.toList b.toList

/-! ### Folding acts on characters -/

theorem foldChar_eq_self {c : Char} (h : isCapital c = false) : foldChar c = c := by
  simp [foldChar, h]

theorem map_foldChar_eq_self {cs : List Char} (h : cs.any isCapital = false) :
    cs.map foldChar = cs := by
  induction cs with
  | nil => rfl
  | cons c cs ih =>
    simp only [List.any_cons, Bool.or_eq_false_iff] at h
    simp [foldChar_eq_self h.1, ih h.2]

/-- Both branches of `foldCase` give the lowered name. -/
theorem foldCase_eq_lowered (name : String) : foldCase name = lowered name := by
  unfold foldCase
  split
  · rfl
  · rename_i h
    simp only [needsFolding, Bool.not_eq_true] at h
    simp [lowered, map_foldChar_eq_self h]

@[simp]
theorem foldCase_toList (name : String) : (foldCase name).toList = name.toList.map foldChar := by
  simp [foldCase_eq_lowered, lowered]

theorem foldCase_eq_self {name : String} (h : needsFolding name = false) :
    foldCase name = name := by
  simp [foldCase, h]

end Name
end Caseless
