import Caseless.Name.Fold

/-!
# Folding and the comparison ignoring case

Two names match ignoring case exactly when they fold to the same name.  A capital is moved to the
code of its small letter, which is no capital, so folding twice is folding once, and different
characters of one case stay different.

Main results:

- Theorem `foldChar_toNat`: the code of a folded character;
- Theorem `foldChar_foldChar`: folding a character is idempotent;
- Theorem `eqIgnoreCase_iff`: the comparison ignoring case is equality of folded names;
- Theorem `not_differOutsideAscii`: names that match have the same characters outside ASCII at the
  same places.
-/

namespace Caseless
namespace Name

/-! ## Characters -/

/-- A capital is a character with a code between 65 and 90. -/
theorem isCapital_iff (c : Char) : isCapital c = true ↔ 65 ≤ c.toNat ∧ c.toNat ≤ 90 := by
  simp only [isCapital, Bool.and_eq_true, decide_eq_true_eq, Char.le_def, UInt32.le_iff_toNat_le]
  rfl

/-- The code of a folded character. -/
theorem foldChar_toNat (c : Char) :
    (foldChar c).toNat = if isCapital c then c.toNat + 32 else c.toNat := by
  unfold foldChar
  split
  · rename_i hcapital
    have hcode := (isCapital_iff c).mp hcapital
    have hvalid : (c.toNat + 32).isValidChar := Or.inl (by omega)
    unfold Char.ofNat
    rw [dif_pos hvalid]
    rfl
  · rfl

/-- No folded character is a capital. -/
@[simp]
theorem isCapital_foldChar (c : Char) : isCapital (foldChar c) = false := by
  rw [← Bool.not_eq_true, isCapital_iff, foldChar_toNat]
  split
  · rename_i hcapital
    have hcode := (isCapital_iff c).mp hcapital
    omega
  · rename_i hcapital
    rwa [← isCapital_iff]

/-- Folding a character twice is folding it once. -/
@[simp]
theorem foldChar_foldChar (c : Char) : foldChar (foldChar c) = foldChar c :=
  foldChar_eq_self (isCapital_foldChar c)

/-- Two capitals with one small letter are one capital. -/
theorem foldChar_injective_of_isCapital {a b : Char} (ha : isCapital a = true)
    (hb : isCapital b = true) (h : foldChar a = foldChar b) : a = b := by
  have hcode : (foldChar a).toNat = (foldChar b).toNat := congrArg Char.toNat h
  rw [foldChar_toNat, foldChar_toNat, if_pos ha, if_pos hb] at hcode
  exact Char.toNat_inj.mp (by omega)

/-- Two characters agree up to case exactly when they fold to one character. -/
theorem agree_iff_foldChar (a b : Char) :
    (a == b || (isCapital a && foldChar a == b) || (isCapital b && a == foldChar b)) = true ↔
      foldChar a = foldChar b := by
  simp only [Bool.or_eq_true, Bool.and_eq_true, beq_iff_eq]
  constructor
  · rintro ((heq | ⟨_, heq⟩) | ⟨_, heq⟩)
    · rw [heq]
    · rw [← heq, foldChar_foldChar]
    · rw [heq, foldChar_foldChar]
  · intro hfold
    -- Which of the two is a capital decides which of the three comparisons holds.
    by_cases ha : isCapital a = true
    · by_cases hb : isCapital b = true
      · exact Or.inl (Or.inl (foldChar_injective_of_isCapital ha hb hfold))
      · rw [foldChar_eq_self (c := b) (by simpa using hb)] at hfold
        exact Or.inl (Or.inr ⟨ha, hfold⟩)
    · rw [foldChar_eq_self (c := a) (by simpa using ha)] at hfold
      by_cases hb : isCapital b = true
      · exact Or.inr ⟨hb, hfold⟩
      · rw [foldChar_eq_self (c := b) (by simpa using hb)] at hfold
        exact Or.inl (Or.inl hfold)

/-! ## Names -/

theorem eqIgnoreCaseChars_iff (as bs : List Char) :
    eqIgnoreCaseChars as bs = true ↔ as.map foldChar = bs.map foldChar := by
  induction as generalizing bs with
  | nil => cases bs <;> simp [eqIgnoreCaseChars]
  | cons a as ih =>
    cases bs with
    | nil => simp [eqIgnoreCaseChars]
    | cons b bs =>
      rw [eqIgnoreCaseChars, Bool.and_eq_true, agree_iff_foldChar, ih]
      simp

/-- Two names match ignoring case exactly when they fold to the same name. -/
theorem eqIgnoreCase_iff (a b : String) : eqIgnoreCase a b = true ↔ foldCase a = foldCase b := by
  rw [eqIgnoreCase, eqIgnoreCaseChars_iff, ← foldCase_toList, ← foldCase_toList]
  exact String.toList_inj

/-- A name matches itself. -/
@[simp]
theorem eqIgnoreCase_self (name : String) : eqIgnoreCase name name = true :=
  (eqIgnoreCase_iff name name).mpr rfl

/-- A name has no capital exactly when lowering it changes nothing. -/
theorem needsFolding_eq_false_iff (name : String) :
    needsFolding name = false ↔ lowered name = name := by
  constructor
  · intro h
    rw [← foldCase_eq_lowered, foldCase_eq_self h]
  · intro h
    have hfolded : name.toList.map foldChar = name.toList := by
      rw [← foldCase_toList, foldCase_eq_lowered, h]
    rw [needsFolding, ← hfolded, List.any_map, List.any_eq_false]
    intro c _
    simp

@[simp]
theorem foldCase_foldCase (name : String) : foldCase (foldCase name) = foldCase name := by
  rw [← String.toList_inj, foldCase_toList, foldCase_toList, List.map_map]
  congr 1
  funext c
  exact foldChar_foldChar c

theorem foldCase_append (name other : String) :
    foldCase (name ++ other) = foldCase name ++ foldCase other := by
  rw [← String.toList_inj, String.toList_append, foldCase_toList, foldCase_toList, foldCase_toList,
    String.toList_append, List.map_append]

/-! ## Characters outside ASCII -/

/-- No other character folds to a character outside ASCII. -/
theorem foldChar_eq_iff_of_lt {c d : Char} (hc : 127 < c.toNat) : foldChar d = c ↔ d = c := by
  have hcode := foldChar_toNat d
  by_cases hcapital : isCapital d = true
  · -- A capital and its small letter are both within ASCII.
    have hrange := (isCapital_iff d).mp hcapital
    rw [if_pos hcapital] at hcode
    constructor
    · intro hfold
      rw [hfold] at hcode
      omega
    · intro heq
      rw [heq] at hrange
      omega
  · rw [foldChar_eq_self (by simpa using hcapital)]

/-- Folding keeps every character outside ASCII in its place, and makes no new one. -/
theorem getElem?_map_foldChar {c : Char} (hc : 127 < c.toNat) (cs : List Char) (place : Nat) :
    (cs.map foldChar)[place]? = some c ↔ cs[place]? = some c := by
  rw [List.getElem?_map]
  cases cs[place]? with
  | none => simp
  | some d => simp [foldChar_eq_iff_of_lt hc]

/-- Two names differ in a character outside ASCII: at some place, one of them has it and the other
has not. -/
def DifferOutsideAscii (a b : String) : Prop :=
  ∃ (place : Nat) (c : Char), 127 < c.toNat ∧
    (a.toList[place]? = some c ↔ ¬ b.toList[place]? = some c)

/-- Names that match ignoring case do not differ outside ASCII. -/
theorem not_differOutsideAscii {a b : String} (h : eqIgnoreCase a b = true) :
    ¬ DifferOutsideAscii a b := by
  rintro ⟨place, c, hc, hdiffer⟩
  have hfold : a.toList.map foldChar = b.toList.map foldChar := (eqIgnoreCaseChars_iff _ _).mp h
  rw [← getElem?_map_foldChar hc a.toList, ← getElem?_map_foldChar hc b.toList, hfold] at hdiffer
  exact iff_not_self hdiffer

end Name
end Caseless
