import Caseless.Json.Reader
import Caseless.Json.Writer
import Caseless.Proofs.Data.Copying
import Caseless.Proofs.Shape.Outcome
import Mathlib.Data.List.TakeDrop

/-!
# Strings and numbers in JSON

A string is written between quotes with some of its characters escaped, and a whole number in
decimal.  Either is read back from the text that it is written as, and what follows it in the text
is left over.  A string ends at its closing quote whatever follows; a number ends where no digit,
point or exponent follows.

Main results:

- Theorem `Json.readChars_flatMap_writeChar`: a string of any characters is read back;
- Definition `Json.EndsValue`: what can follow a value;
- Theorem `Json.readNumber_writeInt`: an integer in the range of a value's integers is read back.
-/

namespace Caseless
namespace Json

/-! ## Strings -/

/-- A control character is written with two hexadecimal digits, which are read back as its code. -/
theorem hexByte_of_lt {n : Nat} (h : n < 32) :
    Text.hexByte n.toUInt8 = [Nat.digitChar (n / 16), Nat.digitChar (n % 16)] ∧
      unit? '0' '0' (Nat.digitChar (n / 16)) (Nat.digitChar (n % 16)) = some n := by
  have hall : ∀ n : Fin 32,
      Text.hexByte n.val.toUInt8 = [Nat.digitChar (n / 16), Nat.digitChar (n % 16)] ∧
        unit? '0' '0' (Nat.digitChar (n / 16)) (Nat.digitChar (n % 16)) = some n.val := by
    decide
  exact hall ⟨n, h⟩

/-- One character is read back. -/
theorem readChars_writeChar (c : Char) (cs : List Char) :
    readChars (writeChar c ++ cs) = (readChars cs).map fun (text, rest) => (c :: text, rest) := by
  unfold writeChar
  split
  · subst_vars; rfl
  split
  · subst_vars; rfl
  split
  · subst_vars; rfl
  split
  · subst_vars; rfl
  split
  · subst_vars; rfl
  split
  · rename_i hcode
    have hc : c = Char.ofNat 8 := by rw [← hcode, Char.ofNat_toNat]
    subst hc; rfl
  split
  · rename_i hcode
    have hc : c = Char.ofNat 12 := by rw [← hcode, Char.ofNat_toNat]
    subst hc; rfl
  split
  · rename_i hcontrol
    obtain ⟨hdigits, hunit⟩ := hexByte_of_lt hcontrol
    have htrailing : isTrailing c.toNat = false := by
      simp [isTrailing]; omega
    have hleading : isLeading c.toNat = false := by
      simp [isLeading]; omega
    rw [hdigits]
    simp only [List.cons_append, List.nil_append, readChars, hunit, htrailing, hleading,
      Bool.false_eq_true, if_false, Char.ofNat_toNat]
  · rename_i _ hbackslash _ _ _ _ _ hcontrol
    simp [readChars, hbackslash, hcontrol]

/-- Any characters are read back, up to the quote that closes them. -/
theorem readChars_flatMap_writeChar (cs rest : List Char) :
    readChars (cs.flatMap writeChar ++ '"' :: rest) = .ok (cs, rest) := by
  induction cs with
  | nil => rfl
  | cons c cs ih =>
    rw [List.flatMap_cons, List.append_assoc, readChars_writeChar, ih]
    rfl

/-- A string is read back after its opening quote. -/
theorem readString_writeText (text : String) (rest : List Char) :
    ∃ inner, writeText text = '"' :: inner ∧ readString (inner ++ rest) = .ok (text, rest) := by
  refine ⟨text.toList.flatMap writeChar ++ ['"'], rfl, ?_⟩
  rw [List.append_assoc, List.singleton_append, readString, readChars_flatMap_writeChar]
  simp [Except.map]

/-! ## Whole numbers -/

/-- What can follow a value in a text: nothing, or what ends an item or a container. -/
def EndsValue (rest : List Char) : Prop :=
  ∀ c, rest.head? = some c → c = ',' ∨ c = ']' ∨ c = '\x7d'

/-- The digits of a positive number do not start with a zero. -/
theorem head?_toDigits_ne_zero {n : Nat} (h : 0 < n) : (Nat.toDigits 10 n).head? ≠ some '0' := by
  induction n using Nat.strongRecOn with
  | ind n ih =>
    rw [Nat.toDigits_eq_if (by decide)]
    by_cases hsmall : n < 10
    · rw [if_pos hsmall]
      simpa using Nat.ne_of_gt h
    · have hfront := ih (n / 10) (by omega) (by omega)
      rw [if_neg hsmall, List.head?_append]
      cases hhead : (Nat.toDigits 10 (n / 10)).head? with
      | none => exact absurd (List.head?_eq_none_iff.mp hhead) Nat.toDigits_ne_nil
      | some d => rwa [hhead] at hfront

/-- The digits of a number are read back as the number. -/
theorem numberOf_toDigits (n : Nat) : numberOf (Nat.toDigits 10 n) = n := by
  have hfold : numberOf (Nat.toDigits 10 n) = Nat.ofDigitChars 10 (Nat.toDigits 10 n) 0 := by
    rw [Nat.ofDigitChars_eq_foldl, numberOf]
    congr 1
    funext sum c
    rw [Nat.mul_comm]
  rw [hfold, Nat.ofDigitChars_ten_toDigits]

/-- A number has a first digit. -/
theorem exists_toDigits_eq_cons (n : Nat) :
    ∃ d ds, Nat.toDigits 10 n = d :: ds ∧ d.isDigit = true := by
  cases hdigits : Nat.toDigits 10 n with
  | nil => exact absurd hdigits Nat.toDigits_ne_nil
  | cons d ds =>
    exact ⟨d, ds, rfl,
      Nat.isDigit_of_mem_toDigits (by decide) (by decide) (hdigits ▸ List.mem_cons_self)⟩

/-- The digits of a number are taken off a text up to where it ends. -/
theorem readDigits_toDigits (n : Nat) {rest : List Char} (hrest : EndsValue rest) :
    readDigits (Nat.toDigits 10 n ++ rest) = .ok (Nat.toDigits 10 n, rest) := by
  have hdigits : ∀ c ∈ Nat.toDigits 10 n, c.isDigit = true := fun c hmem =>
    Nat.isDigit_of_mem_toDigits (by decide) (by decide) hmem
  have hspan : (Nat.toDigits 10 n ++ rest).span Char.isDigit = (Nat.toDigits 10 n, rest) := by
    rw [List.span_eq_takeWhile_dropWhile, List.takeWhile_append_of_pos hdigits,
      List.dropWhile_append_of_pos hdigits]
    cases rest with
    | nil => simp
    | cons c rest => rcases hrest c rfl with rfl | rfl | rfl <;> simp
  obtain ⟨d, ds, hcons, -⟩ := exists_toDigits_eq_cons n
  rw [readDigits, hspan, hcons]

/-- No digit but a single zero starts with a zero, so the digits of a number can stand before a
point. -/
theorem readWhole_toDigits (n : Nat) {rest : List Char} (hrest : EndsValue rest) :
    readWhole (Nat.toDigits 10 n ++ rest) = .ok (Nat.toDigits 10 n, rest) := by
  have hzero : ∀ d ds, Nat.toDigits 10 n ≠ '0' :: d :: ds := by
    intro d ds heq
    rcases Nat.eq_zero_or_pos n with rfl | hpos
    · simp at heq
    · exact head?_toDigits_ne_zero hpos (by rw [heq]; rfl)
  rw [readWhole, readDigits_toDigits n hrest, ok_bind]
  generalize Nat.toDigits 10 n = digits at hzero
  dsimp only
  split
  · exact absurd rfl (hzero _ _)
  · rfl

/-- Where a value ends there is neither a fraction nor an exponent. -/
theorem EndsValue.readRest {rest : List Char} (h : EndsValue rest) :
    readFraction rest = .ok (none, rest) ∧ readExponent rest = .ok (none, rest) := by
  cases rest with
  | nil => exact ⟨rfl, rfl⟩
  | cons c rest => rcases h c rfl with rfl | rfl | rfl <;> exact ⟨rfl, rfl⟩

/-- A whole number is written as its sign and its digits. -/
theorem writeInt_eq (n : Int) :
    writeInt n = (if n < 0 then ['-'] else []) ++ Nat.toDigits 10 n.natAbs := by
  rw [writeInt, Int.toString_eq_repr, Int.repr_eq_if]
  by_cases hn : n < 0
  · rw [if_neg (Int.not_le.mpr hn), if_pos hn, String.toList_append, Nat.toList_repr,
      show (-n).toNat = n.natAbs by omega]
    rfl
  · rw [if_pos (Int.not_lt.mp hn), if_neg hn, Nat.toList_repr,
      show n.toNat = n.natAbs by omega]
    rfl

/-- The sign of a whole number is taken off its text. -/
theorem readSign_writeInt (n : Int) (rest : List Char) :
    readSign false (writeInt n ++ rest) = (decide (n < 0), Nat.toDigits 10 n.natAbs ++ rest) := by
  rw [writeInt_eq]
  by_cases hn : n < 0
  · simp [hn, readSign]
  · obtain ⟨d, ds, hdigits, hd⟩ := exists_toDigits_eq_cons n.natAbs
    have hminus : d ≠ '-' := by rintro rfl; contradiction
    have hplus : d ≠ '+' := by rintro rfl; contradiction
    simp [hn, hdigits, readSign, hminus, hplus]

/-- A whole number is read back as it is written. -/
theorem readNumeral_writeInt (n : Int) {rest : List Char} (hrest : EndsValue rest) :
    readNumeral (writeInt n ++ rest) =
      .ok (⟨n < 0, Nat.toDigits 10 n.natAbs, none, none⟩, rest) := by
  obtain ⟨hfraction, hexponent⟩ := hrest.readRest
  simp only [readNumeral, readSign_writeInt, readWhole_toDigits n.natAbs hrest, ok_bind, hfraction,
    hexponent]
  rfl

/-- A number that is an integer of a value stands for it, with a sign or without. -/
theorem Numeral.value_toDigits {n : Int} {m : Int64} (h : intOf? n = some m) :
    Numeral.value ⟨n < 0, Nat.toDigits 10 n.natAbs, none, none⟩ = .ok (.scalar (.int m)) := by
  have hi64 : IntType.i64.fits n = true := by
    by_contra hfits
    rw [intOf?, if_neg hfits] at h
    contradiction
  have hread : ∀ type : IntType, type.isWide = false →
      (Data.read (.int type n)).mapError Fault.data = .ok (.scalar (.int m)) := by
    intro type hwide
    rw [Data.read, Data.readInt, hwide, if_neg Bool.false_ne_true, h]
    rfl
  by_cases hn : n < 0
  · have hsize : -(n.natAbs : Int) = n := by omega
    have hzero : ((n.natAbs : Int) == 0) = false := by
      rw [beq_eq_false_iff_ne]
      omega
    simp only [value, numberOf_toDigits, hn, decide_true, if_true, hsize, hi64, hzero,
      Bool.and_false, Bool.not_false, Bool.and_self, hread .i64 rfl]
  · have hsize : (n.natAbs : Int) = n := by omega
    have hu64 : IntType.u64.fits n = true := by
      simp [IntType.fits, IntType.least, IntType.greatest, IntType.isSigned, IntType.bits] at hi64 ⊢
      omega
    simp only [value, numberOf_toDigits, hn, decide_false, Bool.false_eq_true, if_false, hsize,
      hu64, Bool.false_and, Bool.not_false, Bool.and_self, if_true, hread .u64 rfl]

/-- An integer of a value is read back. -/
theorem readNumber_writeInt (n : Int64) {rest : List Char} (hrest : EndsValue rest) :
    readNumber (writeInt n.toInt ++ rest) = .ok (.scalar (.int n), rest) := by
  rw [readNumber, readNumeral_writeInt n.toInt hrest, ok_bind]
  change (Numeral.value _ >>= fun value => pure (value, rest)) = _
  rw [Numeral.value_toDigits (Data.intOf?_toInt n)]
  rfl

end Json
end Caseless
