import Caseless.Proofs.Name.Folding

/-!
# Folding byte by byte

Names are kept in UTF-8, and can be folded and compared without being decoded: a byte that is the
code of a capital is lowered, and every other byte stays.  A character outside ASCII is encoded by
bytes above 127 alone, none of which is the code of a letter, so lowering bytes lowers exactly the
capitals and leaves a name in UTF-8.  Two names fold alike exactly when they have equally many bytes
and these agree, one by one, up to the case of letters.

Main definitions:

- `foldBytes`: bytes with the capitals lowered;
- `BytesAgree`: the comparison ignoring case, byte by byte;
- `foldInBytes`: folding by bytes, where a name without capitals is handed back as it is;
- `CaseNormalForm`: what folding does to a name.

Main results:

- Theorem `bytesAgree_iff`: bytes agree up to case exactly when they are lowered to the same bytes;
- Theorem `foldBytes_utf8Encode`: lowering the bytes of characters folds the characters;
- Theorem `foldInBytes_eq`: folding by bytes is folding by characters;
- Theorem `caseNormalForm`: folding is the normal form of the comparison ignoring case.
-/

namespace Caseless
namespace Name

/-! ## Bytes -/

/-- Whether a byte is the code of an ASCII capital. -/
def isCapitalByte (byte : UInt8) : Bool :=
  65 ≤ byte && byte ≤ 90

/-- The code of the small letter of an ASCII capital; any other byte as it is. -/
def foldByte (byte : UInt8) : UInt8 :=
  if isCapitalByte byte then byte + 32 else byte

/-- Bytes with the capitals among them lowered. -/
def foldBytes (bytes : ByteArray) : ByteArray :=
  ⟨bytes.data.map foldByte⟩

/-- Two bytes are the same, or one is the code of a capital and the other of its small letter. -/
def AgreeUpToCase (byte other : UInt8) : Prop :=
  byte = other ∨ (isCapitalByte byte = true ∧ other = byte + 32) ∨
    (isCapitalByte other = true ∧ byte = other + 32)

/-- There are equally many bytes, and they agree one by one up to the case of letters. -/
structure BytesAgree (bytes others : ByteArray) : Prop where
  size_eq : bytes.size = others.size
  agree : ∀ (place : Nat) (h : place < bytes.size) (h' : place < others.size),
    AgreeUpToCase bytes[place] others[place]

theorem isCapitalByte_iff (byte : UInt8) :
    isCapitalByte byte = true ↔ 65 ≤ byte.toNat ∧ byte.toNat ≤ 90 := by
  simp [isCapitalByte, UInt8.le_iff_toNat_le]

/-- No byte above 127 is the code of a letter. -/
theorem isCapitalByte_of_lt {byte : UInt8} (h : 127 < byte.toNat) : isCapitalByte byte = false := by
  rw [← Bool.not_eq_true, isCapitalByte_iff]
  omega

theorem foldByte_of_lt {byte : UInt8} (h : 127 < byte.toNat) : foldByte byte = byte := by
  simp [foldByte, isCapitalByte_of_lt h]

theorem foldByte_toNat (byte : UInt8) :
    (foldByte byte).toNat = if isCapitalByte byte then byte.toNat + 32 else byte.toNat := by
  unfold foldByte
  split
  · rename_i hcapital
    have hcode := (isCapitalByte_iff byte).mp hcapital
    rw [UInt8.toNat_add, show (32 : UInt8).toNat = 32 from rfl]
    omega
  · rfl

/-- Two bytes agree up to case exactly when they are lowered to one byte. -/
theorem agreeUpToCase_iff (byte other : UInt8) :
    AgreeUpToCase byte other ↔ foldByte byte = foldByte other := by
  unfold AgreeUpToCase
  simp only [← UInt8.toNat_inj, foldByte_toNat, isCapitalByte_iff, UInt8.toNat_add,
    UInt8.reduceToNat]
  split <;> split <;> omega

@[simp]
theorem size_foldBytes (bytes : ByteArray) : (foldBytes bytes).size = bytes.size :=
  Array.size_map

theorem getElem_foldBytes {bytes : ByteArray} {place : Nat} (h : place < bytes.size)
    (h' : place < (foldBytes bytes).size) :
    (foldBytes bytes)[place] = foldByte bytes[place] := by
  simp [ByteArray.getElem_eq_getElem_data, foldBytes]

/-- Bytes agree up to case exactly when they are lowered to the same bytes. -/
theorem bytesAgree_iff (bytes others : ByteArray) :
    BytesAgree bytes others ↔ foldBytes bytes = foldBytes others := by
  constructor
  · rintro ⟨hsize, hagree⟩
    refine ByteArray.ext_getElem (by rw [size_foldBytes, size_foldBytes, hsize]) ?_
    intro place h h'
    rw [size_foldBytes] at h h'
    rw [getElem_foldBytes h, getElem_foldBytes h', ← agreeUpToCase_iff]
    exact hagree place h h'
  · intro heq
    have hsize : bytes.size = others.size := by
      rw [← size_foldBytes bytes, heq, size_foldBytes]
    refine ⟨hsize, ?_⟩
    intro place h h'
    rw [agreeUpToCase_iff, ← getElem_foldBytes h (by rwa [size_foldBytes]),
      ← getElem_foldBytes h' (by rwa [size_foldBytes])]
    simp only [heq]

/-! ## The bytes of a character -/

/-- No character outside ASCII is a capital. -/
theorem isCapital_of_lt {c : Char} (h : 127 < c.toNat) : isCapital c = false := by
  rw [← Bool.not_eq_true, isCapital_iff]
  omega

/-- Folding makes ASCII of ASCII. -/
theorem foldChar_toNat_le {c : Char} (h : c.toNat ≤ 127) : (foldChar c).toNat ≤ 127 := by
  rw [foldChar_toNat]
  split
  · rename_i hcapital
    have hcode := (isCapital_iff c).mp hcapital
    omega
  · exact h

theorem utf8EncodeChar_of_ascii {c : Char} (h : c.toNat ≤ 127) :
    String.utf8EncodeChar c = [UInt8.ofNat c.toNat] := by
  unfold String.utf8EncodeChar
  exact if_pos h

/-- A character outside ASCII is encoded by bytes above 127 alone. -/
theorem lt_of_mem_utf8EncodeChar {c : Char} (h : 127 < c.toNat) {byte : UInt8}
    (hbyte : byte ∈ String.utf8EncodeChar c) : 127 < byte.toNat := by
  -- Each of the bytes is a marker above 127 and a part of the code that does not carry over it.
  have hmarked : ∀ part marker, part + marker < 256 → 127 < marker →
      byte = UInt8.ofNat (part + marker) → 127 < byte.toNat := by
    rintro part marker hlt hmarker rfl
    rw [UInt8.toNat_ofNat_of_lt' hlt]
    omega
  have hcode : ¬ c.val.toNat ≤ 127 := Nat.not_le.mpr h
  unfold String.utf8EncodeChar at hbyte
  simp only [hcode, if_false] at hbyte
  split at hbyte
  · simp only [List.mem_cons, List.not_mem_nil, or_false] at hbyte
    rcases hbyte with hbyte | hbyte <;> exact hmarked _ _ (by omega) (by omega) hbyte
  · split at hbyte
    · simp only [List.mem_cons, List.not_mem_nil, or_false] at hbyte
      rcases hbyte with hbyte | hbyte | hbyte <;> exact hmarked _ _ (by omega) (by omega) hbyte
    · simp only [List.mem_cons, List.not_mem_nil, or_false] at hbyte
      rcases hbyte with hbyte | hbyte | hbyte | hbyte <;>
        exact hmarked _ _ (by omega) (by omega) hbyte

theorem isCapitalByte_ofNat {c : Char} (h : c.toNat ≤ 127) :
    isCapitalByte (UInt8.ofNat c.toNat) = isCapital c := by
  have hsize : c.toNat < UInt8.size := Nat.lt_of_le_of_lt h (by decide)
  rw [Bool.eq_iff_iff, isCapitalByte_iff, isCapital_iff, UInt8.toNat_ofNat_of_lt' hsize]

/-- A character is a capital exactly when one of its bytes is the code of one. -/
theorem any_isCapitalByte_utf8EncodeChar (c : Char) :
    (String.utf8EncodeChar c).any isCapitalByte = isCapital c := by
  rcases Nat.lt_or_ge 127 c.toNat with houtside | hascii
  · rw [isCapital_of_lt houtside, List.any_eq_false]
    intro byte hbyte
    rw [isCapitalByte_of_lt (lt_of_mem_utf8EncodeChar houtside hbyte)]
    exact Bool.false_ne_true
  · rw [utf8EncodeChar_of_ascii hascii, List.any_cons, List.any_nil, Bool.or_false,
      isCapitalByte_ofNat hascii]

/-- Lowering the bytes of a character gives the bytes of the folded character. -/
theorem map_foldByte_utf8EncodeChar (c : Char) :
    (String.utf8EncodeChar c).map foldByte = String.utf8EncodeChar (foldChar c) := by
  rcases Nat.lt_or_ge 127 c.toNat with houtside | hascii
  · have hkept : ∀ byte ∈ String.utf8EncodeChar c, foldByte byte = id byte := by
      intro byte hbyte
      exact foldByte_of_lt (lt_of_mem_utf8EncodeChar houtside hbyte)
    rw [foldChar_eq_self (isCapital_of_lt houtside), List.map_congr_left hkept, List.map_id]
  · have hbyte : foldByte (UInt8.ofNat c.toNat) = UInt8.ofNat (foldChar c).toNat := by
      rw [foldChar_toNat, foldByte, isCapitalByte_ofNat hascii]
      split
      · rw [UInt8.ofNat_add]
        rfl
      · rfl
    rw [utf8EncodeChar_of_ascii hascii, utf8EncodeChar_of_ascii (foldChar_toNat_le hascii),
      List.map_singleton, hbyte]

/-! ## The bytes of a name -/

/-- Lowering the bytes of characters folds the characters. -/
theorem foldBytes_utf8Encode (cs : List Char) :
    foldBytes cs.utf8Encode = (cs.map foldChar).utf8Encode := by
  have hbytes : (cs.flatMap String.utf8EncodeChar).map foldByte =
      (cs.map foldChar).flatMap String.utf8EncodeChar := by
    rw [List.map_flatMap, List.flatMap_map]
    simp only [map_foldByte_utf8EncodeChar]
  refine ByteArray.ext ?_
  rw [List.utf8Encode, List.utf8Encode, ← hbytes, foldBytes, List.data_toByteArray,
    List.data_toByteArray, List.map_toArray]

theorem toUTF8_eq_utf8Encode (name : String) : name.toUTF8 = name.toList.utf8Encode := by
  rw [String.toUTF8_eq_toByteArray, ← String.toByteArray_ofList, String.ofList_toList]

/-- The bytes of a folded name are the lowered bytes of the name. -/
theorem toUTF8_foldCase (name : String) : (foldCase name).toUTF8 = foldBytes name.toUTF8 := by
  rw [toUTF8_eq_utf8Encode, toUTF8_eq_utf8Encode, foldBytes_utf8Encode, foldCase_toList]

/-- A name has a capital exactly when one of its bytes is the code of one. -/
theorem any_isCapitalByte_toUTF8 (name : String) :
    name.toUTF8.data.any isCapitalByte = needsFolding name := by
  rw [toUTF8_eq_utf8Encode, List.utf8Encode, List.data_toByteArray, List.any_toArray,
    List.any_flatMap, needsFolding]
  simp only [any_isCapitalByte_utf8EncodeChar]

/-- The lowered bytes of a name are UTF-8. -/
theorem isValidUTF8_foldBytes (name : String) : (foldBytes name.toUTF8).IsValidUTF8 :=
  toUTF8_foldCase name ▸ (foldCase name).isValidUTF8

/-- A folded name: the name itself, or a new one. -/
inductive Folded where
  | borrowed (name : String)
  | owned (name : String)

/-- The text of a folded name, whichever of the two it is. -/
def Folded.text : Folded → String
  | .borrowed name => name
  | .owned name => name

/-- The name whose bytes are the lowered bytes of a name. -/
def loweredInBytes (name : String) : String :=
  .fromUTF8 (foldBytes name.toUTF8) (isValidUTF8_foldBytes name)

/-- Folds a name by its bytes: if one of them is the code of a capital, a new name is made of the
lowered bytes, and otherwise the name is handed back. -/
def foldInBytes (name : String) : Folded :=
  if name.toUTF8.data.any isCapitalByte then .owned (loweredInBytes name) else .borrowed name

theorem loweredInBytes_eq (name : String) : loweredInBytes name = lowered name := by
  rw [← foldCase_eq_lowered, ← String.toByteArray_inj]
  exact (toUTF8_foldCase name).symm

/-- Folding by bytes is folding by characters, and takes the shortcut for the same names. -/
theorem foldInBytes_eq (name : String) :
    foldInBytes name =
      if needsFolding name then .owned (foldCase name) else .borrowed (foldCase name) := by
  rw [foldInBytes, any_isCapitalByte_toUTF8, loweredInBytes_eq]
  split
  · rw [foldCase_eq_lowered]
  · rename_i h
    rw [foldCase_eq_self (by simpa using h)]

example : foldInBytes "ÄBC" = .owned "Äbc" := by cbv

example : foldInBytes "straße" = .borrowed "straße" := by cbv

/-! ## The normal form -/

/-- Two names fold alike exactly when their bytes agree up to the case of letters. -/
theorem foldCase_eq_iff_bytesAgree (name other : String) :
    foldCase name = foldCase other ↔ BytesAgree name.toUTF8 other.toUTF8 := by
  rw [bytesAgree_iff, ← toUTF8_foldCase, ← toUTF8_foldCase]
  exact String.toByteArray_inj.symm

/-- A name is brought by folding to the normal form of the comparison ignoring case. -/
structure CaseNormalForm (name : String) : Prop where
  /-- Names with the same form are those of equally many bytes that agree up to case. -/
  alike_iff : ∀ other, foldCase name = foldCase other ↔ BytesAgree name.toUTF8 other.toUTF8
  /-- They are also those that match ignoring case, character by character. -/
  matches_iff : ∀ other, eqIgnoreCase name other = true ↔ BytesAgree name.toUTF8 other.toUTF8
  idempotent : foldCase (foldCase name) = foldCase name
  utf8ByteSize_eq : (foldCase name).utf8ByteSize = name.utf8ByteSize
  /-- A character outside ASCII stays in its place, and no new one appears. -/
  outsideAscii : ∀ (place : Nat) (c : Char), 127 < c.toNat →
    ((foldCase name).toList[place]? = some c ↔ name.toList[place]? = some c)
  /-- The lowered bytes are UTF-8, and they are the bytes of the folded name. -/
  valid : (foldBytes name.toUTF8).IsValidUTF8
  toUTF8_eq : (foldCase name).toUTF8 = foldBytes name.toUTF8
  /-- A byte above 127 is part of a character outside ASCII, and stays. -/
  highBytes : ∀ (place : Nat) (h : place < (foldCase name).toUTF8.size)
    (h' : place < name.toUTF8.size), 127 < name.toUTF8[place].toNat →
      (foldCase name).toUTF8[place] = name.toUTF8[place]
  toList_eq : (foldCase name).toList = name.toList.map foldChar
  append_eq : ∀ other, foldCase (name ++ other) = foldCase name ++ foldCase other
  /-- Folding by bytes hands back the name itself exactly when lowering would change nothing. -/
  borrowed_iff : (∃ text, foldInBytes name = .borrowed text) ↔ loweredInBytes name = name
  /-- Whichever of the two it hands back, the text is that of the lowered name. -/
  text_eq : (foldInBytes name).text = loweredInBytes name
  /-- It takes the shortcut when folding by characters does, and they give the same text. -/
  inBytes_eq : foldInBytes name =
    if needsFolding name then .owned (foldCase name) else .borrowed (foldCase name)

/-- Folding is the normal form of the comparison ignoring case. -/
theorem caseNormalForm (name : String) : CaseNormalForm name where
  alike_iff := foldCase_eq_iff_bytesAgree name
  matches_iff other := by rw [eqIgnoreCase_iff, foldCase_eq_iff_bytesAgree]
  idempotent := foldCase_foldCase name
  utf8ByteSize_eq := by
    have hsize : (foldCase name).toUTF8.size = name.toUTF8.size := by
      rw [toUTF8_foldCase, size_foldBytes]
    exact hsize
  outsideAscii place c hc := by rw [foldCase_toList, getElem?_map_foldChar hc]
  valid := isValidUTF8_foldBytes name
  toUTF8_eq := toUTF8_foldCase name
  highBytes place h h' hhigh := by
    have hbyte := getElem_foldBytes h' (by rwa [size_foldBytes])
    rw [foldByte_of_lt hhigh] at hbyte
    simpa only [toUTF8_foldCase] using hbyte
  toList_eq := foldCase_toList name
  append_eq := foldCase_append name
  borrowed_iff := by
    rw [foldInBytes_eq, loweredInBytes_eq, foldCase_eq_lowered, ← needsFolding_eq_false_iff]
    cases needsFolding name <;> simp
  text_eq := by
    rw [foldInBytes_eq, loweredInBytes_eq, foldCase_eq_lowered]
    split <;> rfl
  inBytes_eq := foldInBytes_eq name

end Name
end Caseless
