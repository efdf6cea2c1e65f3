import Caseless.Data.Read

/-!
# Taking data as values

Data become values in two ways: a program's own data are encoded, and data that a format offers are
read.  The two check integers and keys by rules of their own, and each gives up at the first datum
that it cannot take.  On the data that both know they agree: they give the same value, or both fail.
They fail at the same datum, and with the same failure unless that is an integer which is too large
for a value; each has its own words for that.

Main results:

- Definitions `Data.PartOf` and `Data.Common`: the parts of a datum at any depth, and the data that
  both ways know;
- Definition `Data.Match` and Theorem `Data.Match.bind`: outcomes of the two ways, and what becomes
  of them in later steps;
- Theorem `Data.match_common`: the outcomes of common data match;
- Theorem `Data.encode_agrees_read`: both ways give the same value, or both fail.
-/

namespace Caseless
namespace Data

/-! ## Parts of a datum -/

/-- What a datum is directly made of, keys of maps included. -/
def children : Data → List Data
  | .some datum | .newtypeStruct datum | .newtypeVariant _ datum => [datum]
  | .seq _ elements | .tupleOf _ elements | .tupleStructOf _ elements
  | .tupleVariantOf _ _ elements => elements
  | .map _ entries => entries.flatMap fun entry => [entry.1, entry.2]
  | .mapStepsOf _ steps => steps.map fun
    | .key datum | .value datum => datum
  | .structOf _ fields | .structVariantOf _ _ fields => fields.map (·.2)
  | _ => []

/-- A datum is a part of itself, and so is every part of what it is made of. -/
inductive PartOf (part : Data) : Data → Prop where
  | self : PartOf part part
  | child {datum child : Data} (hchild : child ∈ datum.children) (hpart : PartOf part child) :
    PartOf part datum

/-! ## Data that both ways know -/

/-- Text as a map key. -/
inductive IsText : Data → Prop where
  | str (s : String) : IsText (.str s)
  | char (c : Char) : IsText (.char c)

/-- Data that can be encoded as well as offered by a format: without variants of enumerations, with
integers of 64 bits at most, and with text as the keys of maps.  Some of them may be failures. -/
inductive Common : Data → Prop where
  | none : Common .none
  | unit : Common .unit
  | bool (b : Bool) : Common (.bool b)
  | int {type : IntType} {n : Int} (hwide : type.isWide = false) (hfits : type.fits n = true) :
    Common (.int type n)
  | f32 (x : Float32) : Common (.f32 x)
  | f64 (x : Float) : Common (.f64 x)
  | char (c : Char) : Common (.char c)
  | str (s : String) : Common (.str s)
  | bytes (payload : ByteArray) : Common (.bytes payload)
  | some {datum : Data} (h : Common datum) : Common (.some datum)
  | newtypeStruct {datum : Data} (h : Common datum) : Common (.newtypeStruct datum)
  | seq (announced : Option Nat) {elements : List Data} (h : ∀ element ∈ elements, Common element) :
    Common (.seq announced elements)
  | map (announced : Option Nat) {entries : List (Data × Data)}
    (hkeys : ∀ entry ∈ entries, IsText entry.1) (hvalues : ∀ entry ∈ entries, Common entry.2) :
    Common (.map announced entries)
  | fail (text : String) : Common (.fail text)

/-- An integer of at most 64 bits is in the range of a value's integers, or it has no sign and is
too large. -/
theorem fits_i64_or_tooLarge {type : IntType} {n : Int} (hwide : type.isWide = false)
    (hfits : type.fits n = true) :
    IntType.i64.fits n = true ∨ type = .u64 ∧ IntType.i64.greatest < n := by
  cases type <;>
    simp [IntType.isWide, IntType.fits, IntType.least, IntType.greatest, IntType.isSigned,
      IntType.bits] at hwide hfits ⊢ <;> omega

/-- Text is the same key for both ways. -/
theorem IsText.exists_key {key : Data} (h : key.IsText) :
    ∃ name, key.key = .ok name ∧ key.readKey = .ok name := by
  cases h with
  | str s => exact ⟨s, rfl, rfl⟩
  | char c => exact ⟨String.singleton c, rfl, rfl⟩

/-! ## Outcomes -/

/-- The outcomes of encoding and of reading match: one result, or one failure, or the two failures
at a certain integer that is too large for a value. -/
inductive Match {α : Type} (tooLarge : Int → Prop) : Except Error α → Except Error α → Prop where
  | ok (result : α) : Match tooLarge (.ok result) (.ok result)
  | error (failure : Error) : Match tooLarge (.error failure) (.error failure)
  | tooLarge {n : Int} (h : tooLarge n) :
    Match tooLarge (.error (.integerTooWide n)) (.error (.invalidValue (.integer n) "any value"))

namespace Match

variable {α β : Type} {tooLarge tooLarge' : Int → Prop} {x y : Except Error α}

theorem mono (h : Match tooLarge x y) (hle : ∀ n, tooLarge n → tooLarge' n) :
    Match tooLarge' x y := by
  cases h with
  | ok result => exact .ok result
  | error failure => exact .error failure
  | tooLarge h => exact .tooLarge (hle _ h)

/-- Outcomes that match are continued by steps whose outcomes match; after a failure there is no
step. -/
theorem bind (h : Match tooLarge x y) {f g : α → Except Error β}
    (hnext : ∀ result, Match tooLarge (f result) (g result)) :
    Match tooLarge (x >>= f) (y >>= g) := by
  cases h with
  | ok result => exact hnext result
  | error failure => exact .error failure
  | tooLarge h => exact .tooLarge h

theorem map (h : Match tooLarge x y) (f : α → β) : Match tooLarge (x.map f) (y.map f) := by
  cases h with
  | ok result => exact .ok (f result)
  | error failure => exact .error failure
  | tooLarge h => exact .tooLarge h

end Match

/-! ## Encoding and reading side by side -/

section

variable {tooLarge : Int → Prop}

theorem match_elements {elements : List Data}
    (h : ∀ element ∈ elements, Match tooLarge element.encode element.read) :
    Match tooLarge (encodeElements elements) (readElements elements) := by
  induction elements with
  | nil => exact .ok []
  | cons element rest ih =>
    obtain ⟨helement, hrest⟩ := List.forall_mem_cons.mp h
    rw [encodeElements_cons, readElements]
    refine helement.bind fun value => ?_
    exact (ih hrest).bind fun values => .ok (value :: values)

theorem match_entries {entries : List (Data × Data)} (hkeys : ∀ entry ∈ entries, IsText entry.1)
    (hvalues : ∀ entry ∈ entries, Match tooLarge entry.2.encode entry.2.read) :
    Match tooLarge (encodeEntries entries) (readEntries entries) := by
  induction entries with
  | nil => exact .ok []
  | cons entry rest ih =>
    obtain ⟨key, datum⟩ := entry
    obtain ⟨hkey, hkeys⟩ := List.forall_mem_cons.mp hkeys
    obtain ⟨hvalue, hvalues⟩ := List.forall_mem_cons.mp hvalues
    obtain ⟨name, hencode, hread⟩ := hkey.exists_key
    rw [encodeEntries_cons, readEntries, hencode, hread]
    refine (Match.ok name).bind fun name => ?_
    refine hvalue.bind fun value => ?_
    exact (ih hkeys hvalues).bind fun fields => .ok ((name, value) :: fields)

end

/-- A part of a datum is an integer without a sign that is too large for a value. -/
def TooLargeIn (datum : Data) (n : Int) : Prop :=
  (Data.int .u64 n).PartOf datum ∧ IntType.i64.greatest < n

theorem TooLargeIn.of_child {datum child : Data} (hchild : child ∈ datum.children) (n : Int)
    (h : child.TooLargeIn n) : datum.TooLargeIn n :=
  ⟨.child hchild h.1, h.2⟩

theorem match_int {type : IntType} {n : Int} (hwide : type.isWide = false)
    (hfits : type.fits n = true) :
    Match (TooLargeIn (.int type n)) (encode (.int type n)) (read (.int type n)) := by
  rw [encode_int, read, Value.ofInt, readInt, hwide, if_neg Bool.false_ne_true]
  rcases fits_i64_or_tooLarge hwide hfits with hi64 | ⟨rfl, hlarge⟩
  · rw [intOf?, if_pos hi64]
    exact .ok _
  · have hi64 : ¬ IntType.i64.fits n = true := by
      simp [IntType.fits, Int.not_le.mpr hlarge]
    rw [intOf?, if_neg hi64]
    exact .tooLarge ⟨.self, hlarge⟩

/-- On common data the outcomes of encoding and reading match. -/
theorem match_common {datum : Data} (h : datum.Common) :
    Match datum.TooLargeIn datum.encode datum.read := by
  induction h with
  | none => exact .ok Value.null
  | unit => exact .ok Value.null
  | bool b => exact .ok _
  | int hwide hfits => exact match_int hwide hfits
  | f32 x => exact .ok _
  | f64 x => exact .ok _
  | char c => exact .ok _
  | str s => exact .ok _
  | bytes payload => exact .ok _
  | fail text => exact .error _
  | some _ ih =>
    exact ih.mono (TooLargeIn.of_child List.mem_cons_self)
  | newtypeStruct _ ih =>
    exact ih.mono (TooLargeIn.of_child List.mem_cons_self)
  | seq announced _ ih =>
    rw [encode_seq, read]
    refine Match.map (match_elements ?_) _
    intro element hmem
    exact (ih element hmem).mono (TooLargeIn.of_child hmem)
  | map announced hkeys _ ih =>
    rw [encode_map, read]
    refine Match.map (match_entries hkeys ?_) _
    intro entry hmem
    refine (ih entry hmem).mono (TooLargeIn.of_child ?_)
    exact List.mem_flatMap.mpr ⟨entry, hmem, by simp⟩

/-- Encoding a datum and reading it when it is offered give the same value, or both fail.  Without
integers that are too large for a value the failures are the same too; and where they differ, both
are at one such integer. -/
theorem encode_agrees_read {datum : Data} (h : datum.Common) :
    ((∃ value, datum.encode = .ok value ∧ datum.read = .ok value) ∨
        ∃ failure failure', datum.encode = .error failure ∧ datum.read = .error failure') ∧
      ((∀ n, (Data.int .u64 n).PartOf datum → n ≤ IntType.i64.greatest) →
        datum.encode = datum.read) ∧
      (datum.encode ≠ datum.read → ∃ n, (Data.int .u64 n).PartOf datum ∧
        IntType.i64.greatest < n ∧ datum.encode = .error (.integerTooWide n) ∧
          datum.read = .error (.invalidValue (.integer n) "any value")) := by
  have hmatch := match_common h
  generalize datum.encode = encoded, datum.read = given at hmatch
  cases hmatch with
  | ok value => exact ⟨.inl ⟨value, rfl, rfl⟩, fun _ => rfl, fun hne => absurd rfl hne⟩
  | error failure =>
    exact ⟨.inr ⟨failure, failure, rfl, rfl⟩, fun _ => rfl, fun hne => absurd rfl hne⟩
  | @tooLarge n hlarge =>
    refine ⟨.inr ⟨_, _, rfl, rfl⟩, ?_, fun _ => ⟨n, hlarge.1, hlarge.2, rfl, rfl⟩⟩
    intro hsmall
    exact absurd (hsmall n hlarge.1) (Int.not_le.mpr hlarge.2)

/-- Two entries of one name, under a character and under text, and after them a failure and a large
integer: the failure comes first. -/
theorem encode_agrees_read_failing :
    let datum := Data.map (.some 1) [(.char 'a', .seq .none [.int .u64 7, .f32 1.5]),
      (.str "a", .some (.newtypeStruct (.fail "broken"))),
      (.str "b", .int .u64 9223372036854775808)]
    datum.Common ∧ datum.encode = .error (.custom "broken") ∧
      ((∃ value, datum.encode = .ok value ∧ datum.read = .ok value) ∨
        ∃ failure failure', datum.encode = .error failure ∧ datum.read = .error failure') := by
  intro datum
  have hcommon : datum.Common := by
    refine .map _ ?_ ?_
    · simp only [List.forall_mem_cons]
      exact ⟨.char 'a', .str "a", .str "b", nofun⟩
    · simp only [List.forall_mem_cons]
      refine ⟨.seq _ ?_, .some (.newtypeStruct (.fail "broken")), .int rfl rfl, nofun⟩
      simp only [List.forall_mem_cons]
      exact ⟨.int rfl rfl, .f32 1.5, nofun⟩
  exact ⟨hcommon, rfl, (encode_agrees_read hcommon).1⟩

end Data
end Caseless
