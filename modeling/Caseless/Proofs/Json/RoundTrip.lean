import Caseless.Proofs.Json.Normal
import Caseless.Proofs.Json.Tokens

/-!
# Values in JSON

A value is written as JSON text, directly or through a view, and the text is read as a value again.
The text is made of items with commas between them and brackets around them.  Items that are each
read back are read back in a row, so a value is read back when its children are; and it is refused
when it nests too deep.

Main definition: `Json.offerText`, what a text offers to its reader in terms of what was written.

Main results:

- Theorem `Json.readBracketed_itemsUpTo`: items are read back one after the other;
- Theorem `Json.readValue_write`: a value is read back from the front of a text, if it does not nest
  too deep;
- Theorem `Json.write_jsonNormal`: what is read back has the text that it was read from;
- Theorem `Json.read_text`: a value and a view of it are read back, once and again.
-/

namespace Caseless

open Name Readable

namespace Json

/-! ## Items with commas between them -/

/-- Items with commas between them and the bracket that closes them. -/
def itemsUpTo (closing : Char) : List (List Char) → List Char
  | [] => [closing]
  | item :: rest => item ++ rest.flatMap (',' :: ·) ++ [closing]

/-- How a value starts: with no blank and no closing bracket. -/
def StartsValue (cs : List Char) : Prop :=
  ∃ c rest, cs = c :: rest ∧ isBlank c = false ∧ c ≠ ']' ∧ c ≠ '\x7d'

theorem skipBlanks_cons_of_not_blank {c : Char} (rest : List Char) (h : isBlank c = false) :
    skipBlanks (c :: rest) = c :: rest := by
  simp [skipBlanks, h]

section Items

variable {ι α : Type} {closing : Char} {readItem : Reader α} {print : ι → List Char} {give : ι → α}
  {fits : ι → Prop} [DecidablePred fits]

/-- Items that are each read back if they fit, whatever ends them, are read back in a row if all of
them fit. -/
theorem readItems_items (hclosing : closing = ']' ∨ closing = '\x7d') (first : ι) (rest : List ι)
    (hitems : ∀ item ∈ first :: rest, ∀ tail, EndsValue tail →
      readItem (print item ++ tail) = if fits item then .ok (give item, tail) else .error .text)
    {bound : Nat} (hbound : rest.length < bound) (tail : List Char) :
    readItems closing readItem bound
        (print first ++ (rest.flatMap (fun item => ',' :: print item) ++ closing :: tail)) =
      if ∀ item ∈ first :: rest, fits item then .ok ((first :: rest).map give, tail)
      else .error .text := by
  have hblank : isBlank closing = false := by
    rcases hclosing with rfl | rfl <;> decide
  induction rest generalizing first bound with
  | nil =>
    obtain ⟨bound, rfl⟩ := Nat.exists_eq_succ_of_ne_zero (Nat.ne_of_gt hbound)
    have hend : EndsValue (closing :: tail) := by
      rintro c ⟨⟩
      exact .inr hclosing
    have hfirst := hitems first List.mem_cons_self _ hend
    rw [List.flatMap_nil, List.nil_append, readItems, hfirst]
    by_cases hfits : fits first
    · rw [if_pos hfits, ok_bind, if_pos (by simpa using hfits)]
      simp only [skipBlanks_cons_of_not_blank tail hblank, if_true]
      rfl
    · rw [if_neg hfits, if_neg fun hall => hfits (hall first List.mem_cons_self)]
      rfl
  | cons next rest ih =>
    obtain ⟨bound, rfl⟩ := Nat.exists_eq_succ_of_ne_zero (Nat.ne_zero_of_lt hbound)
    have hend : ∀ cs, EndsValue (',' :: cs) := by
      rintro cs c ⟨⟩
      exact .inl rfl
    have hfirst := fun cs => hitems first List.mem_cons_self (',' :: cs) (hend cs)
    have hrest := ih next (fun item hmem => hitems item (List.mem_cons_of_mem first hmem))
      (Nat.lt_of_succ_lt_succ hbound)
    have hcomma : ',' ≠ closing := by
      rcases hclosing with rfl | rfl <;> decide
    have hskip : ∀ cs, skipBlanks (',' :: cs) = ',' :: cs := fun cs =>
      skipBlanks_cons_of_not_blank cs rfl
    rw [List.flatMap_cons, List.append_assoc, List.cons_append, readItems, hfirst]
    by_cases hfits : fits first
    · rw [if_pos hfits, ok_bind]
      simp only [hskip, if_neg hcomma, if_true]
      rw [hrest]
      by_cases hall : ∀ item ∈ next :: rest, fits item
      · rw [if_pos hall, if_pos (List.forall_mem_cons.mpr ⟨hfits, hall⟩)]
        rfl
      · rw [if_neg hall, if_neg fun hmore => hall (List.forall_mem_cons.mp hmore).2]
        rfl
    · rw [if_neg hfits, if_neg fun hall => hfits (hall first List.mem_cons_self)]
      rfl

/-- Every item after the first is written with a comma, so the text has as many characters as there
are such items. -/
theorem length_le_length_flatMap (print : ι → List Char) (items : List ι) :
    items.length ≤ (items.flatMap fun item => ',' :: print item).length := by
  induction items with
  | nil => exact Nat.le_refl 0
  | cons item rest ih =>
    simp only [List.flatMap_cons, List.length_append, List.length_cons]
    omega

/-- Items that are each read back if they fit are read back, with commas between them, if all of
them fit. -/
theorem readBracketed_itemsUpTo (hclosing : closing = ']' ∨ closing = '\x7d') (items : List ι)
    (hstart : ∀ item ∈ items, StartsValue (print item))
    (hitems : ∀ item ∈ items, ∀ tail, EndsValue tail →
      readItem (print item ++ tail) = if fits item then .ok (give item, tail) else .error .text)
    (tail : List Char) :
    readBracketed closing readItem (itemsUpTo closing (items.map print) ++ tail) =
      if ∀ item ∈ items, fits item then .ok (items.map give, tail) else .error .text := by
  cases items with
  | nil =>
    have hblank : isBlank closing = false := by
      rcases hclosing with rfl | rfl <;> decide
    simp [itemsUpTo, readBracketed, skipBlanks_cons_of_not_blank _ hblank]
  | cons first rest =>
    have htext : itemsUpTo closing ((first :: rest).map print) ++ tail =
        print first ++ (rest.flatMap (fun item => ',' :: print item) ++ closing :: tail) := by
      simp [itemsUpTo, List.flatMap_map]
    obtain ⟨c, cs, hfirst, hblank, hbracket, hbrace⟩ := hstart first List.mem_cons_self
    have hc : c ≠ closing := by
      rcases hclosing with rfl | rfl
      · exact hbracket
      · exact hbrace
    have hbound : rest.length <
        (cs ++ (rest.flatMap (fun item => ',' :: print item) ++ closing :: tail)).length + 1 := by
      have hlength := length_le_length_flatMap print rest
      simp only [List.length_append]
      omega
    have hread := readItems_items hclosing first rest hitems hbound tail
    rw [htext, readBracketed]
    rw [hfirst, List.cons_append] at hread ⊢
    simp only [skipBlanks_cons_of_not_blank _ hblank, if_neg hc]
    exact hread

end Items

/-! ## Containers as items -/

theorem writeBytes_eq (bytes : List UInt8) :
    writeBytes bytes = '[' :: itemsUpTo ']' (bytes.map fun byte => writeInt byte.toNat) := by
  have hmore : ∀ bytes : List UInt8,
      writeMoreBytes bytes = bytes.flatMap fun byte => ',' :: writeInt byte.toNat := by
    intro bytes
    induction bytes with
    | nil => rfl
    | cons byte rest ih => rw [writeMoreBytes, ih, List.flatMap_cons]
  cases bytes with
  | nil => rfl
  | cons byte rest => simp [writeBytes, itemsUpTo, hmore, List.flatMap_map]

theorem write_seq (announced : Nat) (elements : List CallTree) :
    write (.seq announced elements) = '[' :: itemsUpTo ']' (elements.map write) := by
  have hmore : ∀ elements : List CallTree,
      writeMoreElements elements = elements.flatMap fun calls => ',' :: write calls := by
    intro elements
    induction elements with
    | nil => rfl
    | cons calls rest ih => rw [writeMoreElements, ih, List.flatMap_cons]
  cases elements with
  | nil => rfl
  | cons first rest => simp [write, itemsUpTo, hmore, List.flatMap_map]

/-- An entry of an object: a name, a colon and a value. -/
def writeEntry (entry : String × CallTree) : List Char :=
  writeText entry.1 ++ ':' :: write entry.2

theorem write_map (announced : Nat) (entries : List (String × CallTree)) :
    write (.map announced entries) = '\x7b' :: itemsUpTo '\x7d' (entries.map writeEntry) := by
  have hmore : ∀ entries : List (String × CallTree),
      writeMoreEntries entries = entries.flatMap fun entry => ',' :: writeEntry entry := by
    intro entries
    induction entries with
    | nil => rfl
    | cons entry rest ih =>
      obtain ⟨name, calls⟩ := entry
      simp [writeMoreEntries, ih, writeEntry]
  cases entries with
  | nil => rfl
  | cons entry rest =>
    obtain ⟨name, first⟩ := entry
    simp [write, itemsUpTo, hmore, List.flatMap_map, writeEntry]

/-! ## Values -/

/-- A whole number starts with a minus or a digit, and so with no other character. -/
theorem exists_writeInt_eq_cons (n : Int) :
    ∃ c rest, writeInt n = c :: rest ∧ ∀ d : Char, d ≠ '-' → d.isDigit = false → c ≠ d := by
  rw [writeInt_eq]
  by_cases hn : n < 0
  · exact ⟨'-', Nat.toDigits 10 n.natAbs, by rw [if_pos hn]; rfl, fun d hminus _ => hminus.symm⟩
  · obtain ⟨c, rest, hdigits, hc⟩ := exists_toDigits_eq_cons n.natAbs
    refine ⟨c, rest, by rw [if_neg hn, hdigits]; rfl, ?_⟩
    rintro d - hd rfl
    exact Bool.false_ne_true (hd.symm.trans hc)

theorem startsValue_writeInt (n : Int) : StartsValue (writeInt n) := by
  obtain ⟨c, rest, htext, hne⟩ := exists_writeInt_eq_cons n
  have hblank : isBlank c = false := by
    simp [isBlank, hne ' ', hne '\n', hne '\t', hne '\r']
  exact ⟨c, rest, htext, hblank, hne _ (by decide) (by decide), hne _ (by decide) (by decide)⟩

/-- An integer is read back as a value, wherever values are read. -/
theorem readNode_writeInt (readInner : Option (Reader Value)) (n : Int64) {rest : List Char}
    (hrest : EndsValue rest) :
    readNode readInner (writeInt n.toInt ++ rest) = .ok (.scalar (.int n), rest) := by
  have hnumber := readNumber_writeInt n hrest
  obtain ⟨c, cs, htext, hne⟩ := exists_writeInt_eq_cons n.toInt
  obtain ⟨_, _, htext', hblank, -⟩ := startsValue_writeInt n.toInt
  obtain ⟨rfl, rfl⟩ := List.cons.inj (htext.symm.trans htext')
  rw [htext, List.cons_append] at hnumber ⊢
  simp only [readNode, skipBlanks_cons_of_not_blank _ hblank]
  simpa [hne '"', hne 'n', hne 't', hne 'f', hne '[', hne '\x7b'] using hnumber

theorem readNode_array (readInner : Reader Value) (cs : List Char) :
    readNode (some readInner) ('[' :: cs) =
      (readBracketed ']' readInner cs).map fun (elements, rest) => (.seq .list elements, rest) :=
  rfl

theorem readNode_object (readInner : Reader Value) (cs : List Char) :
    readNode (some readInner) ('\x7b' :: cs) =
      (readBracketed '\x7d' (readMember readInner) cs).map fun (fields, rest) =>
        (.struct () fields, rest) :=
  rfl

/-- Bytes are read back as a list of integers, where a list may stand. -/
theorem readValue_writeBytes (depth : Nat) (bytes : List UInt8) (rest : List Char) :
    readValue depth (writeBytes bytes ++ rest) =
      if 1 ≤ depth then .ok (.seq .list (bytes.map fun byte => .scalar (.int (byteInt byte))), rest)
      else .error .text := by
  rw [writeBytes_eq, List.cons_append]
  cases depth with
  | zero => rfl
  | succ depth =>
    have hbyte : ∀ byte ∈ bytes, ∀ tail, EndsValue tail →
        readValue depth (writeInt byte.toNat ++ tail) =
          if True then .ok (.scalar (.int (byteInt byte)), tail) else .error .text := by
      intro byte hmem tail htail
      rw [if_pos trivial, ← toInt_byteInt]
      cases depth with
      | zero => exact readNode_writeInt _ _ htail
      | succ depth => exact readNode_writeInt _ _ htail
    have hread := readBracketed_itemsUpTo (.inl rfl) bytes
      (fun byte _ => startsValue_writeInt byte.toNat) hbyte rest
    rw [readValue, readNode_array, hread, if_pos fun _ _ => trivial,
      if_pos (Nat.le_add_left 1 depth)]
    rfl

/-- A scalar is read back, if it does not nest too deep. -/
theorem readValue_writeCall {payload : Scalar} (hfloat : ∀ x, payload ≠ .float x) (depth : Nat)
    {rest : List Char} (hrest : EndsValue rest) :
    readValue depth (writeCall payload.call ++ rest) =
      if payload.jsonNesting ≤ depth then .ok (payload.jsonNormal, rest) else .error .text := by
  have hdepths : ∃ readInner, readValue depth = readNode readInner := by
    cases depth with
    | zero => exact ⟨_, rfl⟩
    | succ depth => exact ⟨_, rfl⟩
  obtain ⟨readInner, hinner⟩ := hdepths
  have htext : ∀ text : String, readValue depth (writeText text ++ rest) =
      .ok (.scalar (.string text), rest) := by
    intro text
    obtain ⟨inner, hwrite, hread⟩ := readString_writeText text rest
    rw [hinner, hwrite]
    change (readString (inner ++ rest)).map _ = _
    rw [hread]
    rfl
  -- All scalars but bytes are written without a bracket.
  have hflat : payload.jsonNesting = 0 →
      readValue depth (writeCall payload.call ++ rest) = .ok (payload.jsonNormal, rest) →
      readValue depth (writeCall payload.call ++ rest) =
        if payload.jsonNesting ≤ depth then .ok (payload.jsonNormal, rest) else .error .text := by
    intro hzero hread
    rw [hread, hzero, if_pos (Nat.zero_le depth)]
  cases payload with
  | clob bytes => exact readValue_writeBytes depth bytes.data.toList rest
  | blob bytes => exact readValue_writeBytes depth bytes.data.toList rest
  | float x => exact absurd rfl (hfloat x)
  | null kind => exact hflat rfl (by rw [hinner]; rfl)
  | bool b => exact hflat rfl (by rw [hinner]; cases b <;> rfl)
  | int n => exact hflat rfl (by rw [hinner]; exact readNode_writeInt readInner n hrest)
  | decimal d => exact hflat rfl (htext d.text)
  | timestamp text => exact hflat rfl (htext text)
  | symbol text => exact hflat rfl (htext text)
  | string text => exact hflat rfl (htext text)

variable {σ : Type}

theorem calls_seq (kind : SeqKind) (elements : List (Value σ)) :
    calls (Value.seq kind elements) =
      .seq (elements.map calls).length (elements.map calls) :=
  calls_eq _

theorem calls_struct (stamp : σ) (fields : List (String × Value σ)) :
    calls (Value.struct stamp fields) =
      .map (fields.map fun field => (field.1, calls field.2)).length
        (fields.map fun field => (field.1, calls field.2)) :=
  calls_eq _

theorem write_calls_seq (kind : SeqKind) (elements : List (Value σ)) :
    write (calls (Value.seq kind elements)) =
      '[' :: itemsUpTo ']' (elements.map fun element => write (calls element)) := by
  rw [calls_seq, write_seq, List.map_map]
  rfl

/-- The text of a field: its name, a colon and the text of its value. -/
def writeField (field : String × Value σ) : List Char :=
  writeEntry (field.1, calls field.2)

theorem write_calls_struct (stamp : σ) (fields : List (String × Value σ)) :
    write (calls (Value.struct stamp fields)) =
      '\x7b' :: itemsUpTo '\x7d' (fields.map writeField) := by
  rw [calls_struct, write_map, List.map_map]
  rfl

theorem startsValue_write {value : Value σ} (hfloat : value.FloatFree) :
    StartsValue (write (calls value)) := by
  have hstart : ∀ c rest, isBlank c = false → c ≠ ']' → c ≠ '\x7d' → StartsValue (c :: rest) :=
    fun c rest hblank hbracket hbrace => ⟨c, rest, rfl, hblank, hbracket, hbrace⟩
  have hbytes : ∀ bytes, StartsValue (writeBytes bytes) := by
    intro bytes
    rw [writeBytes_eq]
    exact hstart _ _ rfl (by decide) (by decide)
  cases value with
  | scalar payload =>
    rw [calls_eq]
    change StartsValue (writeCall payload.call)
    cases payload with
    | bool b => cases b <;> exact hstart _ _ rfl (by decide) (by decide)
    | int n => exact startsValue_writeInt n.toInt
    | float x => exact absurd rfl ((Value.floatFree_scalar _).mp hfloat x)
    | clob bytes => exact hbytes _
    | blob bytes => exact hbytes _
    | _ => exact hstart _ _ rfl (by decide) (by decide)
  | seq kind elements =>
    rw [write_calls_seq]
    exact hstart _ _ rfl (by decide) (by decide)
  | struct stamp fields =>
    rw [write_calls_struct]
    exact hstart _ _ rfl (by decide) (by decide)

theorem startsValue_writeField (field : String × Value σ) : StartsValue (writeField field) :=
  ⟨'"', _, rfl, rfl, by decide, by decide⟩

/-- A field is read back as its name, whatever characters it has, and what its value is read as. -/
theorem readMember_writeField (readInner : Reader Value) (field : String × Value σ)
    (tail : List Char) :
    readMember readInner (writeField field ++ tail) =
      (readInner (write (calls field.2) ++ tail)).map fun (value, rest) =>
        ((field.1, value), rest) := by
  obtain ⟨inner, hwrite, hread⟩ :=
    readString_writeText field.1 (':' :: (write (calls field.2) ++ tail))
  rw [writeField, writeEntry, hwrite, List.cons_append, List.cons_append, List.append_assoc,
    List.cons_append]
  change (readString _ >>= _) = _
  rw [hread, ok_bind]
  change (readInner _ >>= _) = _
  cases readInner (write (calls field.2) ++ tail) <;> rfl

/-- A value is read back from the front of a text, whatever ends it there, if it nests no deeper than
may be; otherwise the text is refused. -/
theorem readValue_write (value : Value σ) (hfloat : value.FloatFree) (depth : Nat)
    {rest : List Char} (hrest : EndsValue rest) :
    readValue depth (write (calls value) ++ rest) =
      if value.jsonNesting ≤ depth then .ok (value.jsonNormal, rest) else .error .text := by
  induction value using Readable.induction generalizing depth rest with
  | step value ih =>
    cases value with
    | scalar payload =>
      rw [calls_eq]
      exact readValue_writeCall ((Value.floatFree_scalar payload).mp hfloat) depth hrest
    | seq kind elements =>
      have helements := (Value.floatFree_seq kind elements).mp hfloat
      rw [write_calls_seq, List.cons_append]
      cases depth with
      | zero =>
        rw [if_neg (by simp [Value.jsonNesting])]
        rfl
      | succ depth =>
        have hread := readBracketed_itemsUpTo (.inl rfl) elements
          (fun element hmem => startsValue_write (helements element hmem))
          (fun element hmem tail htail => ih element hmem (helements element hmem) depth htail) rest
        rw [readValue, readNode_array, hread]
        simp only [Value.jsonNesting_seq_le_iff, Value.jsonNormal_seq]
        split <;> rfl
    | struct stamp fields =>
      have hfields := (Value.floatFree_struct stamp fields).mp hfloat
      rw [write_calls_struct, List.cons_append]
      cases depth with
      | zero =>
        rw [if_neg (by simp [Value.jsonNesting])]
        rfl
      | succ depth =>
        have hmember : ∀ field ∈ fields, ∀ tail, EndsValue tail →
            readMember (readValue depth) (writeField field ++ tail) =
              if field.2.jsonNesting ≤ depth then .ok ((field.1, field.2.jsonNormal), tail)
              else .error .text := by
          intro field hmem tail htail
          rw [readMember_writeField,
            ih field.2 (List.mem_map_of_mem hmem) (hfields field hmem) depth htail]
          split <;> rfl
        have hread := readBracketed_itemsUpTo (.inr rfl) fields
          (fun field _ => startsValue_writeField field) hmember rest
        rw [readValue, readNode_object, hread]
        simp only [Value.jsonNesting_struct_le_iff, Value.jsonNormal_struct]
        split <;> rfl

/-! ## Once and again -/

/-- What is read back has the text that it was read from. -/
theorem write_jsonNormal (value : Value σ) :
    write (calls value.jsonNormal) = write (calls value) := by
  induction value using Readable.induction with
  | step value ih =>
    cases value with
    | scalar payload =>
      have hbytes : ∀ bytes : List UInt8,
          write (calls (Value.seq .list
            (bytes.map fun byte => (.scalar (.int (byteInt byte)) : Value)))) =
            writeBytes bytes := by
        intro bytes
        have hbyte : ∀ byte : UInt8,
            write (calls (.scalar (.int (byteInt byte)) : Value)) = writeInt byte.toNat := by
          intro byte
          rw [calls_eq, ← toInt_byteInt]
          rfl
        rw [write_calls_seq, List.map_map, writeBytes_eq]
        simp only [Function.comp_def, hbyte]
      cases payload with
      | clob bytes => exact (hbytes bytes.data.toList).trans (by rw [calls_eq]; rfl)
      | blob bytes => exact (hbytes bytes.data.toList).trans (by rw [calls_eq]; rfl)
      | _ => rw [calls_eq, calls_eq]; rfl
    | seq kind elements =>
      rw [Value.jsonNormal_seq, write_calls_seq, write_calls_seq, List.map_map]
      congr 2
      exact List.map_congr_left ih
    | struct stamp fields =>
      rw [Value.jsonNormal_struct, write_calls_struct, write_calls_struct, List.map_map]
      congr 2
      refine List.map_congr_left ?_
      intro field hmem
      exact congrArg (writeText field.1 ++ ':' :: ·) (ih field.2 (List.mem_map_of_mem hmem))

/-! ### What the text offers -/

/-- What the text of a single call offers to its reader: a number without sign is unsigned, and
bytes are a sequence of numbers. -/
def reofferCall : Call → Data
  | .none => .unit
  | .bool b => .bool b
  | .int n => .int (if n.toInt < 0 then .i64 else .u64) n.toInt
  | .float x => .f64 x
  | .text s => .str s
  | .bytes payload => .seq none (payload.data.toList.map fun byte => .int .u64 byte.toNat)

mutual

/-- What the text of calls offers to its reader, in the order of the text. -/
def reoffer : CallTree → Data
  | .leaf call => reofferCall call
  | .seq _ elements => .seq none (reofferElements elements)
  | .map _ entries => .map none (reofferEntries entries)

/-- What the text of elements offers. -/
def reofferElements : List CallTree → List Data
  | [] => []
  | calls :: rest => reoffer calls :: reofferElements rest

/-- What the text of entries offers; every key is text. -/
def reofferEntries : List (String × CallTree) → List (Data × Data)
  | [] => []
  | (name, calls) :: rest => (.str name, reoffer calls) :: reofferEntries rest

end

theorem read_reofferInt {type : IntType} (htype : type.isWide = false) {n : Int} {m : Int64}
    (h : m.toInt = n) : (Data.int type n).read = .ok (.scalar (.int m)) := by
  rw [Data.read, Data.readInt, htype, if_neg Bool.false_ne_true, ← h, Data.intOf?_toInt]

theorem read_reofferCall (payload : Scalar) :
    (reofferCall payload.call).read = .ok payload.jsonNormal := by
  have hbytes : ∀ bytes : ByteArray,
      (reofferCall (.bytes bytes)).read = .ok (Scalar.blob bytes).jsonNormal := by
    intro bytes
    have hbyte : ∀ byte ∈ bytes.data.toList,
        (Data.int .u64 byte.toNat).read = .ok (.scalar (.int (byteInt byte))) :=
      fun byte _ => read_reofferInt rfl (toInt_byteInt byte)
    rw [reofferCall, Data.read, Data.readElements_map hbyte]
    rfl
  cases payload with
  | int n =>
    refine read_reofferInt ?_ rfl
    split <;> rfl
  | clob bytes => exact hbytes bytes
  | blob bytes => exact hbytes bytes
  | _ => rfl

theorem reofferElements_eq_map (trees : List CallTree) :
    reofferElements trees = trees.map reoffer := by
  induction trees with
  | nil => rfl
  | cons tree rest ih => rw [reofferElements, ih, List.map_cons]

theorem reofferEntries_eq_map (entries : List (String × CallTree)) :
    reofferEntries entries = entries.map fun entry => (.str entry.1, reoffer entry.2) := by
  induction entries with
  | nil => rfl
  | cons entry rest ih =>
    obtain ⟨name, tree⟩ := entry
    rw [reofferEntries, ih, List.map_cons]

/-- What the text of a handle offers to its reader. -/
def offerText {α : Type} [Readable α] (handle : α) : Data :=
  reoffer (calls handle)

theorem offerText_seq (kind : SeqKind) (elements : List (Value σ)) :
    offerText (Value.seq kind elements) = .seq none (elements.map offerText) := by
  rw [offerText, calls_seq, reoffer, reofferElements_eq_map, List.map_map]
  rfl

theorem offerText_struct (stamp : σ) (fields : List (String × Value σ)) :
    offerText (Value.struct stamp fields) =
      .map none (fields.map fun field => (.str field.1, offerText field.2)) := by
  rw [offerText, calls_struct, reoffer, reofferEntries_eq_map, List.map_map]
  rfl

/-- Read from what its text offers, a value comes back as it does from the text. -/
theorem read_offerText (value : Value σ) : (offerText value).read = .ok value.jsonNormal := by
  induction value using Readable.induction with
  | step value ih =>
    cases value with
    | scalar payload =>
      rw [offerText, calls_eq]
      exact read_reofferCall payload
    | seq kind elements =>
      have hread : Data.readElements (elements.map offerText) =
          .ok (elements.map Value.jsonNormal) := Data.readElements_map ih
      rw [offerText_seq, Data.read, hread, Value.jsonNormal_seq]
      rfl
    | struct stamp fields =>
      have hfields : ∀ field ∈ fields, (offerText field.2).read = .ok field.2.jsonNormal :=
        fun field hfield => ih field.2 (List.mem_map_of_mem hfield)
      rw [offerText_struct, Data.read, Data.readEntries_map hfields, Value.jsonNormal_struct]
      rfl

/-! ### Whole texts -/

/-- The text of a value without floats is read if it nests no deeper than may be, and refused
otherwise. -/
theorem read_text_eq {value : Value σ} (hfloat : value.FloatFree) :
    read (text value) =
      if value.jsonNesting ≤ maxDepth then .ok value.jsonNormal else .error .text := by
  have hend : EndsValue [] := fun c hc => nomatch hc
  have hread := readValue_write value hfloat maxDepth hend
  rw [List.append_nil] at hread
  rw [read, text, String.toList_ofList, hread]
  split <;> rfl

/-- Written as JSON, directly or through a view under any policy, and read back, a value without
floats whose text nests at most 127 levels comes back as its normal form; so it does from what its
text offers to a reader.  Every node comes back where it stood, and every struct with the names that
it had.  What comes back has the text that it was read from, and so comes back itself the next
time. -/
theorem read_text [DecidableEq σ] (policy : Policy) {value : Value σ} (hfloat : value.FloatFree)
    (hnesting : value.jsonNesting ≤ 127) :
    read (text value) = .ok value.jsonNormal ∧
      read (text (wrap policy value)) = .ok value.jsonNormal ∧
      (offerText value).read = .ok value.jsonNormal ∧
      (∀ position node, value.at? position = some node →
        value.jsonNormal.at? position = some node.jsonNormal ∧
          ∀ fields, node.fields? = some fields →
            node.jsonNormal.fields?.map Fields.names = some fields.names) ∧
      text value.jsonNormal = text value ∧
      read (text value.jsonNormal) = .ok value.jsonNormal := by
  have hread : read (text value) = .ok value.jsonNormal :=
    (read_text_eq hfloat).trans (if_pos hnesting)
  have htext : text value.jsonNormal = text value := by
    rw [text, text, write_jsonNormal]
  refine ⟨hread, ?_, read_offerText value, ?_, htext, htext ▸ hread⟩
  · rw [text, calls_wrap]
    exact hread
  · intro position node hnode
    exact ⟨Value.at?_jsonNormal hnode, fun fields hfields => Value.names_jsonNormal hfields⟩

/-- Repeated names stay apart, and so do names that differ in case only; bytes become integers. -/
theorem read_text_repeated_names :
    let value : Value := .struct () [("Id", .scalar (.int (-5))),
      ("id", .seq .sexp [.scalar (.null .int), .scalar (.symbol "a\"\n")]),
      ("Id", .scalar (.blob ⟨#[0, 255]⟩))]
    value.FloatFree ∧ value.jsonNesting ≤ 127 ∧
      read (text (wrap .preferExact value)) = .ok (.struct () [("Id", .scalar (.int (-5))),
        ("id", .seq .list [.null, .scalar (.string "a\"\n")]),
        ("Id", .seq .list [.scalar (.int 0), .scalar (.int 255)])]) := by
  intro value
  have hfloat : value.FloatFree := by simp [value]
  have hnesting : value.jsonNesting ≤ 127 := by decide
  exact ⟨hfloat, hnesting, (read_text .preferExact hfloat hnesting).2.1⟩

end Json
end Caseless
