import Caseless.Readable

/-!
# Inspection text

For people who look at values, a value has a text that shows every detail: kinds, payloads, order
and repetitions.  The text is first a tree of words, calls, records, lists and maps, and the tree is
laid out on one line or, indented, with one item a line.

Main definitions:

- `Inspection`: the trees;
- `Inspection.line`, `Inspection.block`: the two layouts;
- `Value.inspect`: the inspection of a value;
- `Readable.inspect`: the inspection of a handle, in which containers show only what they hold.
-/

namespace Caseless

/-- What an inspection text is laid out from. -/
inductive Inspection where
  | word (text : String)
  /-- A named wrapper around one item. -/
  | call (name : String) (inner : Inspection)
  | record (name : String) (fields : List (String × Inspection))
  | list (items : List Inspection)
  /-- Entries under quoted keys. -/
  | map (entries : List (String × Inspection))

namespace Inspection

/-! ### On one line -/

mutual

/-- The text on one line. -/
def line : Inspection → String
  | .word text => text
  | .call name inner => name ++ "(" ++ inner.line ++ ")"
  | .record name fields => name ++ " \x7b " ++ lineFields fields ++ " \x7d"
  | .list items => "[" ++ lineItems items ++ "]"
  | .map entries => "\x7b" ++ lineEntries entries ++ "\x7d"

/-- Items between commas. -/
def lineItems : List Inspection → String
  | [] => ""
  | [item] => item.line
  | item :: rest => item.line ++ ", " ++ lineItems rest

/-- Named fields between commas. -/
def lineFields : List (String × Inspection) → String
  | [] => ""
  | [(name, item)] => name ++ ": " ++ item.line
  | (name, item) :: rest => name ++ ": " ++ item.line ++ ", " ++ lineFields rest

/-- Entries with quoted keys between commas. -/
def lineEntries : List (String × Inspection) → String
  | [] => ""
  | [(name, item)] => Text.quote name ++ ": " ++ item.line
  | (name, item) :: rest => Text.quote name ++ ": " ++ item.line ++ ", " ++ lineEntries rest

end

/-! ### On many lines -/

/-- The blanks that start a line at a depth. -/
def indent (depth : Nat) : String :=
  String.ofList (List.replicate (4 * depth) ' ')

/-- What stands between an opening and a closing bracket: nothing, or lines of their own. -/
def enclose (depth : Nat) (opening body closing : String) : String :=
  if body.isEmpty then opening ++ closing
  else opening ++ "\n" ++ body ++ indent depth ++ closing

mutual

/-- The text with one item a line; `depth` is that of the line on which it starts. -/
def block (depth : Nat) : Inspection → String
  | .word text => text
  | .call name inner =>
    enclose depth (name ++ "(") (indent (depth + 1) ++ inner.block (depth + 1) ++ ",\n") ")"
  | .record name fields => enclose depth (name ++ " \x7b") (blockFields (depth + 1) fields) "\x7d"
  | .list items => enclose depth "[" (blockItems (depth + 1) items) "]"
  | .map entries => enclose depth "\x7b" (blockEntries (depth + 1) entries) "\x7d"

/-- One line or more for each item, each ended by a comma. -/
def blockItems (depth : Nat) : List Inspection → String
  | [] => ""
  | item :: rest => indent depth ++ item.block depth ++ ",\n" ++ blockItems depth rest

/-- One line or more for each named field. -/
def blockFields (depth : Nat) : List (String × Inspection) → String
  | [] => ""
  | (name, item) :: rest =>
    indent depth ++ name ++ ": " ++ item.block depth ++ ",\n" ++ blockFields depth rest

/-- One line or more for each entry. -/
def blockEntries (depth : Nat) : List (String × Inspection) → String
  | [] => ""
  | (name, item) :: rest =>
    indent depth ++ Text.quote name ++ ": " ++ item.block depth ++ ",\n" ++
      blockEntries depth rest

end

end Inspection

/-! ### What is inspected -/

/-- Floats with a leading digit from `10 ^ -4` to `10 ^ 15` are positional. -/
def inspectedFloat : Number.Layout where
  plainFrom := -4
  plainBelow := 16
  plusSign := false
  tie := .up
  nan := "NaN"
  infinity := "inf"
  minusInfinity := "-inf"

/-- The inspection of a decimal. -/
def Decimal.inspect (d : Decimal) : Inspection :=
  .record "Decimal"
    [("coefficient", .word (toString d.coefficient.toInt)),
      ("exponent", .word (toString d.exponent.toInt))]

/-- The inspection of a scalar: its kind around its payload. -/
def Scalar.inspect : Scalar → Inspection
  | .null kind => .call "Null" (.word kind.label)
  | .bool b => .call "Bool" (.word (toString b))
  | .int n => .call "Int" (.word (toString n.toInt))
  | .float x => .call "Float" (.word (inspectedFloat.render x))
  | .decimal d => .call "Decimal" d.inspect
  | .timestamp text => .call "Timestamp" (.word (Text.quote text))
  | .symbol text => .call "Symbol" (.word (Text.quote text))
  | .string text => .call "String" (.word (Text.quote text))
  | .clob payload => .call "Clob" (.word (Text.quoteBytes payload))
  | .blob payload => .call "Blob" (.word (Text.quoteBytes payload))

/-- The inspection of a node whose containers are named. -/
def Node.inspectNamed : Node Inspection → Inspection
  | .scalar payload => payload.inspect
  | .seq kind elements => .call kind.tag.label (.record "OwnList" [("elements", .list elements)])
  | .struct fields => .call Tag.struct.label (.map fields)

/-- The inspection of a node whose containers show only what they hold. -/
def Node.inspectBare : Node Inspection → Inspection
  | .scalar payload => payload.inspect
  | .seq _ elements => .list elements
  | .struct fields => .map fields

/-- The inspection of a value. -/
def Value.inspect {σ : Type} (value : Value σ) : Inspection :=
  Readable.fold Node.inspectNamed value

/-- The inspection of fields, each with its value. -/
def Fields.inspect {σ : Type} (fields : Fields (Value σ)) : Inspection :=
  .map (fields.map fun field => (field.1, field.2.inspect))

/-- The inspection of a handle, in which containers show only what they hold. -/
def Readable.inspect {α : Type} [Readable α] (handle : α) : Inspection :=
  fold Node.inspectBare handle

end Caseless
