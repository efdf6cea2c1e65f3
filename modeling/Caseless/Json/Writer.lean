import Caseless.CallTree

/-!
# Writing JSON

The calls of a value are written as compact JSON text: sequences as arrays, maps as objects with
their entries in order and repetitions kept, bytes as arrays of numbers.

Main definitions:

- `Json.write`: the characters of a call tree;
- `Json.text`: the text of a handle.
-/

namespace Caseless

namespace Json

/-- Floats with a leading digit from `10 ^ -5` to `10 ^ 15` are positional; what is no finite number
is written as `null`. -/
def floatLayout : Number.Layout where
  plainFrom := -5
  plainBelow := 16
  plusSign := true
  tie := .toEven
  nan := "null"
  infinity := "null"
  minusInfinity := "null"

/-- One character of a string. -/
def writeChar (c : Char) : List Char :=
  if c = '"' then ['\\', '"']
  else if c = '\\' then ['\\', '\\']
  else if c = '\n' then ['\\', 'n']
  else if c = '\r' then ['\\', 'r']
  else if c = '\t' then ['\\', 't']
  else if c.toNat = 8 then ['\\', 'b']
  else if c.toNat = 12 then ['\\', 'f']
  else if c.toNat < 32 then ['\\', 'u', '0', '0'] ++ Text.hexByte c.toNat.toUInt8
  else [c]

/-- A string between quotes. -/
def writeText (text : String) : List Char :=
  '"' :: text.toList.flatMap writeChar ++ ['"']

/-- A whole number in decimal. -/
def writeInt (n : Int) : List Char :=
  (toString n).toList

/-- Octets as numbers, each after a comma. -/
def writeMoreBytes : List UInt8 → List Char
  | [] => []
  | byte :: rest => ',' :: writeInt byte.toNat ++ writeMoreBytes rest

/-- An array of octets. -/
def writeBytes : List UInt8 → List Char
  | [] => ['[', ']']
  | byte :: rest => '[' :: writeInt byte.toNat ++ writeMoreBytes rest ++ [']']

/-- The call of a scalar. -/
def writeCall : Call → List Char
  | .none => ['n', 'u', 'l', 'l']
  | .bool true => ['t', 'r', 'u', 'e']
  | .bool false => ['f', 'a', 'l', 's', 'e']
  | .int n => writeInt n.toInt
  | .float x => (floatLayout.render x).toList
  | .text s => writeText s
  | .bytes payload => writeBytes payload.data.toList

mutual

/-- The characters of a call tree. -/
def write : CallTree → List Char
  | .leaf call => writeCall call
  | .seq _ [] => ['[', ']']
  | .seq _ (first :: rest) => '[' :: write first ++ writeMoreElements rest ++ [']']
  | .map _ [] => ['\x7b', '\x7d']
  | .map _ ((name, first) :: rest) =>
    '\x7b' :: writeText name ++ ':' :: write first ++ writeMoreEntries rest ++ ['\x7d']

/-- Elements, each after a comma. -/
def writeMoreElements : List CallTree → List Char
  | [] => []
  | calls :: rest => ',' :: write calls ++ writeMoreElements rest

/-- Entries, each after a comma. -/
def writeMoreEntries : List (String × CallTree) → List Char
  | [] => []
  | (name, calls) :: rest =>
    ',' :: writeText name ++ ':' :: write calls ++ writeMoreEntries rest

end

/-- The text of a handle. -/
def text {α : Type} [Readable α] (handle : α) : String :=
  String.ofList (write (Readable.calls handle))

end Json
end Caseless
