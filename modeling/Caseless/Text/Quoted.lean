import Caseless.Text.Unprintable

/-!
# Quoted text

Inspection text shows a string between double quotes, and bytes between `b"` and a quote.  Both
replace what cannot be shown: a string by character, bytes by octet.
-/

namespace Caseless
namespace Text

/-- A number in lower-case hexadecimal. -/
def hex (n : Nat) : List Char :=
  Nat.toDigits 16 n

/-- An octet as two lower-case hexadecimal digits. -/
def hexByte (byte : UInt8) : List Char :=
  if byte < 16 then '0' :: hex byte.toNat else hex byte.toNat

/-- One character of a quoted string. -/
def quoteChar (c : Char) : List Char :=
  if c = '\t' then ['\\', 't']
  else if c = '\r' then ['\\', 'r']
  else if c = '\n' then ['\\', 'n']
  else if c = '"' then ['\\', '"']
  else if c = '\\' then ['\\', '\\']
  else if c.toNat = 0 then ['\\', '0']
  else if isUnprintable c then ['\\', 'u', '\x7b'] ++ hex c.toNat ++ ['\x7d']
  else [c]

/-- A string between double quotes. -/
def quote (text : String) : String :=
  String.ofList ('"' :: text.toList.flatMap quoteChar ++ ['"'])

/-- One octet of quoted bytes. -/
def quoteByte (byte : UInt8) : List Char :=
  if byte = 9 then ['\\', 't']
  else if byte = 13 then ['\\', 'r']
  else if byte = 10 then ['\\', 'n']
  else if byte = 34 then ['\\', '"']
  else if byte = 92 then ['\\', '\\']
  else if byte = 0 then ['\\', '0']
  else if 0x20 ≤ byte && byte ≤ 0x7E then [Char.ofNat byte.toNat]
  else ['\\', 'x'] ++ hexByte byte

/-- Bytes between `b"` and a double quote. -/
def quoteBytes (bytes : ByteArray) : String :=
  String.ofList ('b' :: '"' :: bytes.data.toList.flatMap quoteByte ++ ['"'])

end Text
end Caseless
