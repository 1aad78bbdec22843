import ArchiveTraversal.Text.Utf8
import ArchiveTraversal.Text.Unprintable

/-!
Texts and byte strings between double quotes, as diagnostics show them. What would not be seen on
a page is written as an escape. A byte string shows its text in the same way, and bytes that are not
UTF-8 by their number.
-/

namespace ArchiveTraversal.Text.Quoted

def lowerHex (value : Nat) : List Char := Nat.toDigits 16 value

def upperHexByte (byte : UInt8) : List Char :=
  let digits := (Nat.toDigits 16 byte.toNat).map Char.toUpper
  if digits.length < 2 then '0' :: digits else digits

def escape (value : Char) : List Char :=
  if value = '\x00' then ['\\', '0']
  else if value = '\t' then ['\\', 't']
  else if value = '\n' then ['\\', 'n']
  else if value = '\r' then ['\\', 'r']
  else if value = '"' ∨ value = '\\' then ['\\', value]
  else if Unprintable.contains value then
    ['\\', 'u', '\x7b'] ++ lowerHex value.toNat ++ ['\x7d']
  else [value]

def text (value : String) : String :=
  String.ofList ('"' :: value.toList.flatMap escape ++ ['"'])

def piece : Utf8.Piece → List Char
  | .character value => escape value
  | .broken taken => taken.flatMap fun byte => ['\\', 'x'] ++ upperHexByte byte

def bytes (value : Bytes) : String :=
  String.ofList ('"' :: (Utf8.pieces value).flatMap piece ++ ['"'])

def texts (values : List String) : String :=
  "[" ++ ", ".intercalate (values.map text) ++ "]"

end ArchiveTraversal.Text.Quoted
