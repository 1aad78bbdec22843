import ArchiveTraversal.Text.Utf8
import ArchiveTraversal.Words

/-!
Whole numbers as a user writes them: decimal digits, with a plus sign or zeros before them if one
likes, and no more than 64 bits.
-/

namespace ArchiveTraversal.Number

def digitsValue (digits : Bytes) : Nat :=
  digits.foldl (fun value byte => value * 10 + (byte.toNat - 0x30)) 0

def readDigits? (digits : Bytes) : Option Nat :=
  if digits ≠ [] ∧ digits.all (fun byte => 0x30 ≤ byte ∧ byte ≤ 0x39) ∧
      digitsValue digits < unsigned64Bound then
    some (digitsValue digits)
  else none

def readUnsigned? (text : Bytes) : Option Nat :=
  readDigits? (if text.head? = some 0x2B then text.drop 1 else text)

end ArchiveTraversal.Number
