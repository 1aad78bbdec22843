/-!
The characters that leave a gap in a line or end it, those of all scripts included, and texts
without the gaps at their ends.
-/

namespace ArchiveTraversal.Text.Blank

def contains (value : Char) : Bool :=
  let code := value.toNat
  (0x09 ≤ code && code ≤ 0x0D) || (0x2000 ≤ code && code ≤ 0x200A) ||
    code ∈ [0x20, 0x85, 0xA0, 0x1680, 0x2028, 0x2029, 0x202F, 0x205F, 0x3000]

def trim (text : List Char) : List Char :=
  ((text.dropWhile contains).reverse.dropWhile contains).reverse

end ArchiveTraversal.Text.Blank
