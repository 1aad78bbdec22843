import ArchiveTraversal.Number.Shortest

/-!
JSON values. Whole numbers are exact; any other number is a decimal with digits of at most 64 bits,
which counts for what is read from it in double precision. The fields of an object are listed in
the order in which they are written out.
-/

namespace ArchiveTraversal

inductive Json where
  | null
  | boolean (value : Bool)
  | integer (value : Int)
  | decimal (negative : Bool) (digits : Nat) (power : Int)
  | text (value : String)
  | array (elements : List Json)
  | object (fields : List (String × Json))

namespace Json

def number (value : Nat) : Json := .integer value

def ofOption {Value : Type} (encode : Value → Json) : Option Value → Json
  | none => .null
  | some value => encode value

end Json

end ArchiveTraversal
