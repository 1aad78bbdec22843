import ArchiveTraversal.Json.Basic
import ArchiveTraversal.Text.Quoted
import ArchiveTraversal.Words

/-!
Reading records out of JSON values. A record may be an object, whose unknown fields do not matter,
or an array of its fields in order. A failure says what was found and what was expected. Of several
wrong fields of an object the first by name is reported, and a wrong field before a missing one.
-/

namespace ArchiveTraversal

inductive DecodeError where
  | invalidType (found expected : String)
  | invalidValue (found expected : String)
  | invalidLength (length : Nat) (expected : String)
  | missingField (name : String)
  | unknownVariant (name : String) (known : List String)
  deriving DecidableEq, Repr

def inBackticks (value : String) : String := "\x60" ++ value ++ "\x60"

def DecodeError.message : DecodeError → String
  | .invalidType found expected => "invalid type: " ++ found ++ ", expected " ++ expected
  | .invalidValue found expected => "invalid value: " ++ found ++ ", expected " ++ expected
  | .invalidLength length expected =>
      "invalid length " ++ toString length ++ ", expected " ++ expected
  | .missingField name => "missing field " ++ inBackticks name
  | .unknownVariant name known =>
      "unknown variant " ++ inBackticks name ++ ", expected one of " ++
        ", ".intercalate (known.map inBackticks)

abbrev Decoded (Value : Type) := Except DecodeError Value

namespace Json

def describe : Json → String
  | .null => "null"
  | .boolean value => "boolean " ++ inBackticks (if value then "true" else "false")
  | .integer value => "integer " ++ inBackticks (toString value)
  | .decimal negative digits power =>
      "floating point " ++ inBackticks (Number.text negative digits power)
  | .text value => "string " ++ Text.Quoted.text value
  | .array _ => "sequence"
  | .object _ => "map"

def wrongType {Value : Type} (value : Json) (expected : String) : Decoded Value :=
  .error (.invalidType value.describe expected)

def decodeWithin (low high : Int) (expected : String) : Json → Decoded Int
  | .integer value =>
      if low ≤ value ∧ value < high then .ok value
      else .error (.invalidValue (describe (.integer value)) expected)
  | value => value.wrongType expected

def decodeSigned (value : Json) : Decoded Int := value.decodeWithin (-signed64Bound) signed64Bound "i64"

def decodeUnsigned (value : Json) : Decoded Nat :=
  (value.decodeWithin 0 unsigned64Bound "u64").map Int.toNat

def decodeText : Json → Decoded String
  | .text value => .ok value
  | value => value.wrongType "a string"

def decodeEach {Value : Type} (decode : Json → Decoded Value) : List Json → Decoded (List Value)
  | [] => .ok []
  | element :: rest =>
      match decode element with
      | .error error => .error error
      | .ok value => (decodeEach decode rest).map (value :: ·)

def decodeList {Value : Type} (decode : Json → Decoded Value) : Json → Decoded (List Value)
  | .array elements => decodeEach decode elements
  | value => value.wrongType "a sequence"

def decodeOption {Value : Type} (decode : Json → Decoded Value) : Json → Decoded (Option Value)
  | .null => .ok none
  | value => (decode value).map some

def decodeField {Value : Type} (fields : List (String × Json)) (name : String)
    (decode : Json → Decoded Value) : Decoded (Option Value) :=
  match fields.lookup name with
  | none => .ok none
  | some value => (decode value).map some

def required {Value : Type} (name : String) : Option Value → Decoded Value
  | none => .error (.missingField name)
  | some value => .ok value

def decodeElement {Value : Type} (elements : List Json) (index : Nat) (expected : String)
    (decode : Json → Decoded Value) : Decoded Value :=
  match elements[index]? with
  | none => .error (.invalidLength index expected)
  | some element => decode element

def noMoreThan (elements : List Json) (count : Nat) : Decoded Unit :=
  if elements.length ≤ count then .ok ()
  else .error (.invalidLength elements.length "fewer elements in array")

end Json

end ArchiveTraversal
