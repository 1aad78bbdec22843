import ArchiveTraversal.Json.Basic

/-!
JSON texts. The compact form has no blanks. The indented form puts each element and each field on
a line of its own, two blanks deeper than the bracket; an empty array or object stays together.
-/

namespace ArchiveTraversal.Json

def hexDigit (value : Nat) : Char := (Nat.toDigits 16 value).headD '0'

/-- Only what must be escaped is; controls without a short form are given by number. -/
def escape (value : Char) : List Char :=
  if value = '"' ∨ value = '\\' then ['\\', value]
  else if value = '\x08' then ['\\', 'b']
  else if value = '\x0c' then ['\\', 'f']
  else if value = '\n' then ['\\', 'n']
  else if value = '\r' then ['\\', 'r']
  else if value = '\t' then ['\\', 't']
  else if value.toNat < 0x20 then
    ['\\', 'u', '0', '0', hexDigit (value.toNat / 16), hexDigit (value.toNat % 16)]
  else [value]

def quote (value : String) : String :=
  String.ofList ('"' :: value.toList.flatMap escape ++ ['"'])

def scalar : Json → String
  | .boolean value => if value then "true" else "false"
  | .integer value => toString value
  | .decimal negative digits power => Number.text negative digits power
  | .text value => quote value
  | _ => "null"

mutual

def compact : Json → String
  | .array elements => "[" ++ ",".intercalate (compactElements elements) ++ "]"
  | .object fields => "\x7b" ++ ",".intercalate (compactFields fields) ++ "\x7d"
  | value => value.scalar

def compactElements : List Json → List String
  | [] => []
  | element :: rest => element.compact :: compactElements rest

def compactFields : List (String × Json) → List String
  | [] => []
  | (name, value) :: rest => (quote name ++ ":" ++ value.compact) :: compactFields rest

end

def newLine (depth : Nat) : String := String.ofList ('\n' :: List.replicate (2 * depth) ' ')

def block (depth : Nat) (opening closing : String) (items : List String) : String :=
  if items = [] then opening ++ closing
  else
    opening ++ newLine (depth + 1) ++ ("," ++ newLine (depth + 1)).intercalate items ++
      newLine depth ++ closing

mutual

def indentedAt (depth : Nat) : Json → String
  | .array elements => block depth "[" "]" (indentedElements (depth + 1) elements)
  | .object fields => block depth "\x7b" "\x7d" (indentedFields (depth + 1) fields)
  | value => value.scalar

def indentedElements (depth : Nat) : List Json → List String
  | [] => []
  | element :: rest => element.indentedAt depth :: indentedElements depth rest

def indentedFields (depth : Nat) : List (String × Json) → List String
  | [] => []
  | (name, value) :: rest =>
      (quote name ++ ": " ++ value.indentedAt depth) :: indentedFields depth rest

end

def indented (value : Json) : String := value.indentedAt 0

end ArchiveTraversal.Json
