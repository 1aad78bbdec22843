import ArchiveTraversal.CommandLine.Pattern.Switches

/-!
The smallest parts of a pattern: a character, written as it is or after a backslash, a class named
by one letter, and a border between characters. There are no tables of characters beyond ASCII, so
what needs one is refused unless matching goes by bytes: the other case of a letter, the digits of
all scripts, the ends of words. Matching by bytes may not find half a character.
-/

namespace ArchiveTraversal.CommandLine.Pattern

/-- A character may have been given by the number of a byte. -/
inductive Atom where
  | character (value : Nat) (asByte : Bool)
  | any
  | named (denied : Bool)
  | border (ofWords : Bool)
  deriving DecidableEq, Repr

namespace Atom

def ofChar (value : Char) : Atom := .character value.toNat false

def digitValue? (value : Char) : Option Nat :=
  if value.isDigit then some (value.toNat - '0'.toNat)
  else if 'a' ≤ value ∧ value ≤ 'f' then some (value.toNat - 'a'.toNat + 10)
  else if 'A' ≤ value ∧ value ≤ 'F' then some (value.toNat - 'A'.toNat + 10)
  else none

/-- So many hexadecimal digits, between which there may be gaps. -/
def readDigits (switches : Switches) : Nat → Nat → List Char → Option (Nat × List Char)
  | 0, read, text => some (read, text)
  | _ + 1, _, [] => none
  | left + 1, read, value :: rest =>
      (digitValue? value).bind fun digit =>
        readDigits switches left (read * 16 + digit) (switches.skip rest)

def readNumber (switches : Switches) (count : Nat) (text : List Char) :
    Option (Atom × List Char) :=
  match readDigits switches count 0 (switches.skip text) with
  | none => none
  | some (value, rest) =>
      if value.isValidChar then some (.character value (count = 2), rest) else none

def isPlainEscaped (value : Char) : Bool :=
  value.toNat < 0x80 && !value.isAlphanum && value ≠ '<' && value ≠ '>'

def controls : List (Char × Nat) :=
  [('a', 0x07), ('t', 0x09), ('n', 0x0A), ('v', 0x0B), ('f', 0x0C), ('r', 0x0D)]

def readEscape (switches : Switches) : List Char → Option (Atom × List Char)
  | [] => none
  | value :: rest =>
      if isPlainEscaped value then some (ofChar value, rest)
      else match controls.lookup value with
        | some code => some (.character code false, rest)
        | none =>
            match value with
            | 'd' | 's' | 'w' => some (.named false, rest)
            | 'D' | 'S' | 'W' => some (.named true, rest)
            | 'A' | 'z' => some (.border false, rest)
            | 'b' | 'B' | '<' | '>' => some (.border true, rest)
            | 'x' => readNumber switches 2 rest
            | 'u' => readNumber switches 4 rest
            | 'U' => readNumber switches 8 rest
            | _ => none

def read (switches : Switches) : List Char → Option (Atom × List Char)
  | [] => none
  | '\\' :: rest => readEscape switches rest
  | '.' :: rest => some (.any, rest)
  | '^' :: rest | '$' :: rest => some (.border false, rest)
  | value :: rest => some (ofChar value, rest)

def readMember (switches : Switches) : List Char → Option (Atom × List Char)
  | [] => none
  | '\\' :: rest => readEscape switches rest
  | value :: rest => some (ofChar value, rest)

end Atom

namespace Switches

def admits (switches : Switches) : Atom → Bool
  | .character value asByte =>
      if switches.bytewise then !asByte || decide (value < 0x80) else !switches.caseless
  | .any => !switches.bytewise
  | .named denied => switches.bytewise && !denied
  | .border ofWords => !ofWords || switches.bytewise

def admitsMember (switches : Switches) : Atom → Bool
  | .character value _ =>
      if switches.bytewise then decide (value < 0x80) else !switches.caseless
  | .named denied => switches.bytewise && !denied
  | _ => false

end Switches

end ArchiveTraversal.CommandLine.Pattern
