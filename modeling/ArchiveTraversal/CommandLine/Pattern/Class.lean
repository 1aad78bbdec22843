import ArchiveTraversal.CommandLine.Pattern.Atom

/-!
Classes of characters between brackets: single characters, ranges, classes within, and operators
that combine what stands before them with what follows. A class is read one member at a time, and
all that is kept of it is how deep its parts are nested.
-/

namespace ArchiveTraversal.CommandLine.Pattern

/-- The depth of parts side by side. Two or more of them form a part of their own. -/
def joinedDepth : List Nat → Nat
  | [] => 0
  | [depth] => depth
  | depths => 1 + depths.foldl max 0

/-- An open class: the depth of what stands before the last operator, and the depths of the members
since then. -/
structure ClassLevel where
  left : Option Nat := none
  members : List Nat := []
  deriving DecidableEq, Repr

namespace ClassLevel

def depth (level : ClassLevel) : Nat :=
  match level.left with
  | none => joinedDepth level.members
  | some left => 1 + max left (joinedDepth level.members)

def combine (level : ClassLevel) : ClassLevel := { left := some level.depth }

def add (level : ClassLevel) (depth : Nat) : ClassLevel :=
  { level with members := depth :: level.members }

end ClassLevel

namespace Switches

def readDashes (switches : Switches) : List Char → List Nat × List Char
  | '-' :: rest =>
      let (dashes, left) := switches.readDashes (switches.skip rest)
      (0 :: dashes, left)
  | text => ([], text)
termination_by text => text.length
decreasing_by
  have shorter := switches.length_skip_le rest
  simp only [List.length_cons]
  omega

/-- What may stand only at the start of a class: dashes, or else a closing bracket. -/
def readHead (switches : Switches) (text : List Char) : ClassLevel × List Char :=
  match switches.readDashes text with
  | ([], ']' :: rest) => ({ members := [0] }, switches.skip rest)
  | (dashes, rest) => ({ members := dashes }, rest)

/-- The start of a class after its bracket. All but some bytes would be halves of characters. -/
def openClass (switches : Switches) (text : List Char) : Option (ClassLevel × List Char) :=
  let text := switches.skip text
  let denied := text.head? = some '^'
  let (level, rest) := switches.readHead (if denied then switches.skip (text.drop 1) else text)
  if denied ∧ switches.bytewise then none
  else if level.members ≠ [] ∧ !switches.admitsMember (.ofChar '-') then none
  else some (level, rest)

/-- One character of a class, or a range of them, which may not run downwards. A dash before the end
of the class or before another dash makes no range. -/
def readRange (switches : Switches) (text : List Char) : Option (List Char) := do
  let (first, rest) ← Atom.readMember switches text
  if !switches.admitsMember first then none
  match switches.skip rest with
  | '-' :: after =>
      if switches.ahead? after ∈ [some ']', some '-'] then return '-' :: after
      let (last, rest) ← Atom.readMember switches (switches.skip after)
      match first, last with
      | .character low _, .character high _ =>
          if low ≤ high ∧ switches.admitsMember last then return rest else none
      | _, _ => none
  | rest => return rest

def classNames : List String :=
  ["alnum", "alpha", "ascii", "blank", "cntrl", "digit", "graph", "lower", "print", "punct", "space",
    "upper", "word", "xdigit"]

def readNamedClass : List Char → Option (Bool × List Char)
  | ':' :: text =>
      let denied := text.head? = some '^'
      let text := if denied then text.drop 1 else text
      let name := text.takeWhile (· ≠ ':')
      match text.drop name.length with
      | ':' :: ']' :: rest =>
          if classNames.contains (String.ofList name) then some (denied, rest) else none
      | _ => none
  | _ => none

def admitsNamedClass (switches : Switches) (denied : Bool) : Bool :=
  if switches.bytewise then !denied else !switches.caseless

def stepInClass (switches : Switches) (level : ClassLevel) (outer : List ClassLevel) (value : Char)
    (rest : List Char) : Option (List ClassLevel × List Char) :=
  if value = '[' then
    match readNamedClass rest with
    | some (denied, left) =>
        if switches.admitsNamedClass denied then some (level.add 0 :: outer, left) else none
    | none => (switches.openClass rest).map fun (inner, left) => (inner :: level :: outer, left)
  else if value ∈ ['&', '-', '~'] ∧ rest.head? = some value then
    some (level.combine :: outer, rest.drop 1)
  else (switches.readRange (value :: rest)).map fun left => (level.add 0 :: outer, left)

end Switches

end ArchiveTraversal.CommandLine.Pattern
