import ArchiveTraversal.CommandLine.Pattern.Class
import ArchiveTraversal.Text.Alphanumeric

/-!
Which texts are patterns. A pattern is made of atoms, classes between brackets, groups between
parentheses, alternatives between bars, and repetitions after what they repeat, and its parts may
be nested only so deep. It is read one part at a time. No event is ever held against a pattern, so
only its form matters.
-/

namespace ArchiveTraversal.CommandLine.Pattern

def deepest : Nat := 250

structure Item where
  depth : Nat := 0
  repeatable : Bool := true
  deriving DecidableEq, Repr

/-- A pattern or group as far as it is read: the depths of the alternatives before the last bar, and
the parts since then, the last one first. -/
structure Level where
  alternatives : List Nat := []
  items : List Item := []
  deriving DecidableEq, Repr

namespace Level

def sequenceDepth (level : Level) : Nat := joinedDepth (level.items.map Item.depth)

def depth (level : Level) : Nat := joinedDepth (level.sequenceDepth :: level.alternatives)

def add (level : Level) (item : Item) : Level := { level with items := item :: level.items }

def endAlternative (level : Level) : Level :=
  { alternatives := level.sequenceDepth :: level.alternatives }

def repeatLast? (level : Level) : Option Level :=
  match level.items with
  | ⟨depth, true⟩ :: before => some { level with items := ⟨depth + 1, true⟩ :: before }
  | _ => none

end Level

/-- What has been read: the level at hand, the open groups around it with the switches to go back
to, the open classes, and the names of groups. -/
structure State where
  switches : Switches := {}
  level : Level := {}
  groups : List (Level × Switches) := []
  classes : List ClassLevel := []
  names : List (List Char) := []
  deriving DecidableEq, Repr

def isName : List Char → Bool
  | [] => false
  | first :: others =>
      (first = '_' || Text.Alphanumeric.isLetter first) &&
        others.all fun value =>
          value ∈ ['_', '.', '[', ']'] || Text.Alphanumeric.contains value

namespace State

abbrev Step := Option (State × List Char)

def openGroup (state : State) : State :=
  { state with level := {}, groups := (state.level, state.switches) :: state.groups }

def openNamed (state : State) (text : List Char) : Step :=
  let name := text.takeWhile (· ≠ '>')
  match text.drop name.length with
  | [] => none
  | _ :: rest =>
      if isName name ∧ name ∉ state.names then
        some ({ state.openGroup with names := name :: state.names }, rest)
      else none

/-- Switches alone hold to the end of the group around them; before a colon they hold for a group of
their own. -/
def turnSwitches (state : State) (text : List Char) : Step :=
  let read := text.takeWhile (· ∉ [':', ')'])
  let switches := state.switches.turn read
  if !Switches.areLetters read then none
  else match text.drop read.length with
    | ':' :: rest => some ({ state.openGroup with switches }, rest)
    | ')' :: rest =>
        if read = [] then none
        else some ({ state with switches, level := state.level.add ⟨0, false⟩ }, rest)
    | _ => none

def startGroup (state : State) (text : List Char) : Step :=
  match state.switches.skip text with
  | '?' :: 'P' :: '<' :: rest | '?' :: '<' :: rest => state.openNamed rest
  | '?' :: rest => state.turnSwitches rest
  | rest => some (state.openGroup, rest)

def endGroup (state : State) (rest : List Char) : Step :=
  match state.groups with
  | [] => none
  | (level, switches) :: groups =>
      some ({ state with level := level.add { depth := state.level.depth + 1 }, switches, groups },
        rest)

/-- A question mark after a repetition belongs to it. -/
def repeatLast (state : State) (rest : List Char) : Step :=
  state.level.repeatLast?.map fun level =>
    ({ state with level }, if rest.head? = some '?' then rest.drop 1 else rest)

/-- A part of a pattern outside of classes. A brace would have to be closed to count repetitions,
and none can be. -/
def stepOutside (state : State) (value : Char) (rest : List Char) : Step :=
  match value with
  | '(' => state.startGroup rest
  | ')' => state.endGroup rest
  | '|' => some ({ state with level := state.level.endAlternative }, rest)
  | '[' =>
      (state.switches.openClass rest).map fun (level, left) =>
        ({ state with classes := [level] }, left)
  | '?' | '*' | '+' => state.repeatLast rest
  | '\x7b' => none
  | _ =>
      (Atom.read state.switches (value :: rest)).bind fun (atom, left) =>
        if state.switches.admits atom then some ({ state with level := state.level.add {} }, left)
        else none

def endClass (state : State) (level : ClassLevel) (outer : List ClassLevel) : State :=
  match outer with
  | [] => { state with classes := [], level := state.level.add { depth := level.depth + 1 } }
  | around :: outer => { state with classes := around.add (level.depth + 1) :: outer }

def step (state : State) (value : Char) (rest : List Char) : Step :=
  match state.classes with
  | [] => state.stepOutside value rest
  | level :: outer =>
      if value = ']' then some (state.endClass level outer, rest)
      else (state.switches.stepInClass level outer value rest).map fun (classes, left) =>
        ({ state with classes }, left)

def run (state : State) (text : List Char) : Option State :=
  match state.switches.skip text with
  | [] => some state
  | value :: rest =>
      match state.step value rest with
      | none => none
      | some (next, left) => if left.length < text.length then next.run left else none
termination_by text.length

def isComplete (state : State) : Bool :=
  state.groups = [] && state.classes = [] && decide (state.level.depth ≤ deepest)

end State

def accepts (text : List Char) : Bool := (State.run {} text).any State.isComplete

end ArchiveTraversal.CommandLine.Pattern
