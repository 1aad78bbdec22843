import ArchiveTraversal.Text.Blank

/-!
Switches in a pattern, and the gaps that one of them allows. Where a pattern is spaced, blanks and
comments between its parts mean nothing; a comment runs from a number sign to the end of its line.
-/

namespace ArchiveTraversal.CommandLine.Pattern

/-- The switches `i` and `x`, and the opposite of `u`. -/
structure Switches where
  caseless : Bool := false
  spaced : Bool := false
  bytewise : Bool := false
  deriving DecidableEq, Repr

def skipGaps (inComment : Bool) : List Char → List Char
  | [] => []
  | value :: rest =>
      if inComment then skipGaps (value ≠ '\n') rest
      else if Text.Blank.contains value then skipGaps false rest
      else if value = '#' then skipGaps true rest
      else value :: rest

theorem length_skipGaps_le (inComment : Bool) (text : List Char) :
    (skipGaps inComment text).length ≤ text.length := by
  induction text generalizing inComment with
  | nil => exact Nat.le_refl _
  | cons value rest ih =>
      simp only [skipGaps]
      split
      · exact Nat.le_succ_of_le (ih _)
      · split
        · exact Nat.le_succ_of_le (ih _)
        · split
          · exact Nat.le_succ_of_le (ih _)
          · exact Nat.le_refl _

/-- What a look ahead meets: the first character that is not blank, in a comment as well. -/
def firstAhead? (inComment : Bool) : List Char → Option Char
  | [] => none
  | value :: rest =>
      if Text.Blank.contains value then firstAhead? inComment rest
      else if value = '#' ∧ !inComment then firstAhead? true rest
      else some value

namespace Switches

def skip (switches : Switches) (text : List Char) : List Char :=
  if switches.spaced then skipGaps false text else text

theorem length_skip_le (switches : Switches) (text : List Char) :
    (switches.skip text).length ≤ text.length := by
  unfold skip
  split
  · exact length_skipGaps_le false text
  · exact Nat.le_refl _

def ahead? (switches : Switches) (text : List Char) : Option Char :=
  if switches.spaced then (firstAhead? false text).or text.head? else text.head?

def areLetters (read : List Char) : Bool :=
  read.all (· ∈ "imsUuRx-".toList) && decide read.Nodup && read.getLast? ≠ some '-'

def turned (read : List Char) (letter : Char) (before : Bool) : Bool :=
  letter ∈ read.takeWhile (· ≠ '-') || (before && letter ∉ read)

def turn (switches : Switches) (read : List Char) : Switches where
  caseless := turned read 'i' switches.caseless
  spaced := turned read 'x' switches.spaced
  bytewise := !turned read 'u' (!switches.bytewise)

end Switches

end ArchiveTraversal.CommandLine.Pattern
