/-!
Numbers in double precision: a significand of 53 bits times a power of two, or a smaller one at the
lowest power. Each operation gives the number nearest to its exact result, a tie going to the even
significand; all steps are exact arithmetic on fractions of natural numbers. A decimal is read in
two steps, its digits first and then its power of ten, and each of them rounds.
-/

namespace ArchiveTraversal.Number

abbrev Fraction := Nat × Nat

def Fraction.scale (value : Fraction) (base : Nat) (power : Int) : Fraction :=
  if 0 ≤ power then (value.1 * Nat.pow base power.toNat, value.2)
  else (value.1, value.2 * Nat.pow base (-power).toNat)

def Fraction.floor (value : Fraction) : Nat := value.1 / value.2

def Fraction.round (value : Fraction) : Nat :=
  let whole := value.1 / value.2
  let left := 2 * (value.1 % value.2)
  if value.2 < left ∨ (value.2 = left ∧ whole % 2 = 1) then whole + 1 else whole

def Fraction.less (left right : Fraction) : Bool := left.1 * right.2 < right.1 * left.2

structure Double where
  significand : Nat
  exponent : Int
  deriving DecidableEq, Repr

def lowestExponent : Int := -1074

/-- Two to the 52nd power: a significand of 53 bits lies between it and its double. -/
def leastSignificand : Nat := 4503599627370496

def Double.nearest (value : Fraction) : Double :=
  let guess : Int := (Nat.log2 value.1 : Int) - Nat.log2 value.2 - 52
  let exact := if (value.scale 2 (-guess)).floor < leastSignificand then guess - 1 else guess
  let exponent := max exact lowestExponent
  let significand := (value.scale 2 (-exponent)).round
  if significand = 2 * leastSignificand then ⟨leastSignificand, exponent + 1⟩ else ⟨significand, exponent⟩

namespace Double

/-- Quarters of the distance between neighbours are fine enough for the ends of the interval. -/
def quarters (number : Double) (count : Nat) : Fraction :=
  Fraction.scale (count, 1) 2 (number.exponent - 2)

def value (number : Double) : Fraction := number.quarters (4 * number.significand)

def times (number factor : Double) : Double :=
  nearest (number.value.1 * factor.value.1, number.value.2 * factor.value.2)

def dividedBy (number divisor : Double) : Double :=
  nearest (number.value.1 * divisor.value.2, number.value.2 * divisor.value.1)

def tenTo (power : Nat) : Double := nearest (Nat.pow 10 power, 1)

def highestTen : Nat := 308

def dividedByTen : Nat → Nat → Double → Double
  | 0, power, number => number.dividedBy (tenTo power)
  | steps + 1, power, number =>
      if power ≤ highestTen then number.dividedBy (tenTo power)
      else if number.significand = 0 then number
      else dividedByTen steps (power - highestTen) (number.dividedBy (tenTo highestTen))

def ofDecimal (digits : Nat) (power : Int) : Double :=
  let number := nearest (digits, 1)
  if digits = 0 then number
  else if 0 ≤ power then number.times (tenTo power.toNat)
  else dividedByTen (power.natAbs / highestTen) power.natAbs number

end Double

end ArchiveTraversal.Number
