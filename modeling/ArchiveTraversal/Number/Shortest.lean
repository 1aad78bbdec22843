import ArchiveTraversal.Number.Double

/-!
Decimal texts of numbers in double precision. What is written is the decimal with the fewest digits
that rounds to the number, and the nearest such. All steps are exact arithmetic on fractions of
natural numbers.
-/

namespace ArchiveTraversal.Number

namespace Double

/-- Whether a fraction rounds to the number. The neighbour below a power of two is closer. -/
def holds (number : Double) (value : Fraction) : Bool :=
  let closer := number.significand = leastSignificand ∧ lowestExponent < number.exponent
  let low := number.quarters (4 * number.significand - if closer then 1 else 2)
  let high := number.quarters (4 * number.significand + 2)
  if number.significand % 2 = 0 then !value.less low && !high.less value
  else low.less value && value.less high

def magnitude (number : Double) : Int :=
  ((toString (number.value.scale 10 350).floor).length : Int) - 351

/-- Tries grids of rising fineness; of two neighbours that both round to the number, the nearer. -/
def shortestFrom (number : Double) : Nat → Int → Nat × Int
  | 0, power => ((number.value.scale 10 (-power)).round, power)
  | finer + 1, power =>
      let below := (number.value.scale 10 (-power)).floor
      let grid (digits : Nat) : Fraction := Fraction.scale (digits, 1) 10 power
      match number.holds (grid below), number.holds (grid (below + 1)) with
      | true, true => ((number.value.scale 10 (-power)).round, power)
      | true, false => (below, power)
      | false, true => (below + 1, power)
      | false, false => number.shortestFrom finer (power - 1)

def shortest (number : Double) : Nat × Int := number.shortestFrom 16 number.magnitude

end Double

def dropZeros : Nat → Nat × Int → Nat × Int
  | 0, value => value
  | bound + 1, (digits, power) =>
      if digits % 10 = 0 ∧ digits ≠ 0 then dropZeros bound (digits / 10, power + 1)
      else (digits, power)

/-- Positional from a hundred-thousandth up to ten to the sixteenth, scientific beyond, with a sign
before every exponent; there is always a point or an exponent. -/
def layOut (digits : List Char) (power : Int) : List Char :=
  let point : Int := digits.length + power
  if 0 ≤ power ∧ point ≤ 16 then digits ++ List.replicate power.toNat '0' ++ ['.', '0']
  else if 0 < point ∧ point ≤ 16 then
    digits.take point.toNat ++ '.' :: digits.drop point.toNat
  else if -5 < point ∧ point ≤ 0 then
    ['0', '.'] ++ List.replicate (-point).toNat '0' ++ digits
  else
    let exponent := (if 0 < point then ['e', '+'] else ['e']) ++ (toString (point - 1)).toList
    match digits with
    | first :: second :: rest => first :: '.' :: second :: rest ++ exponent
    | short => short ++ exponent

def text (negative : Bool) (digits : Nat) (power : Int) : String :=
  let sign := if negative then "-" else ""
  let number := Double.ofDecimal digits power
  if number.significand = 0 then sign ++ "0.0"
  else
    let (kept, place) := dropZeros 20 number.shortest
    sign ++ String.ofList (layOut (toString kept).toList place)

end ArchiveTraversal.Number
