import StructuralSchema.Number.Binary64

/-!
# Shortest decimal text of a floating-point number

Of all decimals that round to a number, its text shows one with the fewest digits
and, among these, the nearest.  The decimals that round to a number fill an
interval, whose ends belong to it when the significand is even.
-/

namespace StructuralSchema.Binary64

structure Decimal where
  coefficient : Nat
  power : Int
  deriving DecidableEq, Repr

/-- The interval of fractions `a / den` that round to the magnitude of a rank. -/
structure RoundingInterval where
  least : Nat
  value : Nat
  greatest : Nat
  den : Nat
  closed : Bool

/-- The rounding interval of a rank.  Below a power of two the neighbour is only half
as far away. -/
def roundingInterval (rank : Nat) : RoundingInterval :=
  let m := significand rank
  let scale := scaleRatio 1 1 (exponent rank - 2)
  let below := if m = binade ∧ 2 * binade ≤ rank then 1 else 2
  { least := (4 * m - below) * scale.1
    value := 4 * m * scale.1
    greatest := (4 * m + 2) * scale.1
    den := scale.2
    closed := m % 2 = 0 }

def RoundingInterval.holds (i : RoundingInterval) (num den : Nat) : Bool :=
  if i.closed then i.least * den ≤ num * i.den && num * i.den ≤ i.greatest * den
  else i.least * den < num * i.den && num * i.den < i.greatest * den

/-- The whole `p` with `10 ^ (p - 1) ≤ num / den < 10 ^ p`, for positive numbers. -/
def decimalPoint (num den : Nat) : Int :=
  if den ≤ num then decimalLength (num / den)
  else
    let length := decimalLength (den / num)
    if num * Nat.pow 10 (length - 1) = den then 2 - (length : Int) else 1 - (length : Int)

def tenPower : Int → Nat × Nat
  | .ofNat p => (Nat.pow 10 p, 1)
  | .negSucc p => (1, Nat.pow 10 (p + 1))

/-- The decimal on the grid of multiples of `10 ^ power` that lies in the interval, the
one nearer to its value if there are two, the even one if they are as near. -/
def RoundingInterval.onGrid? (i : RoundingInterval) (power : Int) : Option Decimal :=
  let unit := tenPower power
  let num := i.value * unit.2
  let den := i.den * unit.1
  let lower := num / den
  let rest := num % den
  let lowerHit := i.holds (lower * unit.1) unit.2
  let upperHit := i.holds ((lower + 1) * unit.1) unit.2
  let preferUpper := den < 2 * rest || (den == 2 * rest && lower % 2 == 1)
  if lowerHit && upperHit then
    some ⟨if preferUpper then lower + 1 else lower, power⟩
  else if lowerHit then some ⟨lower, power⟩
  else if upperHit then some ⟨lower + 1, power⟩
  else none

/-- The shortest decimal that rounds to the magnitude of a positive rank.  Seventeen
digits always suffice. -/
def shortest (rank : Nat) : Decimal :=
  let i := roundingInterval rank
  let point := decimalPoint i.value i.den
  match (List.range 17).findSome? fun (n : Nat) => i.onGrid? (point - 1 - n) with
  | some decimal => decimal
  | none => ⟨0, 0⟩

/-- The digits of a decimal without trailing zeros, and the place of its point
counted from the first digit. -/
def Decimal.digits (d : Decimal) : List Char × Int :=
  let all := Nat.toDigits 10 d.coefficient
  ((all.reverse.dropWhile (· = '0')).reverse, all.length + d.power)

end StructuralSchema.Binary64
