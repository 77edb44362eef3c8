import StructuralSchema.Number.Shortest

/-!
# Layout of floating-point numbers

Where a number is written, its shortest digits are laid out by a fixed choice:
positional between `1e-4` and `1e16`, always with a point or an exponent, otherwise
one digit before the point and an exponent.
-/

namespace StructuralSchema.Binary64

/-- The choices in which the places that write numbers differ. -/
structure Layout where
  plus : List Char
  exponentWidth : Nat
  notANumber : List Char
  infinity : List Char

/-- Exponents from here on are written as such. -/
def exponentFrom : Int := 16

/-- Exponents below this one are written as such. -/
def positionalFrom : Int := -4

def paddedNat (width n : Nat) : List Char :=
  let digits := Nat.toDigits 10 n
  List.replicate (width - digits.length) '0' ++ digits

def positional (digits : List Char) (point : Int) : List Char :=
  if point ≤ 0 then '0' :: '.' :: List.replicate (-point).toNat '0' ++ digits
  else
    let whole := point.toNat
    if digits.length ≤ whole then
      digits ++ List.replicate (whole - digits.length) '0' ++ ['.', '0']
    else digits.take whole ++ '.' :: digits.drop whole

def scientific (layout : Layout) (digits : List Char) (point : Int) : List Char :=
  let power := point - 1
  let mantissa := match digits with
    | first :: second :: rest => first :: '.' :: second :: rest
    | digits => digits
  let sign := if power < 0 then ['-'] else layout.plus
  mantissa ++ 'e' :: sign ++ paddedNat layout.exponentWidth power.natAbs

def layMagnitude (layout : Layout) (rank : Nat) : List Char :=
  if rank = 0 then ['0', '.', '0']
  else
    let (digits, point) := (shortest rank).digits
    if positionalFrom ≤ point - 1 ∧ point - 1 < exponentFrom then positional digits point
    else scientific layout digits point

def laySign (negative : Bool) (text : List Char) : List Char :=
  if negative then '-' :: text else text

def lay (layout : Layout) : Binary64 → String
  | .nan => String.ofList layout.notANumber
  | .infinite negative => String.ofList (laySign negative layout.infinity)
  | .finite negative rank => String.ofList (laySign negative (layMagnitude layout rank))

end StructuralSchema.Binary64
