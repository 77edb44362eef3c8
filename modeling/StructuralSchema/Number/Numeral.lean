import StructuralSchema.Number.Binary64
import StructuralSchema.Text.Cut
import StructuralSchema.Text.Digits
import StructuralSchema.Text.Scripts

/-!
# Numerals

A number in text may have blanks around it and a sign in front, and its digits may be
of any script.  A whole number may repeat the mark of its base.
-/

namespace StructuralSchema.Numeral

/-- Whether a sign says that a number is negative, and the text after the sign. -/
def takeSign : List Char → Bool × List Char
  | '-' :: rest => (true, rest)
  | '+' :: rest => (false, rest)
  | text => (false, text)

def digitsIn? (base : Nat) (text : List Char) : Option Nat :=
  if text.isEmpty then none
  else
    text.foldlM (fun n c =>
      match Text.hexValue? c with
      | some d => if d < base then some (base * n + d) else none
      | none => none) 0

def afterBaseMark (base : Nat) : List Char → List Char
  | '0' :: mark :: rest =>
    if (base = 16 && (mark = 'x' || mark = 'X')) || (base = 8 && (mark = 'o' || mark = 'O')) ||
        (base = 2 && (mark = 'b' || mark = 'B')) then rest
    else '0' :: mark :: rest
  | text => text

def wholeIn? (base : Nat) (text : List Char) : Option Int :=
  let (negative, digits) := takeSign (Text.numberText text)
  (digitsIn? base (afterBaseMark base digits)).map (Binary64.signed negative ·)

/-- The power of ten that the rest of a number after its digits gives. -/
def tenPower? : List Char → Option Int
  | [] => some 0
  | e :: rest =>
    if e = 'e' || e = 'E' then
      let (negative, digits) := takeSign rest
      (digitsIn? 10 digits).map (Binary64.signed negative ·)
    else none

/-- The magnitude that digits with a point and an exponent write. -/
def decimal? (text : List Char) : Option Binary64 :=
  let (whole, afterWhole) := (text.takeWhile Char.isDigit, text.dropWhile Char.isDigit)
  let (fraction, exponent) := match afterWhole with
    | '.' :: rest => (rest.takeWhile Char.isDigit, rest.dropWhile Char.isDigit)
    | rest => ([], rest)
  match digitsIn? 10 (whole ++ fraction), tenPower? exponent with
  | some digits, some power => some (.ofDecimal false digits (power - fraction.length))
  | _, _ => none

def words : List (List Char × Binary64) :=
  [("inf".toList, .infinite false), ("infinity".toList, .infinite false), ("nan".toList, .nan)]

def float? (text : List Char) : Option Binary64 :=
  let (negative, magnitude) := takeSign (Text.numberText text)
  let found := match words.lookup magnitude with
    | some x => some x
    | none => decimal? magnitude
  found.map fun x => if negative then x.neg else x

end StructuralSchema.Numeral
