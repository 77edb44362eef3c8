import StructuralSchema.Number.Numeral
import StructuralSchema.Yaml.Error

/-!
# Numbers in YAML text

Whole numbers may be binary, octal, decimal, hexadecimal or in base sixty, and
floating-point numbers decimal or in base sixty; underscores between digits count for
nothing.  What a plain scalar looks like decides its kind, and its number is read from
the same text.
-/

namespace StructuralSchema.Yaml.Number

def unsigned : List Char → List Char
  | '+' :: rest => rest
  | '-' :: rest => rest
  | text => text

def isDigitOrGap (c : Char) : Bool :=
  c.isDigit || c = '_'

def isDecimal : List Char → Bool
  | [] => false
  | c :: rest => c.isDigit && rest.all isDigitOrGap

def isNonzeroDecimal (text : List Char) : Bool :=
  isDecimal text && text.head? ≠ some '0'

/-- A part of a number in base sixty: one digit, or two of which the first is at most
five. -/
def isSixtieth : List Char → Bool
  | [a] => a.isDigit
  | [a, b] => '0' ≤ a && a ≤ '5' && b.isDigit
  | _ => false

/-- Digits and underscores of a base, at least one. -/
def isRunOf (digit : Char → Bool) (text : List Char) : Bool :=
  !text.isEmpty && text.all fun c => digit c || c = '_'

def isWhole (text : List Char) : Bool :=
  match unsigned text with
  | ['0'] => true
  | '0' :: 'b' :: rest => isRunOf (fun c => c = '0' || c = '1') rest
  | '0' :: 'x' :: rest => isRunOf (fun c => (Text.hexValue? c).isSome) rest
  | '0' :: rest => isRunOf (fun c => '0' ≤ c && c ≤ '7') rest
  | digits =>
    match Text.pieces ':' digits with
    | first :: parts => isNonzeroDecimal first && parts.all isSixtieth
    | [] => false

def isFractionWithExponent (text : List Char) : Bool :=
  match text.dropWhile isDigitOrGap with
  | [] => true
  | e :: sign :: digits =>
    (e = 'e' || e = 'E') && (sign = '+' || sign = '-') && !digits.isEmpty &&
      digits.all Char.isDigit
  | _ => false

/-- The part of a number before its point, and the part after it if there is a point. -/
def splitPoint (text : List Char) : List Char × Option (List Char) :=
  match Text.cutAt (· = '.') text with
  | (whole, []) => (whole, none)
  | (whole, _ :: fraction) => (whole, some fraction)

/-- A number in base sixty with a fraction, of which all but the last part is whole. -/
def isSexagesimalFraction (whole fraction : List Char) : Bool :=
  match Text.pieces ':' whole with
  | first :: second :: parts =>
    isDecimal first && (second :: parts).all isSixtieth && fraction.all isDigitOrGap
  | _ => false

def infinityWords : List (List Char) :=
  [".inf".toList, ".Inf".toList, ".INF".toList]

def nanWords : List (List Char) :=
  [".nan".toList, ".NaN".toList, ".NAN".toList]

def isFloat (text : List Char) : Bool :=
  infinityWords.contains (unsigned text) || nanWords.contains text ||
    match splitPoint (unsigned text) with
    | (_, none) => false
    | (whole, some fraction) =>
      (isDecimal whole && isFractionWithExponent fraction) ||
        isSexagesimalFraction whole fraction ||
        (splitPoint text == ([], some fraction) && isDecimal (fraction.take 1) &&
          isFractionWithExponent fraction)

def signAndDigits (text : List Char) : Bool × List Char :=
  let text := text.filter (· ≠ '_')
  (text.head? = some '-', unsigned text)

def orBadValue {α : Type} (found : Option α) : Except Error α :=
  match found with
  | some a => .ok a
  | none => .error (.scalar .badValue)

def wholeParts (text : List Char) : Except Error Int := do
  let parts ← (Text.pieces ':' text).mapM fun part => orBadValue (Numeral.wholeIn? 10 part)
  return parts.foldl (fun n part => 60 * n + part) 0

/-- The whole number that a text writes.  Its start tells the base. -/
def whole (text : List Char) : Except Error Int := do
  let (negative, digits) := signAndDigits text
  let n ← match digits with
    | [] => .error (.scalar .emptyNumber)
    | ['0'] => .ok 0
    | '0' :: 'b' :: rest => orBadValue (Numeral.wholeIn? 2 rest)
    | '0' :: 'x' :: rest => orBadValue (Numeral.wholeIn? 16 rest)
    | '0' :: rest => orBadValue (Numeral.wholeIn? 8 ('0' :: rest))
    | digits => wholeParts digits
  return if negative then -n else n

/-- Adds parts of a number in base sixty to a sum, the last part first.  The weight of a
part has to be within the range of numbers, even if the part is zero. -/
def addParts (sum : Binary64) (weight : Nat) : List Binary64 → Except Error Binary64
  | [] => .ok sum
  | part :: rest =>
    let w := Binary64.ofInt weight
    if w.isInfinite then .error (.scalar .tooLarge)
    else addParts (sum.add (part.mul w)) (weight * 60) rest

/-- The text stands for what is no number by a word of its own, and not by that of a
number's digits. -/
def isNanWord (text : List Char) : Bool :=
  (signAndDigits (text.map Char.toLower)).2 = ".nan".toList

/-- The magnitude of a floating-point number with the sign still in front of its parts. -/
def floatMagnitude (digits : List Char) : Except Error Binary64 :=
  if digits = ".inf".toList then .ok (.infinite false)
  else if digits = ".nan".toList then .ok .nan
  else if digits.contains ':' then do
    let parts ← (Text.pieces ':' digits).mapM fun part => orBadValue (Numeral.float? part)
    addParts (.zero false) 1 parts.reverse
  else orBadValue (Numeral.float? digits)

def float (text : List Char) : Except Error Binary64 := do
  let lower := (text.filter (· ≠ '_')).map Char.toLower
  if lower.isEmpty then throw (.scalar .emptyNumber)
  let (negative, digits) := signAndDigits lower
  let magnitude ← floatMagnitude digits
  return if negative then magnitude.neg else magnitude

end StructuralSchema.Yaml.Number
