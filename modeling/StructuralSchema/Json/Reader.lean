import StructuralSchema.Json.Fault
import StructuralSchema.Text.Cut
import StructuralSchema.Text.Digits
import StructuralSchema.Value.Basic

/-!
# Reading JSON text

The reader goes through the text once.  Each function takes the characters that are
left and gives what it read with the characters after it, or the fault with the
characters from the place at fault on.  The steps of a nested value are bounded by
the count of characters, as every step takes one.

The reader has no bounds of its own: neither on the digits of a number nor on the depth of a
value.  A text has characters only, so half of a pair of units, which an escape may write,
cannot be kept as it is and becomes `U+FFFD`.
-/

namespace StructuralSchema.Json

/-- A fault with the characters from the place at fault on. -/
structure Stop where
  fault : Fault
  rest : List Char

abbrev Reading (α : Type) : Type := Except Stop (α × List Char)

def isGap (c : Char) : Bool :=
  c = ' ' || c = '\t' || c = '\n' || c = '\r'

def skipGap (text : List Char) : List Char :=
  text.dropWhile isGap

def escaped? : Char → Option Char
  | '"' => some '"'
  | '\\' => some '\\'
  | '/' => some '/'
  | 'b' => some '\x08'
  | 'f' => some '\x0c'
  | 'n' => some '\n'
  | 'r' => some '\r'
  | 't' => some '\t'
  | _ => none

/-- The four hexadecimal digits after a `\u`, which at least one character follows. -/
def readUnit? : List Char → Option (Nat × List Char)
  | a :: b :: c :: d :: next :: rest =>
    (Text.readHex? [a, b, c, d]).map fun unit => (unit, next :: rest)
  | _ => none

def isHighUnit (unit : Nat) : Bool :=
  0xd800 ≤ unit && unit < 0xdc00

def isLowUnit (unit : Nat) : Bool :=
  0xdc00 ≤ unit && unit < 0xe000

/-- The character of a unit, with `U+FFFD` for half of a pair. -/
def unitChar (unit : Nat) : Char :=
  if isHighUnit unit || isLowUnit unit then '\ufffd' else Char.ofNat unit

def pairChar (high low : Nat) : Char :=
  Char.ofNat (0x10000 + (high - 0xd800) * 0x400 + (low - 0xdc00))

/-- The character of a `\u` escape, given the characters from the `u` on: one unit, or
a pair when a second escape follows that is not the last thing in the text. -/
def readUnicodeEscape (text : List Char) : Reading Char :=
  match readUnit? (text.drop 1) with
  | none => .error ⟨.badUnicodeEscape, text⟩
  | some (unit, rest) =>
    match isHighUnit unit && 6 < rest.length, rest with
    | true, '\\' :: 'u' :: second =>
      match readUnit? second with
      | none => .error ⟨.badUnicodeEscape, 'u' :: second⟩
      | some (low, after) =>
        if isLowUnit low then .ok (pairChar unit low, after) else .ok (unitChar unit, rest)
    | _, _ => .ok (unitChar unit, rest)

/-- The characters up to the closing quote, read so far in `taken`, newest first.  The
text that `opening` starts holds the opening quote. -/
def readChars (opening : List Char) : Nat → List Char → List Char → Reading String
  | _, _, [] => .error ⟨.unterminatedText, opening⟩
  | 0, _, _ :: _ => .error ⟨.unterminatedText, opening⟩
  | steps + 1, taken, c :: rest =>
    if c = '"' then .ok (String.ofList taken.reverse, rest)
    else if c = '\\' then
      match rest with
      | [] => .error ⟨.unterminatedText, opening⟩
      | 'u' :: _ =>
        match readUnicodeEscape rest with
        | .error stop => .error stop
        | .ok (d, after) => readChars opening steps (d :: taken) after
      | e :: after =>
        match escaped? e with
        | some d => readChars opening steps (d :: taken) after
        | none => .error ⟨.badEscape, c :: rest⟩
    else if c.toNat < 0x20 then .error ⟨.controlCharacter, c :: rest⟩
    else readChars opening steps (c :: taken) rest

def readText (rest : List Char) : Reading String :=
  readChars ('"' :: rest) rest.length [] rest

/-- The whole part of a number: zero, or digits that do not start with it. -/
def readWhole? : List Char → Option (List Char × List Char)
  | [] => none
  | c :: rest =>
    if c = '0' then some (['0'], rest)
    else if c.isDigit then
      some (c :: rest.takeWhile Char.isDigit, rest.dropWhile Char.isDigit)
    else none

/-- The digits of a fraction, none if no point with a digit after it comes first. -/
def readFraction : List Char → List Char × List Char
  | '.' :: rest =>
    match rest.takeWhile Char.isDigit with
    | [] => ([], '.' :: rest)
    | digits => (digits, rest.dropWhile Char.isDigit)
  | text => ([], text)

def readSign : List Char → Bool × List Char
  | '-' :: rest => (true, rest)
  | '+' :: rest => (false, rest)
  | text => (false, text)

/-- The exponent of a number, none if no exponent with a digit comes first. -/
def readExponent : List Char → Option Int × List Char
  | [] => (none, [])
  | e :: rest =>
    if e = 'e' ∨ e = 'E' then
      let (negative, text) := readSign rest
      match text.takeWhile Char.isDigit with
      | [] => (none, e :: rest)
      | digits =>
        (some (Binary64.signed negative (Text.decimalValue digits)), text.dropWhile Char.isDigit)
    else (none, e :: rest)

/-- The number at the start of a text: whole if it has neither a fraction nor an
exponent, otherwise floating-point. -/
def readNumber? (text : List Char) : Option (Scalar × List Char) :=
  let (negative, unsigned) := match text with
    | '-' :: rest => (true, rest)
    | _ => (false, text)
  match readWhole? unsigned with
  | none => none
  | some (whole, afterWhole) =>
    let (fraction, afterFraction) := readFraction afterWhole
    match readExponent afterFraction with
    | (none, rest) =>
      if fraction.isEmpty then
        some (.int (Binary64.signed negative (Text.decimalValue whole)), rest)
      else
        some (.float (Binary64.ofDecimal negative (Text.decimalValue (whole ++ fraction))
          (-(fraction.length : Int))), rest)
    | (some power, rest) =>
      some (.float (Binary64.ofDecimal negative (Text.decimalValue (whole ++ fraction))
        (power - fraction.length)), rest)

def words : List (String × Scalar) :=
  [("null", .null), ("true", .bool true), ("false", .bool false), ("NaN", .float .nan),
   ("Infinity", .float (.infinite false)), ("-Infinity", .float (.infinite true))]

def readScalar? (text : List Char) : Option (Scalar × List Char) :=
  match words.findSome? fun w => (Text.after? w.1.toList text).map (w.2, ·) with
  | some reading => some reading
  | none => readNumber? text

mutual

def readValue : Nat → List Char → Reading Value
  | _, [] => .error ⟨.expectedValue, []⟩
  | 0, text => .error ⟨.expectedValue, text⟩
  | _ + 1, '"' :: rest =>
    match readText rest with
    | .ok (text, after) => .ok (.str text, after)
    | .error stop => .error stop
  | steps + 1, '[' :: rest =>
    match skipGap rest with
    | ']' :: after => .ok (.arr [], after)
    | inner =>
      match readElements steps inner with
      | .ok (elements, after) => .ok (.arr elements, after)
      | .error stop => .error stop
  | steps + 1, '\x7b' :: rest =>
    match skipGap rest with
    | '\x7d' :: after => .ok (.obj [], after)
    | inner =>
      match readMembers steps inner with
      | .ok (members, after) => .ok (.obj (joinMembers members), after)
      | .error stop => .error stop
  | _ + 1, text =>
    match readScalar? text with
    | some (s, after) => .ok (.scalar s, after)
    | none => .error ⟨.expectedValue, text⟩

def readElements : Nat → List Char → Reading (List Value)
  | 0, text => .error ⟨.expectedValue, text⟩
  | steps + 1, text =>
    match readValue steps text with
    | .error stop => .error stop
    | .ok (v, after) =>
      match skipGap after with
      | ']' :: rest => .ok ([v], rest)
      | ',' :: rest =>
        match readElements steps (skipGap rest) with
        | .ok (elements, last) => .ok (v :: elements, last)
        | .error stop => .error stop
      | rest => .error ⟨.expectedComma, rest⟩

def readMembers : Nat → List Char → Reading Members
  | 0, text => .error ⟨.expectedName, text⟩
  | steps + 1, '"' :: text =>
    match readText text with
    | .error stop => .error stop
    | .ok (name, afterName) =>
      match skipGap afterName with
      | ':' :: value =>
        match readValue steps (skipGap value) with
        | .error stop => .error stop
        | .ok (v, after) =>
          match skipGap after with
          | '\x7d' :: rest => .ok ([(.str name, v)], rest)
          | ',' :: rest =>
            match readMembers steps (skipGap rest) with
            | .ok (members, last) => .ok ((.str name, v) :: members, last)
            | .error stop => .error stop
          | rest => .error ⟨.expectedComma, rest⟩
      | rest => .error ⟨.expectedColon, rest⟩
  | _ + 1, text => .error ⟨.expectedName, text⟩

end

def readWholeText (text : List Char) : Except Stop Value :=
  match readValue (2 * text.length + 2) (skipGap text) with
  | .error stop => .error stop
  | .ok (v, after) =>
    match skipGap after with
    | [] => .ok v
    | rest => .error ⟨.extraData, rest⟩

def parseChars (text : List Char) : Except SyntaxError Value :=
  match readWholeText text with
  | .ok v => .ok v
  | .error stop =>
    .error (.after stop.fault (text.take (text.length - stop.rest.length)))

/-- The value that a text writes.  A byte order mark at its start is refused. -/
def parse (text : String) : Except SyntaxError Value :=
  match text.toList with
  | '\ufeff' :: _ => .error (.after .byteOrderMark [])
  | chars => parseChars chars

end StructuralSchema.Json
