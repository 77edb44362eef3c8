import StructuralSchema.Text.Digits
import StructuralSchema.Text.Utf8

/-!
# Encodings

Octets that should hold a text announce their encoding by a byte order mark or, for
a text that starts with two ASCII characters, by where its zero octets stand.
Reading them gives the text or the first octets that are no character.
-/

namespace StructuralSchema.Text

inductive ByteOrder
  | little
  | big
  deriving DecidableEq, Repr

inductive Encoding
  | utf8
  | utf16 (order : ByteOrder)
  | utf32 (order : ByteOrder)
  deriving DecidableEq, Repr

def Encoding.name : Encoding → String
  | .utf8 => "utf-8"
  | .utf16 .little => "utf-16-le"
  | .utf16 .big => "utf-16-be"
  | .utf32 .little => "utf-32-le"
  | .utf32 .big => "utf-32-be"

inductive EncodingFault
  | utf8 (fault : Utf8.Fault)
  | partialUnit
  /-- The unit lies above the last code point. -/
  | beyondUnicode
  deriving DecidableEq, Repr

def EncodingFault.message : EncodingFault → String
  | .utf8 .badStart => "invalid start byte"
  | .utf8 .badContinuation => "invalid continuation byte"
  | .utf8 .truncated => "unexpected end of data"
  | .partialUnit => "truncated data"
  | .beyondUnicode => "code point not in range(0x110000)"

/-- Octets that are no text: the encoding they were read in, the first octets at
fault and where these start. -/
structure EncodingError where
  encoding : Encoding
  fault : EncodingFault
  position : Nat
  octets : List UInt8
  deriving DecidableEq, Repr

def EncodingError.message (e : EncodingError) : String :=
  let place := match e.octets with
    | [octet] =>
      "byte 0x" ++ String.ofList (hexDigits 2 octet.toNat) ++ " in position " ++ toString e.position
    | octets =>
      "bytes in position " ++ toString e.position ++ "-" ++
        toString (e.position + octets.length - 1)
  "'" ++ e.encoding.name ++ "' codec can't decode " ++ place ++ ": " ++ e.fault.message

def EncodingError.ofUtf8 (e : Utf8.DecodeError) : EncodingError :=
  ⟨.utf8, .utf8 e.fault, e.position, e.octets⟩

def decodeUtf8 (octets : List UInt8) : Except EncodingError String :=
  (Utf8.decode octets).mapError .ofUtf8

def ByteOrder.join : ByteOrder → Nat → Nat → Nat
  | .little, first, second => second * 0x100 + first
  | .big, first, second => first * 0x100 + second

def units16 (order : ByteOrder) : List UInt8 → List Nat × List UInt8
  | first :: second :: rest =>
    let (units, left) := units16 order rest
    (order.join first.toNat second.toNat :: units, left)
  | left => ([], left)

def units32 (order : ByteOrder) : List UInt8 → List Nat × List UInt8
  | a :: b :: c :: d :: rest =>
    let (units, left) := units32 order rest
    let unit := match order with
      | .little => order.join a.toNat b.toNat + 0x10000 * order.join c.toNat d.toNat
      | .big => 0x10000 * order.join a.toNat b.toNat + order.join c.toNat d.toNat
    (unit :: units, left)
  | left => ([], left)

/-- The characters of UTF-16 units, with `U+FFFD` for a surrogate without partner. -/
def charsOfUnits16 : List Nat → List Char
  | [] => []
  | high :: low :: rest =>
    if 0xd800 ≤ high ∧ high < 0xdc00 ∧ 0xdc00 ≤ low ∧ low < 0xe000 then
      Char.ofNat (0x10000 + (high - 0xd800) * 0x400 + (low - 0xdc00)) :: charsOfUnits16 rest
    else (if 0xd800 ≤ high ∧ high < 0xe000 then '\ufffd' else Char.ofNat high) ::
      charsOfUnits16 (low :: rest)
  | [unit] => [if 0xd800 ≤ unit ∧ unit < 0xe000 then '\ufffd' else Char.ofNat unit]

/-- The characters of UTF-32 units, with `U+FFFD` for a surrogate. -/
def charsOfUnits32 : List Nat → List Char
  | [] => []
  | unit :: rest =>
    (if 0xd800 ≤ unit ∧ unit < 0xe000 then '\ufffd' else Char.ofNat unit) :: charsOfUnits32 rest

/-- The text that octets write in an encoding, the first of them standing at
`position`.  A surrogate that is no half of a character counts as `U+FFFD`. -/
def Encoding.decodeAt (encoding : Encoding) (position : Nat) (octets : List UInt8) :
    Except EncodingError String :=
  match encoding with
  | .utf8 => (Utf8.decodeWithSurrogates octets).mapError .ofUtf8
  | .utf16 order =>
    match units16 order octets with
    | (units, []) => .ok (String.ofList (charsOfUnits16 units))
    | (units, left) => .error ⟨encoding, .partialUnit, position + 2 * units.length, left⟩
  | .utf32 order =>
    let (units, left) := units32 order octets
    let good := units.takeWhile (· < 0x110000)
    let start := position + 4 * good.length
    if good.length < units.length then
      .error ⟨encoding, .beyondUnicode, start, (octets.drop (4 * good.length)).take 4⟩
    else if left = [] then .ok (String.ofList (charsOfUnits32 units))
    else .error ⟨encoding, .partialUnit, start, left⟩

def markedEncoding? : List UInt8 → Option (Encoding × Nat)
  | 0 :: 0 :: 0xfe :: 0xff :: _ => some (.utf32 .big, 4)
  | 0xff :: 0xfe :: 0 :: 0 :: _ => some (.utf32 .little, 4)
  | 0xfe :: 0xff :: _ => some (.utf16 .big, 2)
  | 0xff :: 0xfe :: _ => some (.utf16 .little, 2)
  | 0xef :: 0xbb :: 0xbf :: _ => some (.utf8, 3)
  | _ => none

def unmarkedEncoding : List UInt8 → Encoding
  | 0 :: b :: _ :: _ :: _ => if b = 0 then .utf32 .big else .utf16 .big
  | _ :: 0 :: c :: d :: _ => if c = 0 ∧ d = 0 then .utf32 .little else .utf16 .little
  | [0, _] => .utf16 .big
  | [_, 0] => .utf16 .little
  | _ => .utf8

/-- The text that octets write in the encoding they announce; a byte order mark is
no part of it. -/
def decodeAnnounced (octets : List UInt8) : Except EncodingError String :=
  match markedEncoding? octets with
  | some (encoding, mark) => encoding.decodeAt mark (octets.drop mark)
  | none => (unmarkedEncoding octets).decodeAt 0 octets

end StructuralSchema.Text
