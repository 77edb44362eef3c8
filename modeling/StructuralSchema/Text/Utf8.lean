/-!
# UTF-8

Reading a character from a run of octets, or saying how the run fails to hold one.
A failure covers the longest start of a character that the octets do contain, so a
reader can either report it or put one replacement character in its place.
-/

namespace StructuralSchema.Text.Utf8

inductive Fault
  | badStart
  /-- The octet after the covered ones cannot continue the character. -/
  | badContinuation
  | truncated
  deriving DecidableEq, Repr

/-- The outcome of reading one character: the character or the fault, the count of octets
it covers, and the octets after them. -/
inductive Reading
  | character (c : Char) (length : Nat) (rest : List UInt8)
  | invalid (fault : Fault) (length : Nat) (rest : List UInt8)

/-- What a first octet announces: its own bits of the code point, the number of
octets to follow, and the range that the first of these must lie in. -/
structure Lead where
  bits : Nat
  following : Nat
  least : UInt8
  greatest : UInt8

/-- What the first octet of a character outside ASCII announces. -/
def lead? (octet : UInt8) : Option Lead :=
  if octet < 0xc2 then none
  else if octet < 0xe0 then some ⟨octet.toNat - 0xc0, 1, 0x80, 0xbf⟩
  else if octet = 0xe0 then some ⟨0, 2, 0xa0, 0xbf⟩
  else if octet = 0xed then some ⟨0xd, 2, 0x80, 0x9f⟩
  else if octet < 0xf0 then some ⟨octet.toNat - 0xe0, 2, 0x80, 0xbf⟩
  else if octet = 0xf0 then some ⟨0, 3, 0x90, 0xbf⟩
  else if octet < 0xf4 then some ⟨octet.toNat - 0xf0, 3, 0x80, 0xbf⟩
  else if octet = 0xf4 then some ⟨4, 3, 0x80, 0x8f⟩
  else none

/-- Reads the following octets of a character whose earlier octets gave `bits` and
number `taken`. -/
def readTail (bits taken : Nat) : Nat → UInt8 → UInt8 → List UInt8 → Reading
  | 0, _, _, rest => .character (Char.ofNat bits) taken rest
  | _ + 1, _, _, [] => .invalid .truncated taken []
  | following + 1, least, greatest, octet :: rest =>
    if least ≤ octet ∧ octet ≤ greatest then
      readTail (bits * 64 + (octet.toNat - 0x80)) (taken + 1) following 0x80 0xbf rest
    else .invalid .badContinuation taken (octet :: rest)

def readChar (octet : UInt8) (rest : List UInt8) : Reading :=
  if octet < 0x80 then .character (Char.ofNat octet.toNat) 1 rest
  else
    match lead? octet with
    | none => .invalid .badStart 1 rest
    | some lead => readTail lead.bits 1 lead.following lead.least lead.greatest rest

/-- Reads a character as `readChar` does, or a surrogate that is written as if it were one.
No character is a surrogate, so `U+FFFD` stands for it. -/
def readCharOrSurrogate (octet : UInt8) (rest : List UInt8) : Reading :=
  match rest with
  | second :: third :: after =>
    if octet = 0xed ∧ 0xa0 ≤ second ∧ second ≤ 0xbf ∧ 0x80 ≤ third ∧ third ≤ 0xbf then
      .character '\ufffd' 3 after
    else readChar octet rest
  | _ => readChar octet rest

structure DecodeError where
  fault : Fault
  position : Nat
  octets : List UInt8
  deriving DecidableEq, Repr

/-- Reads octets as characters with a reader for one of them, the first octet standing at
`position`; the count of octets bounds the number of steps. -/
def decodeFrom (read : UInt8 → List UInt8 → Reading) :
    Nat → Nat → List UInt8 → Except DecodeError (List Char)
  | _, _, [] => .ok []
  | 0, position, octet :: _ => .error ⟨.truncated, position, [octet]⟩
  | steps + 1, position, octet :: rest =>
    match read octet rest with
    | .character c length after => do
      let cs ← decodeFrom read steps (position + length) after
      .ok (c :: cs)
    | .invalid fault length _ => .error ⟨fault, position, (octet :: rest).take length⟩

def decode (octets : List UInt8) : Except DecodeError String :=
  (decodeFrom readChar octets.length 0 octets).map String.ofList

def decodeWithSurrogates (octets : List UInt8) : Except DecodeError String :=
  (decodeFrom readCharOrSurrogate octets.length 0 octets).map String.ofList

/-- Reads octets as characters, with one replacement character for each failure. -/
def decodeLossyFrom : Nat → List UInt8 → List Char
  | _, [] => []
  | 0, _ :: _ => []
  | steps + 1, octet :: rest =>
    match readChar octet rest with
    | .character c _ after => c :: decodeLossyFrom steps after
    | .invalid _ _ after => '\ufffd' :: decodeLossyFrom steps after

def decodeLossy (octets : List UInt8) : List Char :=
  decodeLossyFrom octets.length octets

def encode (text : List Char) : List UInt8 :=
  text.flatMap String.utf8EncodeChar

end StructuralSchema.Text.Utf8
