import StructuralSchema.Text.Digits
import StructuralSchema.Text.Utf8

/-!
# Percent escapes

A percent sign with two hexadecimal digits stands for an octet.  Neighbouring
octets are read together as UTF-8, so one character may take several escapes.
Everything else stands for itself, a percent sign without two digits included.
-/

namespace StructuralSchema.Text.Percent

def octet? (high low : Char) : Option UInt8 :=
  match hexValue? high, hexValue? low with
  | some h, some l => some (UInt8.ofNat (16 * h + l))
  | _, _ => none

def decodeAfter (pending : List UInt8) : List Char → List Char
  | [] => Utf8.decodeLossy pending.reverse
  | '%' :: high :: low :: rest =>
    match octet? high low with
    | some octet => decodeAfter (octet :: pending) rest
    | none => Utf8.decodeLossy pending.reverse ++ '%' :: decodeAfter [] (high :: low :: rest)
  | c :: rest => Utf8.decodeLossy pending.reverse ++ c :: decodeAfter [] rest

def decode (text : List Char) : List Char :=
  decodeAfter [] text

end StructuralSchema.Text.Percent
