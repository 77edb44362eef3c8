import StructuralSchema.Text.Digits
import StructuralSchema.Text.Printable

/-!
# Literals

Messages that cite a text show it as a literal: between single quotes, or between
double quotes when the text holds a single quote and no double one.  Characters
that a reader could not see are written as escapes.  Octets have the same form
after a `b`, with every octet outside ASCII escaped.
-/

namespace StructuralSchema.Text

def literalQuote (text : List Char) : Char :=
  if text.contains '\'' && !text.contains '"' then '"' else '\''

/-- The escapes that every literal writes, whatever it holds. -/
def literalEscape? (quote c : Char) : Option (List Char) :=
  if c = quote ∨ c = '\\' then some ['\\', c]
  else if c = '\n' then some ['\\', 'n']
  else if c = '\r' then some ['\\', 'r']
  else if c = '\t' then some ['\\', 't']
  else none

def literalChar (quote c : Char) : List Char :=
  match literalEscape? quote c with
  | some escape => escape
  | none =>
    if isPrintable c then [c]
    else if c.toNat < 0x100 then '\\' :: 'x' :: hexDigits 2 c.toNat
    else if c.toNat < 0x10000 then '\\' :: 'u' :: hexDigits 4 c.toNat
    else '\\' :: 'U' :: hexDigits 8 c.toNat

def literal (text : String) : String :=
  let quote := literalQuote text.toList
  String.ofList (quote :: text.toList.flatMap (literalChar quote) ++ [quote])

def literalOctet (quote : Char) (octet : UInt8) : List Char :=
  let c := Char.ofNat octet.toNat
  match literalEscape? quote c with
  | some escape => escape
  | none =>
    if 0x20 ≤ octet ∧ octet < 0x7f then [c]
    else '\\' :: 'x' :: hexDigits 2 octet.toNat

def octetsLiteral (octets : List UInt8) : String :=
  let quote := literalQuote (octets.map fun octet => Char.ofNat octet.toNat)
  String.ofList ('b' :: quote :: octets.flatMap (literalOctet quote) ++ [quote])

end StructuralSchema.Text
