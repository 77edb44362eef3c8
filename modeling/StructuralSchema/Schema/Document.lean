import StructuralSchema.Json.Printer
import StructuralSchema.Json.Reader
import StructuralSchema.Schema.Decode
import StructuralSchema.Schema.Encode

/-!
# Schemas as text

A schema document is JSON text, or octets that hold such text in the encoding they
announce.
-/

namespace StructuralSchema.Schema

def parse (text : String) : Except SchemaError Schema :=
  match Json.parse text with
  | .ok v => decode v
  | .error e => .error (.notJson e)

def parseOctets (octets : List UInt8) : Except SchemaError Schema :=
  match Text.decodeAnnounced octets with
  | .error e => .error (.notText e)
  | .ok text =>
    match Json.parseChars text.toList with
    | .ok v => decode v
    | .error e => .error (.notJson e)

def render? (indent : Option Int) (s : Schema) : Option String :=
  Json.render? indent s.encode

end StructuralSchema.Schema
