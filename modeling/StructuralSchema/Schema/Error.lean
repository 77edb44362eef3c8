import StructuralSchema.Json.Fault
import StructuralSchema.Schema.Basic
import StructuralSchema.Text.Encoding
import StructuralSchema.Value.Literal

/-!
# Schema errors

A document that is no schema is refused with a complaint about one place in it.
-/

namespace StructuralSchema

inductive Complaint
  | idNotText (found : String)
  | dialectNotText (found : String)
  | dialectNotUrl (text : String)
  | descriptionNotText
  | badIdentifier (text : String)
  | referenceNotText (found : String)
  | notSchemaObject (found : String)
  | unknownType (found : Value)
  | arrayWithoutItems
  | itemsNotConcrete
  | notObject
  | notTextList

def Complaint.message : Complaint → String
  | .idNotText found => " must be a string, got " ++ found ++ "."
  | .dialectNotText found => " must be a string, got " ++ found ++ "."
  | .dialectNotUrl text => " must be an absolute URL, got " ++ Text.literal text ++ "."
  | .descriptionNotText => " must be a string."
  | .badIdentifier text => ": " ++ (SchemaId.Error.malformed text).message
  | .referenceNotText found => " must be a string, got " ++ found ++ "."
  | .notSchemaObject found => " must be a schema object, got " ++ found ++ "."
  | .unknownType found => " has unsupported value " ++ found.literal ++ "."
  | .arrayWithoutItems => " declares type 'array' without items."
  | .itemsNotConcrete => " must be a concrete schema, not a $ref."
  | .notObject => " must be an object."
  | .notTextList => " must be a list of strings."

/-- Why a value is no node or definition.  A key that is no text names no place, so no
complaint can be made about what it leads to.  A value that holds itself where its parts
are read has no end. -/
inductive DecodeError
  | complaint (place : Pointer) (complaint : Complaint)
  | keyNotText (place : Pointer) (key : Scalar)
  | endless

inductive SchemaError
  | notJson (error : Json.SyntaxError)
  | notText (error : Text.EncodingError)
  | badRoot (found : String)
  | complaint (place : Pointer) (complaint : Complaint)
  | keyNotText (place : Pointer) (key : Scalar)
  | endless

def DecodeError.toSchemaError : DecodeError → SchemaError
  | .complaint place wrong => .complaint place wrong
  | .keyNotText place key => .keyNotText place key
  | .endless => .endless

def placedMessage (base : String) (place : Pointer) (complaint : Complaint) : String :=
  base ++ place.toText ++ complaint.message

/-- The wording of an error; an unusable key has none, and what has no end neither. -/
def SchemaError.message? : SchemaError → Option String
  | .notJson e => some ("Invalid JSON schema text: " ++ e.message)
  | .notText e => some ("Invalid JSON schema text: " ++ e.message)
  | .badRoot found => some ("Schema root must be an object or a boolean, got " ++ found ++ ".")
  | .complaint place wrong => some (placedMessage "#" place wrong)
  | .keyNotText _ _ => none
  | .endless => none

end StructuralSchema
