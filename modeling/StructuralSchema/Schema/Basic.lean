import StructuralSchema.Identifier

/-!
# Schemas

A schema is a boolean or a definition.  A definition names and describes itself, may
give the type of the values it accepts and may hold further definitions by name.  A
node gives one type: the types of its parts are nodes again, or references to nodes
of the same document.
-/

namespace StructuralSchema

inductive TypeName
  | null
  | boolean
  | integer
  | number
  | string
  | array
  | object
  deriving DecidableEq, Repr

def TypeName.text : TypeName → String
  | .null => "null"
  | .boolean => "boolean"
  | .integer => "integer"
  | .number => "number"
  | .string => "string"
  | .array => "array"
  | .object => "object"

def TypeName.all : List TypeName :=
  [.null, .boolean, .integer, .number, .string, .array, .object]

def TypeName.ofText? (text : String) : Option TypeName :=
  TypeName.all.find? fun type => type.text == text

/-- Keywords that are kept but take no part in validation. -/
inductive Keyword
  | oneOf
  | anyOf
  | allOf
  | not
  | additionalProperties
  | patternProperties
  | format
  | pattern
  | enum
  deriving DecidableEq, Repr

def Keyword.text : Keyword → String
  | .oneOf => "oneOf"
  | .anyOf => "anyOf"
  | .allOf => "allOf"
  | .not => "not"
  | .additionalProperties => "additionalProperties"
  | .patternProperties => "patternProperties"
  | .format => "format"
  | .pattern => "pattern"
  | .enum => "enum"

/-- Every keyword, in the order in which nodes keep them. -/
def Keyword.all : List Keyword :=
  [.oneOf, .anyOf, .allOf, .not, .additionalProperties, .patternProperties, .format, .pattern,
   .enum]

abbrev Annotations : Type := List (Keyword × Value)

/-- A type without parts or bounds. -/
inductive PlainType
  | null
  | boolean
  | string
  deriving DecidableEq, Repr

inductive NumericType
  | integer
  | number
  deriving DecidableEq, Repr

mutual

inductive Node
  | plain (type : PlainType) (unsupported : List (Keyword × Value))
  | numeric (type : NumericType) (exclusiveMinimum : Option Value)
      (unsupported : List (Keyword × Value))
  | array (items : Node) (unsupported : List (Keyword × Value))
  | object (properties : List (String × Property)) (required : Option (List String))
      (unsupported : List (Keyword × Value))

/-- A node, or a reference to one. -/
inductive Property
  | node (n : Node)
  | reference (text : String)

end

def Node.unsupported : Node → Annotations
  | .plain _ unsupported => unsupported
  | .numeric _ _ unsupported => unsupported
  | .array _ unsupported => unsupported
  | .object _ _ unsupported => unsupported

def Node.typeName : Node → TypeName
  | .plain .null _ => .null
  | .plain .boolean _ => .boolean
  | .plain .string _ => .string
  | .numeric .integer _ _ => .integer
  | .numeric .number _ _ => .number
  | .array _ _ => .array
  | .object _ _ _ => .object

/-- A schema in object form, or a named part of one.  The type it gives stands in the
same object as its other members. -/
inductive Definition
  | mk (id : Option SchemaId) (dialect : Option String) (description : Option String)
      (dependencies : Option (List (Scalar × List String))) (specification : Option Property)
      (definitions : Option (List (String × Definition)))

namespace Definition

def id : Definition → Option SchemaId
  | .mk id _ _ _ _ _ => id

def dialect : Definition → Option String
  | .mk _ dialect _ _ _ _ => dialect

def description : Definition → Option String
  | .mk _ _ description _ _ _ => description

def dependencies : Definition → Option (List (Scalar × List String))
  | .mk _ _ _ dependencies _ _ => dependencies

def specification : Definition → Option Property
  | .mk _ _ _ _ specification _ => specification

def definitions : Definition → Option (List (String × Definition))
  | .mk _ _ _ _ _ definitions => definitions

end Definition

inductive Schema
  | boolean (b : Bool)
  | definition (d : Definition)

namespace Schema

def definition? : Schema → Option Definition
  | .boolean _ => none
  | .definition d => some d

def rootNode? (s : Schema) : Option Property :=
  s.definition?.bind Definition.specification

def rootType? (s : Schema) : Option TypeName :=
  match s.rootNode? with
  | some (.node n) => some n.typeName
  | _ => none

def properties? (s : Schema) : Option (List (String × Property)) :=
  match s.rootNode? with
  | some (.node (.object properties _ _)) => some properties
  | _ => none

def required? (s : Schema) : Option (List String) :=
  match s.rootNode? with
  | some (.node (.object _ required _)) => required
  | _ => none

/-- The name of the draft: the first segment of the dialect's path.  A dialect that is no URI
has no parts to look at. -/
def draft (s : Schema) : Except Uri.Malformed (Option String) :=
  match s.definition?.bind Definition.dialect with
  | none => .ok none
  | some dialect =>
    match Uri.ofText? dialect.toList with
    | some uri => .ok uri.firstSegment?
    | none => .error ⟨dialect⟩

def draft? (s : Schema) : Option String :=
  match s.draft with
  | .ok name => name
  | .error _ => none

end Schema

end StructuralSchema
