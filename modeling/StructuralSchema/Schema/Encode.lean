import StructuralSchema.Schema.Basic

/-!
# Writing schemas as values

A schema is written with the keywords it was read from, in a fixed order.  The members
of the node that a definition gives stand between its own members.
-/

namespace StructuralSchema

def field (name : String) (v : Value) : Scalar × Value :=
  (.str name, v)

def textList (names : List String) : Value :=
  .arr (names.map Value.str)

def optionalField (name : String) (v : Option Value) : Members :=
  match v with
  | none => []
  | some v => [field name v]

def encodeUnsupported (unsupported : Annotations) : Members :=
  unsupported.map fun entry => field entry.1.text entry.2

mutual

def Node.encode : Node → List (Scalar × Value)
  | .plain .null unsupported =>
    field "type" (.str "null") :: encodeUnsupported unsupported
  | .plain .boolean unsupported =>
    field "type" (.str "boolean") :: encodeUnsupported unsupported
  | .plain .string unsupported =>
    field "type" (.str "string") :: encodeUnsupported unsupported
  | .numeric .integer bound unsupported =>
    field "type" (.str "integer") ::
      (optionalField "exclusiveMinimum" bound ++ encodeUnsupported unsupported)
  | .numeric .number bound unsupported =>
    field "type" (.str "number") ::
      (optionalField "exclusiveMinimum" bound ++ encodeUnsupported unsupported)
  | .array items unsupported =>
    field "type" (.str "array") :: field "items" (.obj items.encode) ::
      encodeUnsupported unsupported
  | .object properties required unsupported =>
    field "type" (.str "object") :: field "properties" (.obj (encodeProperties properties)) ::
      (optionalField "required" (required.map textList) ++ encodeUnsupported unsupported)

def Property.encode : Property → List (Scalar × Value)
  | .node n => n.encode
  | .reference text => [field "$ref" (.str text)]

def encodeProperties : List (String × Property) → List (Scalar × Value)
  | [] => []
  | (name, property) :: rest => field name (.obj property.encode) :: encodeProperties rest

end

def encodeDependencies (dependencies : List (Scalar × List String)) : Members :=
  dependencies.map fun entry => (entry.1, textList entry.2)

def encodeSpecification : Option Property → Members
  | none => []
  | some property => property.encode

mutual

def Definition.encode : Definition → List (Scalar × Value)
  | .mk id dialect description dependencies specification definitions =>
    optionalField "$id" (id.map fun id => .str id.toText) ++
      optionalField "$schema" (dialect.map .str) ++
      optionalField "description" (description.map .str) ++
      optionalField "dependencies" (dependencies.map fun d => .obj (encodeDependencies d)) ++
      encodeSpecification specification ++
      optionalField "definitions" (encodeDefinitions? definitions)

def encodeDefinitions? : Option (List (String × Definition)) → Option Value
  | none => none
  | some definitions => some (.obj (encodeDefinitions definitions))

def encodeDefinitions : List (String × Definition) → List (Scalar × Value)
  | [] => []
  | (name, definition) :: rest =>
    field name (.obj definition.encode) :: encodeDefinitions rest

end

namespace Schema

def encode : Schema → Value
  | .boolean b => .bool b
  | .definition d => .obj d.encode

end Schema

end StructuralSchema
