import StructuralSchema.Schema.Error

/-!
# Reading schemas from values

A value is read as a reference if it has a `$ref`, and otherwise as a node of the type
it names; unsupported keywords are kept.  A definition is read with the node that its
own object describes, if it has a `$ref` or a `type`.  The first rule that a part
breaks is the error.
-/

namespace StructuralSchema

abbrev Decoded (α : Type) : Type := Except DecodeError α

def refuse (place : Pointer) (complaint : Complaint) : Decoded α :=
  .error (.complaint place complaint)

def unsupportedOf (members : Members) : Annotations :=
  Keyword.all.filterMap fun keyword =>
    (lookup keyword.text members).map fun v => (keyword, v)

/-- The unsupported keywords among the members, whose values have to have an end. -/
def decodeUnsupported (members : Members) : Decoded Annotations :=
  if (unsupportedOf members).any fun entry => entry.2.isEndless then .error .endless
  else .ok (unsupportedOf members)

def decodeType (place : Pointer) (members : Members) : Decoded TypeName :=
  match (lookup "type" members).getD .null with
  | .str text =>
    match TypeName.ofText? text with
    | some type => .ok type
    | none => refuse (place.child "type") (.unknownType (.str text))
  | v => refuse (place.child "type") (.unknownType v)

/-- The text of a reference, which has to be an identifier. -/
def decodeReference (place : Pointer) : Value → Decoded Property
  | .str text =>
    match SchemaId.ofText? text with
    | some _ => .ok (.reference text)
    | none => refuse (place.child "$ref") (.badIdentifier text)
  | v => refuse (place.child "$ref") (.referenceNotText v.typeName)

/-- The bound of a node of numbers; null stands for no bound. -/
def exclusiveMinimumOf (members : Members) : Option Value :=
  match lookup "exclusiveMinimum" members with
  | some .null => none
  | bound => bound

def decodeNumeric (type : NumericType) (members : Members) : Decoded Property :=
  if (exclusiveMinimumOf members).any Value.isEndless then .error .endless
  else
    (decodeUnsupported members).map fun unsupported =>
      .node (.numeric type (exclusiveMinimumOf members) unsupported)

def decodePlain (type : PlainType) (members : Members) : Decoded Property :=
  (decodeUnsupported members).map fun unsupported => .node (.plain type unsupported)

def Value.text? : Value → Option String
  | .str text => some text
  | _ => none

/-- A list of texts.  A run of no octets is one too. -/
def Value.textList? : Value → Option (List String)
  | .arr elements => elements.mapM Value.text?
  | .pair v w => [v, w].mapM Value.text?
  | .bytes [] => some []
  | _ => none

def decodeRequired (place : Pointer) (members : Members) : Decoded (Option (List String)) :=
  match (lookup "required" members).getD .null with
  | .null => .ok none
  | v =>
    match v.textList? with
    | some names => .ok (some names)
    | none => refuse (place.child "required") .notTextList

mutual

def decodeProperty (place : Pointer) : Value → Decoded Property
  | .obj members =>
    match lookup "$ref" members with
    -- Nothing beside a reference is looked at, and nothing of it is kept.
    | some target => decodeReference place target
    | none =>
      match decodeType place members with
      | .error e => .error e
      | .ok .null => decodePlain .null members
      | .ok .boolean => decodePlain .boolean members
      | .ok .string => decodePlain .string members
      | .ok .integer => decodeNumeric .integer members
      | .ok .number => decodeNumeric .number members
      | .ok .array =>
        match decodeItems place members with
        | .error e => .error e
        | .ok items =>
          (decodeUnsupported members).map fun unsupported => .node (.array items unsupported)
      | .ok .object =>
        match decodeProperties place members with
        | .error e => .error e
        | .ok properties =>
          match decodeRequired place members with
          | .error e => .error e
          | .ok required =>
            (decodeUnsupported members).map fun unsupported =>
              .node (.object properties required unsupported)
  | .loop _ v => decodeProperty place v
  | .endless => .error .endless
  | v => refuse place (.notSchemaObject v.typeName)

/-- The node of the elements of an array, found among the members. -/
def decodeItems (place : Pointer) : List (Scalar × Value) → Decoded Node
  | [] => refuse place .arrayWithoutItems
  | (k, v) :: rest =>
    if k = .str "items" then
      match decodeProperty (place.child "items") v with
      | .error e => .error e
      | .ok (.node n) => .ok n
      | .ok (.reference _) => refuse (place.child "items") .itemsNotConcrete
    else decodeItems place rest

def decodeProperties (place : Pointer) :
    List (Scalar × Value) → Decoded (List (String × Property))
  | [] => .ok []
  | (k, v) :: rest =>
    if k = .str "properties" then decodePropertyMap (place.child "properties") v
    else decodeProperties place rest

def decodePropertyMap (place : Pointer) : Value → Decoded (List (String × Property))
  | .scalar .null => .ok []
  | .obj members => decodeEntries place members
  | .loop _ v => decodePropertyMap place v
  | .endless => .error .endless
  | _ => refuse place .notObject

def decodeEntries (place : Pointer) :
    List (Scalar × Value) → Decoded (List (String × Property))
  | [] => .ok []
  | (.str name, v) :: rest =>
    match decodeProperty (place.child name) v with
    | .error e => .error e
    | .ok property =>
      match decodeEntries place rest with
      | .error e => .error e
      | .ok properties => .ok ((name, property) :: properties)
  | (key, _) :: _ => .error (.keyNotText place key)

end

def decodeId (place : Pointer) (members : Members) : Decoded (Option SchemaId) :=
  match lookup "$id" members with
  | none => .ok none
  | some (.str text) =>
    match SchemaId.ofText? text with
    | some id => .ok (some id)
    | none => refuse (place.child "$id") (.badIdentifier text)
  | some v => refuse (place.child "$id") (.idNotText v.typeName)

def decodeDialect (place : Pointer) (members : Members) : Decoded (Option String) :=
  match (lookup "$schema" members).getD .null with
  | .null => .ok none
  | .str text =>
    if Uri.isAbsolute text then .ok (some text)
    else refuse (place.child "$schema") (.dialectNotUrl text)
  | v => refuse (place.child "$schema") (.dialectNotText v.typeName)

def decodeDescription (place : Pointer) (members : Members) : Decoded (Option String) :=
  match (lookup "description" members).getD .null with
  | .null => .ok none
  | .str text => .ok (some text)
  | _ => refuse (place.child "description") .descriptionNotText

def decodeDependencyEntries (place : Pointer) :
    List (Scalar × Value) → Decoded (List (Scalar × List String))
  | [] => .ok []
  | (key, v) :: rest =>
    match v.textList? with
    | some names =>
      match decodeDependencyEntries place rest with
      | .error e => .error e
      | .ok dependencies => .ok ((key, names) :: dependencies)
    | none =>
      match key with
      | .str name => refuse (place.child name) .notTextList
      | key => .error (.keyNotText place key)

def decodeDependencies (place : Pointer) (members : Members) :
    Decoded (Option (List (Scalar × List String))) :=
  match ((lookup "dependencies" members).getD .null).unlooped with
  | .null => .ok none
  | .obj entries =>
    match decodeDependencyEntries (place.child "dependencies") entries with
    | .error e => .error e
    | .ok dependencies => .ok (some dependencies)
  | _ => refuse (place.child "dependencies") .notObject

def decodeSpecification (place : Pointer) (members : Members) : Decoded (Option Property) :=
  if hasMember "$ref" members || hasMember "type" members then
    (decodeProperty place (.obj members)).map some
  else .ok none

mutual

def decodeDefinition (place : Pointer) : Value → Decoded Definition
  | .obj members =>
    do
      let id ← decodeId place members
      let dialect ← decodeDialect place members
      let description ← decodeDescription place members
      let specification ← decodeSpecification place members
      let dependencies ← decodeDependencies place members
      let definitions ← decodeDefinitions place members
      return .mk id dialect description dependencies specification definitions
  | .loop _ v => decodeDefinition place v
  | .endless => .error .endless
  | v => refuse place (.notSchemaObject v.typeName)

def decodeDefinitions (place : Pointer) :
    List (Scalar × Value) → Decoded (Option (List (String × Definition)))
  | [] => .ok none
  | (k, v) :: rest =>
    if k = .str "definitions" then decodeDefinitionMap (place.child "definitions") v
    else decodeDefinitions place rest

def decodeDefinitionMap (place : Pointer) :
    Value → Decoded (Option (List (String × Definition)))
  | .scalar .null => .ok none
  | .obj members => (decodeDefinitionEntries place members).map some
  | .loop _ v => decodeDefinitionMap place v
  | .endless => .error .endless
  | _ => refuse place .notObject

def decodeDefinitionEntries (place : Pointer) :
    List (Scalar × Value) → Decoded (List (String × Definition))
  | [] => .ok []
  | (.str name, v) :: rest =>
    match decodeDefinition (place.child name) v with
    | .error e => .error e
    | .ok definition =>
      match decodeDefinitionEntries place rest with
      | .error e => .error e
      | .ok definitions => .ok ((name, definition) :: definitions)
  | (key, _) :: _ => .error (.keyNotText place key)

end

namespace Schema

def decode (v : Value) : Except SchemaError Schema :=
  match v.unlooped with
  | .bool b => .ok (.boolean b)
  | .obj members =>
    match decodeDefinition .root (.obj members) with
    | .ok d => .ok (.definition d)
    | .error e => .error e.toSchemaError
  | v => .error (.badRoot v.typeName)

end Schema

end StructuralSchema
