import StructuralSchema.Reference.Error
import StructuralSchema.Schema.Basic
import StructuralSchema.Text.Percent

/-!
# Walking to a node

A reference is a list of segments that lead from the document to one of its parts.
What a segment means depends on where it is applied: after `definitions` any segment
is a name, while `properties` and `items` keep their meaning as long as they have one.
-/

namespace StructuralSchema.Reference

/-- The segments of a reference into the same document, with their escapes read. -/
def segments? (reference : String) : Option (List String) :=
  match Text.after? ['#', '/'] reference.toList with
  | none => none
  | some path =>
    some ((Text.pieces '/' path).map fun segment =>
      String.ofList (Pointer.unescapeChars (Text.Percent.decode segment)))

inductive Position
  | definition (d : Definition)
  | propertyMap (properties : List (String × Property))
  | definitionMap (definitions : List (String × Definition))
  | property (p : Property)

def Position.property? : Position → Option Property
  | .definition d => d.specification
  | .property p => some p
  | _ => none

def propertyMapOf? : Option Property → Option Position
  | some (.node (.object properties _ _)) => some (.propertyMap properties)
  | _ => none

/-- The step `properties`.  Within a map of properties it goes on into the map of the
property of that name. -/
def stepProperties : Position → Option Position
  | .propertyMap properties => propertyMapOf? (properties.lookup "properties")
  | position => propertyMapOf? position.property?

/-- The step `items`, which only a node of arrays has. -/
def stepItems (position : Position) : Option Position :=
  match position.property? with
  | some (.node (.array items _)) => some (.property (.node items))
  | _ => none

def step (position : Position) (segment : String) : Option Position :=
  match position with
  | .definitionMap definitions => (definitions.lookup segment).map .definition
  | position =>
    if segment = "properties" then stepProperties position
    else if segment = "items" then stepItems position
    else
      match position with
      | .definition d =>
        if segment = "definitions" then d.definitions.map .definitionMap else none
      | .propertyMap properties => (properties.lookup segment).map .property
      | _ => none

/-- The position that segments lead to, or the first that does not apply. -/
def steps (position : Position) : List String → Except Reason Position
  | [] => .ok position
  | segment :: rest =>
    match step position segment with
    | none => .error (.segmentDoesNotApply segment)
    | some next => steps next rest

/-- What a reference can designate.  A definition that gives no type stands for
itself. -/
inductive Target
  | property (p : Property)
  | definition (d : Definition)

def target? : Position → Option Target
  | .property p => some (.property p)
  | .definition d =>
    match d.specification with
    | some p => some (.property p)
    | none => some (.definition d)
  | _ => none

def walk (document : Schema) (reference : String) : Except Reason Target :=
  match segments? reference with
  | none => .error .notLocal
  | some segments =>
    match document with
    | .boolean _ => .error .booleanRoot
    | .definition d =>
      match steps (.definition d) segments with
      | .error reason => .error reason
      | .ok position =>
        match target? position with
        | none => .error .endsOffNode
        | some target => .ok target

end StructuralSchema.Reference
