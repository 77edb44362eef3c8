import StructuralSchema.Schema.Basic
import StructuralSchema.Value.Equality

/-!
# Equality of schemas

Two schemas are the same when they have the same parts: maps regardless of order,
lists in order, and the values of keywords up to the sameness of values.
-/

namespace StructuralSchema

def sameOption {α : Type} (same : α → α → Bool) : Option α → Option α → Bool
  | none, none => true
  | some a, some b => same a b
  | _, _ => false

/-- Two maps have the same entries in any order. -/
def sameMap {κ α : Type} [BEq κ] (same : α → α → Bool) (a b : List (κ × α)) : Bool :=
  a.length == b.length &&
    a.all fun entry =>
      match b.lookup entry.1 with
      | some other => same entry.2 other
      | none => false

def sameAnnotations (a b : Annotations) : Bool :=
  sameMap Value.same a b

def sameDependencies (a b : List (Scalar × List String)) : Bool :=
  a.length == b.length &&
    a.all fun entry =>
      match lookupSame entry.1 b with
      | some names => entry.2 == names
      | none => false

mutual

def Node.same : Node → Node → Bool
  | .plain t a, .plain u b => t == u && sameAnnotations a b
  | .numeric t m a, .numeric u n b =>
    t == u && sameOption Value.same m n && sameAnnotations a b
  | .array n a, .array m b => n.same m && sameAnnotations a b
  | .object ps r a, .object qs q b =>
    ps.length == qs.length && propertiesWithin ps qs && r == q && sameAnnotations a b
  | _, _ => false

def Property.same : Property → Property → Bool
  | .node n, .node m => n.same m
  | .reference r, .reference q => r == q
  | _, _ => false

def propertiesWithin : List (String × Property) → List (String × Property) → Bool
  | [], _ => true
  | (name, p) :: rest, others =>
    (match others.lookup name with
      | some q => p.same q
      | none => false) && propertiesWithin rest others

end

mutual

def Definition.same : Definition → Definition → Bool
  | .mk id dialect description dependencies specification definitions, other =>
    id == other.id && dialect == other.dialect && description == other.description &&
      sameOption sameDependencies dependencies other.dependencies &&
      sameOption Property.same specification other.specification &&
      sameDefinitions definitions other.definitions

def sameDefinitions :
    Option (List (String × Definition)) → Option (List (String × Definition)) → Bool
  | none, none => true
  | some ds, some es => ds.length == es.length && definitionsWithin ds es
  | _, _ => false

def definitionsWithin : List (String × Definition) → List (String × Definition) → Bool
  | [], _ => true
  | (name, d) :: rest, others =>
    (match others.lookup name with
      | some e => d.same e
      | none => false) && definitionsWithin rest others

end

namespace Schema

def same : Schema → Schema → Bool
  | .boolean a, .boolean b => a == b
  | .definition d, .definition e => d.same e
  | _, _ => false

end Schema

end StructuralSchema
