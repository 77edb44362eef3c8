import StructuralSchema.Proofs.JsonValue
import StructuralSchema.Proofs.Magnitude
import StructuralSchema.Reference.Chain

/-!
# Conformance

Which JSON values a schema accepts, said without the check: a value has to be of the
type that a node gives, and its parts have to conform to the parts of the node. A
reference stands for the node that it leads to within a limited chain; one that leads to
a definition without a type accepts every value, and one that leads nowhere accepts none.
-/

namespace StructuralSchema

/-- The value is of the type. A boolean is no number, and a number is an integer when
nothing is left after its point. -/
inductive Value.HasType : TypeName → Value → Prop
  | null : HasType .null .null
  | boolean (b : Bool) : HasType .boolean (.bool b)
  | integerInt (i : Int) : HasType .integer (.int i)
  | integerFloat (x : Binary64) (hx : x.IsIntegral) : HasType .integer (.float x)
  | numberInt (i : Int) : HasType .number (.int i)
  | numberFloat (x : Binary64) : HasType .number (.float x)
  | string (text : String) : HasType .string (.str text)
  | array (elements : List Value) : HasType .array (.arr elements)
  | object (members : Members) : HasType .object (.obj members)

theorem exists_array_of_hasType {n : Node} {elements : List Value}
    (h : (Value.arr elements).HasType n.typeName) :
    ∃ items unsupported, n = .array items unsupported := by
  cases n with
  | plain type unsupported => cases type <;> cases h
  | numeric type bound unsupported => cases type <;> cases h
  | array items unsupported => exact ⟨items, unsupported, rfl⟩
  | object properties required unsupported => cases h

theorem exists_object_of_hasType {n : Node} {members : Members}
    (h : (Value.obj members).HasType n.typeName) :
    ∃ properties required unsupported, n = .object properties required unsupported := by
  cases n with
  | plain type unsupported => cases type <;> cases h
  | numeric type bound unsupported => cases type <;> cases h
  | array items unsupported => cases h
  | object properties required unsupported => exact ⟨properties, required, unsupported, rfl⟩

mutual

/-- The value conforms to the node. Members without a property and required names without
a property do not matter. -/
inductive Node.Accepts (document : Schema) (limit : Int) : Node → Value → Prop
  | plain {type : PlainType} {unsupported : List (Keyword × Value)} {v : Value}
      (htype : v.HasType (Node.plain type unsupported).typeName) :
      Node.Accepts document limit (.plain type unsupported) v
  | numeric {type : NumericType} {bound : Option Value} {unsupported : List (Keyword × Value)}
      {v : Value} (htype : v.HasType (Node.numeric type bound unsupported).typeName) :
      Node.Accepts document limit (.numeric type bound unsupported) v
  | array {items : Node} {unsupported : List (Keyword × Value)} {elements : List Value}
      (each : ∀ v ∈ elements, Node.Accepts document limit items v) :
      Node.Accepts document limit (.array items unsupported) (.arr elements)
  | object {properties : List (String × Property)} {required : Option (List String)}
      {unsupported : List (Keyword × Value)} {members : List (Scalar × Value)}
      (present : ∀ entry ∈ properties, ∀ v, (Scalar.str entry.1, v) ∈ members →
        Property.Accepts document limit entry.2 v)
      (needed : ∀ entry ∈ properties, entry.1 ∈ required.getD [] → HasKey entry.1 members) :
      Node.Accepts document limit (.object properties required unsupported) (.obj members)

inductive Property.Accepts (document : Schema) (limit : Int) : Property → Value → Prop
  | node {n : Node} {v : Value} (h : Node.Accepts document limit n v) :
      Property.Accepts document limit (.node n) v
  | target {reference : String} {n : Node} {v : Value}
      (hends : Reference.dereference document limit reference = .ok (some n))
      (h : Node.Accepts document limit n v) :
      Property.Accepts document limit (.reference reference) v
  | anything {reference : String} {v : Value}
      (hends : Reference.dereference document limit reference = .ok none) :
      Property.Accepts document limit (.reference reference) v

end

/-- The value conforms to the schema, with chains of at most `limit` references. -/
inductive Schema.Accepts (limit : Int) : Schema → Value → Prop
  | everything (v : Value) : Accepts limit (.boolean true) v
  | untyped {d : Definition} (hd : d.specification = none) (v : Value) :
      Accepts limit (.definition d) v
  | typed {d : Definition} {p : Property} {v : Value} (hd : d.specification = some p)
      (h : p.Accepts (.definition d) limit v) : Accepts limit (.definition d) v

theorem Node.Accepts.hasType {document : Schema} {limit : Int} {n : Node} {v : Value}
    (h : n.Accepts document limit v) : v.HasType n.typeName := by
  cases h with
  | plain htype => exact htype
  | numeric htype => exact htype
  | array _ => exact .array _
  | object _ _ => exact .object _

theorem Node.Accepts.of_scalar {document : Schema} {limit : Int} {n : Node} {s : Scalar}
    (h : (Value.scalar s).HasType n.typeName) : n.Accepts document limit (.scalar s) := by
  cases n with
  | plain type unsupported => exact .plain h
  | numeric type bound unsupported => exact .numeric h
  | array items unsupported => cases h
  | object properties required unsupported => cases h

end StructuralSchema
