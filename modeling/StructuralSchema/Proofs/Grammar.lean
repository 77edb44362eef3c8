import StructuralSchema.Proofs.Decoding

/-!
# The grammar of schemas

Which JSON values are nodes and which are definitions, as the least sets with these
forms. A node with a `$ref` is a reference, whatever else stands in it; any other names
its type and has the parts that go with the type. An absent part and a null part are
the same for some keywords and not for others.
-/

namespace StructuralSchema

def Value.IsTextList (v : Value) : Prop :=
  ∃ names : List String, v = .arr (names.map .str)

def Value.IsIdentifier (v : Value) : Prop :=
  ∃ text, v = .str text ∧ (SchemaId.ofText? text).isSome

theorem isIdentifier_str_iff {text : String} :
    (Value.str text).IsIdentifier ↔ (SchemaId.ofText? text).isSome := by
  simp [Value.IsIdentifier]

/-- What stands under the name, if anything does, satisfies the condition. -/
def OnMember (name : String) (members : Members) (condition : Value → Prop) : Prop :=
  ∀ v, (Scalar.str name, v) ∈ members → condition v

mutual

/-- The value is a node: a reference, or a type with its parts. -/
inductive IsNode : Value → Prop
  | reference {members : List (Scalar × Value)} {target : Value}
      (href : (.str "$ref", target) ∈ members) (hid : target.IsIdentifier) :
      IsNode (.obj members)
  | simple {members : List (Scalar × Value)} {type : TypeName}
      (hconcrete : ¬ HasKey "$ref" members)
      (htype : (.str "type", .str type.text) ∈ members)
      (hsimple : type ≠ .array ∧ type ≠ .object) : IsNode (.obj members)
  | array {members parts : List (Scalar × Value)} (hconcrete : ¬ HasKey "$ref" members)
      (htype : (.str "type", .str TypeName.array.text) ∈ members)
      (hitems : (.str "items", .obj parts) ∈ members) (hnode : IsNode (.obj parts))
      (hparts : ¬ HasKey "$ref" parts) : IsNode (.obj members)
  | object {members : List (Scalar × Value)} (hconcrete : ¬ HasKey "$ref" members)
      (htype : (.str "type", .str TypeName.object.text) ∈ members)
      (hproperties : ∀ v, (.str "properties", v) ∈ members → IsNodeMap v)
      (hrequired : OnMember "required" members fun v => v = .null ∨ v.IsTextList) :
      IsNode (.obj members)

inductive IsNodeMap : Value → Prop
  | null : IsNodeMap .null
  | obj {members : List (Scalar × Value)} (each : ∀ m ∈ members, IsNode m.2) :
      IsNodeMap (.obj members)

end

mutual

inductive IsDefinition : Value → Prop
  | obj {members : List (Scalar × Value)}
      (hid : OnMember "$id" members Value.IsIdentifier)
      (hdialect : OnMember "$schema" members fun v =>
        v = .null ∨ ∃ text, v = .str text ∧ Uri.isAbsolute text)
      (hdescription : OnMember "description" members fun v => v = .null ∨ ∃ text, v = .str text)
      (hspecification : HasKey "$ref" members ∨ HasKey "type" members → IsNode (.obj members))
      (hdependencies : OnMember "dependencies" members fun v =>
        v = .null ∨ ∃ entries, v = .obj entries ∧ ∀ m ∈ entries, m.2.IsTextList)
      (hdefinitions : ∀ v, (.str "definitions", v) ∈ members → IsDefinitionMap v) :
      IsDefinition (.obj members)

inductive IsDefinitionMap : Value → Prop
  | null : IsDefinitionMap .null
  | obj {members : List (Scalar × Value)} (each : ∀ m ∈ members, IsDefinition m.2) :
      IsDefinitionMap (.obj members)

end

/-- The value is a schema: a boolean or a definition. -/
def IsSchema (v : Value) : Prop :=
  (∃ b, v = .bool b) ∨ IsDefinition v

/-- The error says which rule of the grammar is broken, and is of no other kind. -/
inductive SchemaError.IsRefusal : SchemaError → Prop
  | badRoot (found : String) : IsRefusal (.badRoot found)
  | complaint (place : Pointer) (wrong : Complaint) : IsRefusal (.complaint place wrong)

@[simp] theorem isNodeMap_obj_iff {members : Members} :
    IsNodeMap (.obj members) ↔ ∀ m ∈ members, IsNode m.2 := by
  refine ⟨?_, .obj⟩
  intro h
  cases h with
  | obj each => exact each

@[simp] theorem isDefinitionMap_obj_iff {members : Members} :
    IsDefinitionMap (.obj members) ↔ ∀ m ∈ members, IsDefinition m.2 := by
  refine ⟨?_, .obj⟩
  intro h
  cases h with
  | obj each => exact each

/-! ## Which form an object can have -/

section Forms

variable {members : Members}

theorem onMember_of_lookup_eq_none {name : String} {condition : Value → Prop}
    (h : lookup name members = none) : OnMember name members condition :=
  fun v hv => absurd ⟨v, hv⟩ (lookup_eq_none_iff.mp h)

theorem onMember_iff_of_lookup {name : String} {condition : Value → Prop} {v : Value}
    (keys : HasTextKeys members) (h : lookup name members = some v) :
    OnMember name members condition ↔ condition v := by
  have hv := mem_of_lookup h
  refine ⟨fun hall => hall v hv, ?_⟩
  intro hcondition w hw
  exact keys.eq_of_mem hv hw ▸ hcondition

/-- With a `$ref`, nothing else is looked at. -/
theorem isNode_iff_of_ref {target : Value} (keys : HasTextKeys members)
    (href : (Scalar.str "$ref", target) ∈ members) :
    IsNode (.obj members) ↔ target.IsIdentifier := by
  refine ⟨?_, .reference href⟩
  intro h
  cases h with
  | reference href' hid => exact keys.eq_of_mem href' href ▸ hid
  | simple hconcrete => exact absurd ⟨target, href⟩ hconcrete
  | array hconcrete => exact absurd ⟨target, href⟩ hconcrete
  | object hconcrete => exact absurd ⟨target, href⟩ hconcrete

theorem IsNode.exists_type (hconcrete : ¬ HasKey "$ref" members) (h : IsNode (.obj members)) :
    ∃ type : TypeName, (.str "type", .str type.text) ∈ members := by
  cases h with
  | reference href _ => exact absurd ⟨_, href⟩ hconcrete
  | simple _ htype _ => exact ⟨_, htype⟩
  | array _ htype _ => exact ⟨_, htype⟩
  | object _ htype _ => exact ⟨_, htype⟩

theorem type_eq_of_mem {a b : TypeName} (keys : HasTextKeys members)
    (ha : (Scalar.str "type", Value.str a.text) ∈ members)
    (hb : (Scalar.str "type", Value.str b.text) ∈ members) : a = b := by
  have hsame := keys.eq_of_mem ha hb
  simp only [Value.scalar.injEq, Scalar.str.injEq] at hsame
  exact TypeName.text_injective hsame

theorem isNode_array_iff (keys : HasTextKeys members) (hconcrete : ¬ HasKey "$ref" members)
    (htype : (Scalar.str "type", Value.str TypeName.array.text) ∈ members) :
    IsNode (.obj members) ↔ ∃ parts, (.str "items", .obj parts) ∈ members ∧
      IsNode (.obj parts) ∧ ¬ HasKey "$ref" parts := by
  constructor
  · intro h
    cases h with
    | reference href _ => exact absurd ⟨_, href⟩ hconcrete
    | simple _ htype' hsimple => exact absurd (type_eq_of_mem keys htype' htype) hsimple.1
    | array _ _ hitems hnode hparts => exact ⟨_, hitems, hnode, hparts⟩
    | object _ htype' => exact nomatch type_eq_of_mem keys htype' htype
  · rintro ⟨parts, hitems, hnode, hparts⟩
    exact .array hconcrete htype hitems hnode hparts

theorem isNode_object_iff (keys : HasTextKeys members) (hconcrete : ¬ HasKey "$ref" members)
    (htype : (Scalar.str "type", Value.str TypeName.object.text) ∈ members) :
    IsNode (.obj members) ↔ OnMember "properties" members IsNodeMap ∧
      OnMember "required" members fun v => v = .null ∨ v.IsTextList := by
  constructor
  · intro h
    cases h with
    | reference href _ => exact absurd ⟨_, href⟩ hconcrete
    | simple _ htype' hsimple => exact absurd (type_eq_of_mem keys htype' htype) hsimple.2
    | array _ htype' => exact nomatch type_eq_of_mem keys htype' htype
    | object _ _ hproperties hrequired => exact ⟨hproperties, hrequired⟩
  · rintro ⟨hproperties, hrequired⟩
    exact .object hconcrete htype hproperties hrequired

end Forms

end StructuralSchema
