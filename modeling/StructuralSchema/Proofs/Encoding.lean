import StructuralSchema.Proofs.Decoding
import StructuralSchema.Schema.Encode

/-!
# How schemas are written

What stands under a name among the written members of a node or a definition. The
keywords of nodes and those of definitions are different names, so the members of a
specification can stand among those of its definition without getting mixed up.
-/

namespace StructuralSchema

theorem lookup_append {α : Type} (name : String) (a b : List (Scalar × α)) :
    lookup name (a ++ b) = (lookup name a).or (lookup name b) := by
  induction a with
  | nil => rfl
  | cons m rest ih =>
      by_cases hm : m.1 = .str name
      · simp [lookup, hm]
      · simp [lookup, hm, ih]

@[simp] theorem lookup_field_cons (name key : String) (v : Value) (rest : Members) :
    lookup name (field key v :: rest) = if key = name then some v else lookup name rest := by
  simp [lookup, field]

@[simp] theorem lookup_optionalField (name key : String) (v : Option Value) :
    lookup name (optionalField key v) = if key = name then v else none := by
  cases v with
  | none => simp [optionalField, lookup]
  | some v => simp [optionalField, lookup]

theorem Keyword.text_injective : Function.Injective Keyword.text := by
  intro k l h
  cases k <;> cases l <;> first | rfl | exact absurd h (by decide)

theorem lookup_text_encodeUnsupported (k : Keyword) (unsupported : Annotations) :
    lookup k.text (encodeUnsupported unsupported) = unsupported.lookup k := by
  induction unsupported with
  | nil => rfl
  | cons entry rest ih =>
      obtain ⟨l, v⟩ := entry
      have hcons : encodeUnsupported ((l, v) :: rest) =
          field l.text v :: encodeUnsupported rest := rfl
      rw [hcons, lookup_field_cons, ih, List.lookup_cons]
      by_cases hl : k = l
      · simp [hl]
      · have htext : l.text ≠ k.text := fun h => hl (Keyword.text_injective h).symm
        simp [htext, beq_false_of_ne hl]

theorem lookup_encodeUnsupported_eq_none {name : String}
    (h : name ∉ Keyword.all.map Keyword.text) (unsupported : Annotations) :
    lookup name (encodeUnsupported unsupported) = none := by
  induction unsupported with
  | nil => rfl
  | cons entry rest ih =>
      have hname : entry.1.text ≠ name := by
        rintro rfl
        exact h (List.mem_map_of_mem entry.1.mem_all)
      have hcons : encodeUnsupported (entry :: rest) =
          field entry.1.text entry.2 :: encodeUnsupported rest := rfl
      rw [hcons, lookup_field_cons, if_neg hname, ih]

def Node.parts : Node → Members
  | .plain _ _ => []
  | .numeric _ bound _ => optionalField "exclusiveMinimum" bound
  | .array items _ => [field "items" (.obj items.encode)]
  | .object properties required _ =>
    field "properties" (.obj (encodeProperties properties)) ::
      optionalField "required" (required.map textList)

/-- A node is written as its type, what goes with the type, and the unsupported keywords. -/
theorem Node.encode_eq (n : Node) :
    n.encode =
      field "type" (.str n.typeName.text) :: (n.parts ++ encodeUnsupported n.unsupported) := by
  cases n with
  | plain type unsupported =>
      cases type <;> simp [Node.encode, parts, typeName, Node.unsupported, TypeName.text]
  | numeric type bound unsupported =>
      cases type <;> simp [Node.encode, parts, typeName, Node.unsupported, TypeName.text]
  | array items unsupported =>
      simp [Node.encode, parts, typeName, Node.unsupported, TypeName.text]
  | object properties required unsupported =>
      simp [Node.encode, parts, typeName, Node.unsupported, TypeName.text]

theorem Keyword.text_ne_type (k : Keyword) : k.text ≠ "type" := by
  cases k <;> decide

def partKeywords : List String :=
  ["exclusiveMinimum", "items", "properties", "required"]

theorem lookup_parts_eq_none {name : String} (h : name ∉ partKeywords) (n : Node) :
    lookup name n.parts = none := by
  simp only [partKeywords, List.mem_cons, List.not_mem_nil, or_false, not_or] at h
  obtain ⟨hbound, hitems, hproperties, hrequired⟩ := h
  cases n with
  | plain type unsupported => rfl
  | numeric type bound unsupported => simp [Node.parts, Ne.symm hbound]
  | array items unsupported => simp [Node.parts, Ne.symm hitems, lookup]
  | object properties required unsupported =>
      simp [Node.parts, Ne.symm hproperties, Ne.symm hrequired]

theorem Keyword.text_notMem_partKeywords (k : Keyword) : k.text ∉ partKeywords := by
  cases k <;> decide

@[simp] theorem lookup_type_encode (n : Node) :
    lookup "type" n.encode = some (.str n.typeName.text) := by
  simp [n.encode_eq]

theorem lookup_encode_eq_parts {name : String} (htype : name ≠ "type")
    (hname : name ∉ Keyword.all.map Keyword.text) (n : Node) :
    lookup name n.encode = lookup name n.parts := by
  rw [n.encode_eq, lookup_field_cons, if_neg htype.symm, lookup_append,
    lookup_encodeUnsupported_eq_none hname, Option.or_none]

@[simp] theorem lookup_ref_encode (n : Node) : lookup "$ref" n.encode = none := by
  rw [lookup_encode_eq_parts (by decide) (by decide), lookup_parts_eq_none (by decide)]

theorem lookup_text_encode (k : Keyword) (n : Node) :
    lookup k.text n.encode = n.unsupported.lookup k := by
  rw [n.encode_eq, lookup_field_cons, if_neg k.text_ne_type.symm, lookup_append,
    lookup_parts_eq_none k.text_notMem_partKeywords, Option.none_or,
    lookup_text_encodeUnsupported]

theorem unsupportedOf_encode (n : Node) :
    unsupportedOf n.encode = unsupportedOf (encodeUnsupported n.unsupported) := by
  refine List.filterMap_congr fun k _ => ?_
  rw [lookup_text_encode, lookup_text_encodeUnsupported]

/-! ## Definitions -/

/-- A definition's own names are no keywords of nodes. -/
theorem lookup_property_encode_eq_none {name : String} (h : name ∉ nodeKeywords) (p : Property) :
    lookup name p.encode = none := by
  cases p with
  | node n =>
      have htype : name ≠ "type" := fun heq => h (heq ▸ by decide)
      have hparts : name ∉ partKeywords := by
        intro hmem
        have hsub : partKeywords ⊆ nodeKeywords := by decide
        exact h (hsub hmem)
      have hkeyword : name ∉ Keyword.all.map Keyword.text :=
        fun hmem => h (List.mem_append_right _ hmem)
      rw [Property.encode, lookup_encode_eq_parts htype hkeyword, lookup_parts_eq_none hparts]
  | reference text =>
      have href : name ≠ "$ref" := fun heq => h (heq ▸ by decide)
      simp [Property.encode, Ne.symm href, lookup]

theorem lookup_encodeSpecification_eq_none {name : String} (h : name ∉ nodeKeywords)
    (specification : Option Property) : lookup name (encodeSpecification specification) = none := by
  cases specification with
  | none => rfl
  | some p => exact lookup_property_encode_eq_none h p

def documentKeywords : List String :=
  ["$id", "$schema", "description", "dependencies", "definitions"]

/-- A keyword of nodes leads to the same member in a definition as in what it specifies. -/
theorem lookup_encode_of_mem_nodeKeywords {name : String} (h : name ∈ nodeKeywords)
    (d : Definition) :
    lookup name d.encode = lookup name (encodeSpecification d.specification) := by
  have hdisjoint : ∀ key ∈ documentKeywords, key ≠ name := by
    have hall : ∀ key ∈ documentKeywords, key ∉ nodeKeywords := by decide
    exact fun key hkey heq => hall key hkey (heq ▸ h)
  obtain ⟨id, dialect, description, dependencies, specification, definitions⟩ := d
  simp only [Definition.encode, lookup_append, lookup_optionalField,
    if_neg (hdisjoint "$id" (by decide)), if_neg (hdisjoint "$schema" (by decide)),
    if_neg (hdisjoint "description" (by decide)), if_neg (hdisjoint "dependencies" (by decide)),
    if_neg (hdisjoint "definitions" (by decide)), Option.none_or, Option.or_none,
    Definition.specification]

theorem encodeProperties_eq_map (properties : List (String × Property)) :
    encodeProperties properties =
      properties.map fun entry => field entry.1 (.obj entry.2.encode) := by
  induction properties with
  | nil => rfl
  | cons entry rest ih => simp [encodeProperties, ih]

theorem encodeDefinitions_eq_map (definitions : List (String × Definition)) :
    encodeDefinitions definitions =
      definitions.map fun entry => field entry.1 (.obj entry.2.encode) := by
  induction definitions with
  | nil => rfl
  | cons entry rest ih => simp [encodeDefinitions, ih]

end StructuralSchema
