import StructuralSchema.Proofs.Encoding
import StructuralSchema.Proofs.Regular

/-!
# Writing and reading back

A regular schema, written as a value, is read as the same schema, whatever place the
reading starts from. As every schema that was read is regular, writing loses nothing of
what reading has found.
-/

namespace StructuralSchema

theorem filterMap_lookup_eq_self {keys : List Keyword} {unsupported : Annotations}
    (hkeys : keys.Nodup) (h : (unsupported.map Prod.fst).Sublist keys) :
    (keys.filterMap fun k => (unsupported.lookup k).map fun v => (k, v)) = unsupported := by
  induction keys generalizing unsupported with
  | nil =>
      obtain rfl : unsupported = [] := by simpa using h
      rfl
  | cons k keys ih =>
      obtain ⟨hk, hrestKeys⟩ := List.nodup_cons.mp hkeys
      rcases List.sublist_cons_iff.mp h with hskip | ⟨rest, hrest, hsub⟩
      · have hnone : unsupported.lookup k = none := by
          rw [List.lookup_eq_none_iff]
          intro entry hentry
          have hmem : entry.1 ∈ keys := hskip.subset (List.mem_map_of_mem hentry)
          have hne : k ≠ entry.1 := fun heq => hk (heq ▸ hmem)
          exact bne_iff_ne.mpr hne
        rw [List.filterMap_cons, hnone]
        exact ih hrestKeys hskip
      · obtain ⟨entry, others, rfl, rfl, rfl⟩ := List.map_eq_cons_iff.mp hrest
        have hlater : ∀ l ∈ keys, (entry :: others).lookup l = others.lookup l := by
          intro l hl
          have hne : l ≠ entry.1 := fun heq => hk (heq ▸ hl)
          rw [List.lookup_cons, beq_false_of_ne hne]
        -- What is looked up after the first entry does not meet its keyword again.
        rw [List.filterMap_cons, List.lookup_cons_self, Option.map_some,
          List.filterMap_congr fun l hl => by rw [hlater l hl], ih hrestKeys hsub]

theorem unsupportedOf_encodeUnsupported {unsupported : Annotations}
    (h : Annotations.Regular unsupported) :
    unsupportedOf (encodeUnsupported unsupported) = unsupported := by
  unfold unsupportedOf
  simp only [lookup_text_encodeUnsupported]
  exact filterMap_lookup_eq_self (by decide) h.ordered

theorem decodeUnsupported_encode {n : Node} (h : Annotations.Regular n.unsupported) :
    decodeUnsupported n.encode = .ok n.unsupported := by
  have hsame : unsupportedOf n.encode = n.unsupported :=
    (unsupportedOf_encode n).trans (unsupportedOf_encodeUnsupported h)
  have hfinite : (n.unsupported.any fun entry => entry.2.isEndless) = false :=
    List.any_eq_false.mpr fun entry hentry => by simp [h.finite entry hentry]
  rw [decodeUnsupported, hsame, hfinite]
  rfl

@[simp] theorem textList?_textList (names : List String) :
    (textList names).textList? = some names := by
  show (names.map Value.str).mapM Value.text? = some names
  induction names with
  | nil => rfl
  | cons name rest ih => simp [ih, Value.text?]

/-- A map is read back if its values are, wherever they stand. -/
theorem readEntries_map_field {α : Type} {read : Pointer → Value → Decoded α} (write : α → Value)
    {entries : List (String × α)}
    (each : ∀ entry ∈ entries, ∀ place, read place (write entry.2) = .ok entry.2)
    (place : Pointer) :
    readEntries read place (entries.map fun entry => field entry.1 (write entry.2)) =
      .ok entries := by
  induction entries with
  | nil => rfl
  | cons entry rest ih =>
      obtain ⟨hentry, hrest⟩ := List.forall_mem_cons.mp each
      simp only [List.map_cons, field, readEntries]
      exact Decoded.bind_eq_ok_iff.mpr ⟨entry.2, hentry _,
        Decoded.bind_eq_ok_iff.mpr ⟨rest, ih hrest, rfl⟩⟩

/-! ## Nodes -/

theorem decodeNumeric_encode {type : NumericType} {bound : Option Value}
    {unsupported : Annotations} (hbound : ∀ v, bound = some v → v ≠ .null ∧ v.isEndless = false)
    (hunsupported : Annotations.Regular unsupported) :
    decodeNumeric type (Node.numeric type bound unsupported).encode =
      .ok (.node (.numeric type bound unsupported)) := by
  have hsame : exclusiveMinimumOf (Node.numeric type bound unsupported).encode = bound := by
    rw [exclusiveMinimumOf, lookup_encode_eq_parts (by decide) (by decide), Node.parts,
      lookup_optionalField, if_pos rfl]
    split
    · exact absurd rfl (hbound .null rfl).1
    · rfl
  have hfinite : bound.any Value.isEndless = false := by
    cases bound with
    | none => rfl
    | some v => exact (hbound v rfl).2
  have hread := decodeUnsupported_encode (n := .numeric type bound unsupported) hunsupported
  rw [decodeNumeric, hsame, hfinite, hread]
  rfl

theorem decodeRequired_encode (place : Pointer) (properties : List (String × Property))
    (required : Option (List String)) (unsupported : Annotations) :
    decodeRequired place (Node.object properties required unsupported).encode = .ok required := by
  rw [decodeRequired, lookup_encode_eq_parts (by decide) (by decide)]
  cases required with
  | none => simp [Node.parts, optionalField, lookup]
  | some names =>
      have hlist : (textList names).textList? = some names := textList?_textList names
      simp only [textList] at hlist
      simp [Node.parts, textList, hlist]

def Node.ReadsBack (n : Node) : Prop :=
  ∀ place, decodeInstance place n.encode n.typeName = .ok (.node n)

theorem Node.ReadsBack.decodeProperty_eq {n : Node} (h : n.ReadsBack) (place : Pointer) :
    decodeProperty place (.obj n.encode) = .ok (.node n) := by
  rw [decodeProperty_obj, lookup_ref_encode]
  have htype : decodeType place n.encode = .ok n.typeName :=
    decodeType_eq_ok_iff.mpr (lookup_type_encode n)
  exact Decoded.bind_eq_ok_iff.mpr ⟨n.typeName, htype, h place⟩

theorem readsBack_plain {type : PlainType} {unsupported : Annotations}
    (hunsupported : Annotations.Regular unsupported) :
    (Node.plain type unsupported).ReadsBack := by
  intro place
  have hread := decodeUnsupported_encode (n := .plain type unsupported) hunsupported
  cases type <;> exact Decoded.map_eq_ok_iff.mpr ⟨unsupported, hread, rfl⟩

theorem readsBack_numeric {type : NumericType} {bound : Option Value} {unsupported : Annotations}
    (hbound : ∀ v, bound = some v → v ≠ .null ∧ v.isEndless = false)
    (hunsupported : Annotations.Regular unsupported) :
    (Node.numeric type bound unsupported).ReadsBack := by
  intro place
  have hread : decodeNumeric type (Node.numeric type bound unsupported).encode =
      .ok (.node (.numeric type bound unsupported)) := decodeNumeric_encode hbound hunsupported
  cases type with
  | integer => exact hread
  | number => exact hread

theorem readsBack_array {items : Node} {unsupported : Annotations} (hitems : items.ReadsBack)
    (hunsupported : Annotations.Regular unsupported) :
    (Node.array items unsupported).ReadsBack := by
  intro place
  have hread : decodeItems place (Node.array items unsupported).encode = .ok items := by
    rw [decodeItems_eq_lookup, lookup_encode_eq_parts (by decide) (by decide), Node.parts,
      lookup_field_cons, if_pos rfl]
    exact Decoded.bind_eq_ok_iff.mpr ⟨.node items, hitems.decodeProperty_eq _, rfl⟩
  exact Decoded.bind_eq_ok_iff.mpr ⟨items, hread, Decoded.bind_eq_ok_iff.mpr
    ⟨unsupported, decodeUnsupported_encode hunsupported, rfl⟩⟩

theorem readsBack_object {properties : List (String × Property)} {required : Option (List String)}
    {unsupported : Annotations}
    (each : ∀ entry ∈ properties, ∀ place,
      decodeProperty place (.obj entry.2.encode) = .ok entry.2)
    (hunsupported : Annotations.Regular unsupported) :
    (Node.object properties required unsupported).ReadsBack := by
  intro place
  have hread : decodeProperties place (Node.object properties required unsupported).encode =
      .ok properties := by
    rw [decodeProperties_eq_lookup, lookup_encode_eq_parts (by decide) (by decide), Node.parts,
      lookup_field_cons, if_pos rfl, encodeProperties_eq_map]
    simp only [decodePropertyMap, decodeEntries_eq_readEntries]
    exact readEntries_map_field (fun p : Property => .obj p.encode) each _
  exact Decoded.bind_eq_ok_iff.mpr ⟨properties, hread, Decoded.bind_eq_ok_iff.mpr
    ⟨required, decodeRequired_encode _ _ _ _, Decoded.bind_eq_ok_iff.mpr
      ⟨unsupported, decodeUnsupported_encode hunsupported, rfl⟩⟩⟩

-- The recursion is on what makes the node regular. The place stays free, as the parts of a
-- node stand at other places than the node.
mutual

theorem Node.Regular.readsBack : ∀ {n : Node}, n.Regular → n.ReadsBack
  | _, .plain hunsupported => readsBack_plain hunsupported
  | _, .numeric hbound hunsupported => readsBack_numeric hbound hunsupported
  | _, .array hitems hunsupported => readsBack_array hitems.readsBack hunsupported
  | _, .object each hunsupported =>
      readsBack_object (fun entry hentry => (each entry hentry).decodeProperty_encode) hunsupported

/-- A regular property is read back from what it is written as, wherever that stands. -/
theorem Property.Regular.decodeProperty_encode : ∀ {p : Property}, p.Regular →
    ∀ place, decodeProperty place (.obj p.encode) = .ok p
  | _, .node h, place => h.readsBack.decodeProperty_eq place
  | .reference text, .reference h, place => by
      obtain ⟨id, hid⟩ := Option.isSome_iff_exists.mp h
      simp [decodeProperty_obj, Property.encode, decodeReference, hid]

end

/-! ## Definitions -/

section Definitions

variable {id : Option SchemaId} {dialect description : Option String}
  {dependencies : Option (List (Scalar × List String))} {specification : Option Property}
  {definitions : Option (List (String × Definition))}

theorem lookup_encode_of_notMem_nodeKeywords {name : String} (h : name ∉ nodeKeywords) :
    lookup name
        (Definition.mk id dialect description dependencies specification definitions).encode =
      ((((if "$id" = name then id.map fun id => .str id.toText else none).or
        (if "$schema" = name then dialect.map .str else none)).or
        (if "description" = name then description.map .str else none)).or
        (if "dependencies" = name then dependencies.map fun d => .obj (encodeDependencies d)
          else none)).or
        (if "definitions" = name then encodeDefinitions? definitions else none) := by
  simp only [Definition.encode, lookup_append, lookup_optionalField,
    lookup_encodeSpecification_eq_none h, Option.or_none]

theorem decodeId_encode (h : ∀ i, id = some i → SchemaId.ofText? i.toText = some i)
    (place : Pointer) :
    decodeId place
        (Definition.mk id dialect description dependencies specification definitions).encode =
      .ok id := by
  rw [decodeId, lookup_encode_of_notMem_nodeKeywords (by decide)]
  cases id with
  | none => simp
  | some i => simp [h i rfl]

theorem decodeDialect_encode (h : ∀ text, dialect = some text → Uri.isAbsolute text = true)
    (place : Pointer) :
    decodeDialect place
        (Definition.mk id dialect description dependencies specification definitions).encode =
      .ok dialect := by
  rw [decodeDialect, lookup_encode_of_notMem_nodeKeywords (by decide)]
  cases dialect with
  | none => simp
  | some text => simp [h text rfl]

theorem decodeDescription_encode (place : Pointer) :
    decodeDescription place
        (Definition.mk id dialect description dependencies specification definitions).encode =
      .ok description := by
  rw [decodeDescription, lookup_encode_of_notMem_nodeKeywords (by decide)]
  cases description <;> simp

theorem decodeDependencyEntries_encode (place : Pointer)
    (dependencies : List (Scalar × List String)) :
    decodeDependencyEntries place (encodeDependencies dependencies) = .ok dependencies := by
  induction dependencies with
  | nil => rfl
  | cons entry rest ih =>
      have hcons : encodeDependencies (entry :: rest) =
          (entry.1, textList entry.2) :: encodeDependencies rest := rfl
      simp only [hcons, decodeDependencyEntries, textList?_textList, ih]

theorem decodeDependencies_encode (place : Pointer) :
    decodeDependencies place
        (Definition.mk id dialect description dependencies specification definitions).encode =
      .ok dependencies := by
  rw [decodeDependencies, lookup_encode_of_notMem_nodeKeywords (by decide)]
  cases dependencies with
  | none => simp [Value.unlooped]
  | some d => simp [Value.unlooped, decodeDependencyEntries_encode]

theorem decodeSpecification_encode (h : ∀ p, specification = some p → p.Regular)
    (place : Pointer) :
    decodeSpecification place
        (Definition.mk id dialect description dependencies specification definitions).encode =
      .ok specification := by
  have hsame : ∀ name ∈ nodeKeywords, lookup name
      (Definition.mk id dialect description dependencies specification definitions).encode =
        lookup name (encodeSpecification specification) :=
    fun name hname => lookup_encode_of_mem_nodeKeywords hname _
  rw [decodeSpecification, hasMember, hasMember, hsame "$ref" (by decide),
    hsame "type" (by decide), decodeProperty_congr hsame]
  cases specification with
  | none => simp [encodeSpecification, lookup]
  | some p =>
      have hread := (h p rfl).decodeProperty_encode place
      have hgiven : (lookup "$ref" p.encode).isSome || (lookup "type" p.encode).isSome := by
        cases p with
        | node n => simp [Property.encode]
        | reference text => simp [Property.encode]
      simp only [encodeSpecification, hgiven, hread, if_true]
      rfl

theorem decodeDefinitions_encode
    (each : ∀ ds, definitions = some ds → ∀ entry ∈ ds, ∀ place,
      decodeDefinition place (.obj entry.2.encode) = .ok entry.2) (place : Pointer) :
    decodeDefinitions place
        (Definition.mk id dialect description dependencies specification definitions).encode =
      .ok definitions := by
  rw [decodeDefinitions_eq_lookup, lookup_encode_of_notMem_nodeKeywords (by decide)]
  cases definitions with
  | none => simp [encodeDefinitions?]
  | some ds =>
      have hread := readEntries_map_field (fun d : Definition => .obj d.encode)
        (each ds rfl) (place.child "definitions")
      simp [encodeDefinitions?, decodeDefinitionMap, decodeDefinitionEntries_eq_readEntries,
        encodeDefinitions_eq_map, hread, Except.map]

end Definitions

/-- A regular definition is read back from what it is written as, wherever that stands. -/
theorem Definition.Regular.decodeDefinition_encode {d : Definition} (h : d.Regular)
    (place : Pointer) : decodeDefinition place (.obj d.encode) = .ok d := by
  induction h generalizing place with
  | mk hid hdialect hspecification _ ih =>
      rw [decodeDefinition, decodeId_encode hid, decodeDialect_encode hdialect,
        decodeDescription_encode, decodeSpecification_encode hspecification,
        decodeDependencies_encode, decodeDefinitions_encode ih]
      rfl

/-! ## Schemas -/

theorem unlooped_eq_obj_or_bool_of_decode {v : Value} {s : Schema} (h : Schema.decode v = .ok s) :
    (∃ b, v.unlooped = .bool b ∧ s = .boolean b) ∨
      ∃ members d, v.unlooped = .obj members ∧ s = .definition d ∧
        decodeDefinition .root (.obj members) = .ok d := by
  unfold Schema.decode at h
  split at h
  · rename_i b hb
    exact .inl ⟨b, hb, by simpa using h.symm⟩
  · rename_i members hmembers
    split at h
    · rename_i d hd
      exact .inr ⟨members, d, hmembers, by simpa using h.symm, hd⟩
    · simp at h
  · simp at h

/-- A schema that was read, and a property that was read at any place, is read back from
what it is written as, and a property is so at every other place too. -/
theorem decode_encode_of_decode :
    (∀ v s, Schema.decode v = .ok s → Schema.decode s.encode = .ok s) ∧
      ∀ place v p, decodeProperty place v = .ok p →
        ∀ other, decodeProperty other (.obj p.encode) = .ok p := by
  constructor
  · intro v s h
    rcases unlooped_eq_obj_or_bool_of_decode h with ⟨b, -, rfl⟩ | ⟨members, d, -, rfl, hd⟩
    · rfl
    · have hregular := (readsRegularDefinition _).1 _ _ hd
      simp only [Schema.decode, Schema.encode, Value.unlooped, hregular.decodeDefinition_encode]
  · intro place v p h
    exact ((readsRegular v).1 place p h).decodeProperty_encode

def scatteredDocument : Value :=
  .obj [
    (.str "definitions", .obj [(.str "x/y", .obj [
      (.str "enum", .arr [.float (.ofInt 1), .int 1, .null]),
      (.str "type", .str "number"),
      (.str "exclusiveMinimum", .null),
      (.str "anyOf", .obj [(.str "$ref", .int 2)])])]),
    (.str "required", .arr [.str "b", .str "a"]),
    (.str "type", .str "object"),
    (.str "properties", .obj [
      (.str "b", .obj [(.str "$ref", .str "#/definitions/x~1y"), (.str "type", .int 0)]),
      (.str "a", .obj [
        (.str "items", .obj [(.str "type", .str "null")]),
        (.str "type", .str "array")])]),
    (.str "dependencies", .obj [(.str "a", .arr [])]),
    (.str "$id", .str "/root.json")]

theorem scatteredDocument_read_back :
    (∃ s, Schema.decode scatteredDocument = .ok s ∧ Schema.decode s.encode = .ok s) ∧
      ∃ p, decodeProperty .root scatteredDocument = .ok p ∧
        decodeProperty (Pointer.root.child "items") (.obj p.encode) = .ok p := by
  obtain ⟨s, hs⟩ : ∃ s, Schema.decode scatteredDocument = .ok s := ⟨_, rfl⟩
  obtain ⟨p, hp⟩ : ∃ p, decodeProperty .root scatteredDocument = .ok p := ⟨_, rfl⟩
  exact ⟨⟨s, hs, decode_encode_of_decode.1 _ s hs⟩,
    ⟨p, hp, decode_encode_of_decode.2 _ _ p hp _⟩⟩

end StructuralSchema
