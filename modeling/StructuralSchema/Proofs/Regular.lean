import StructuralSchema.Proofs.Decoding

/-!
# Regular schemas

What reading makes sure of: references and identifiers keep to the grammar of
identifiers, dialects are absolute, no bound is null, and unsupported keywords stand in
their fixed order. Every schema that was read is regular, whatever value it was read from.
-/

namespace StructuralSchema

/-- The keywords stand in their fixed order, each at most once, and none has a value
without end. -/
structure Annotations.Regular (unsupported : Annotations) : Prop where
  ordered : (unsupported.map Prod.fst).Sublist Keyword.all
  finite : ∀ entry ∈ unsupported, entry.2.isEndless = false

mutual

inductive Node.Regular : Node → Prop
  | plain {type : PlainType} {unsupported : List (Keyword × Value)}
      (hunsupported : Annotations.Regular unsupported) : Node.Regular (.plain type unsupported)
  | numeric {type : NumericType} {bound : Option Value} {unsupported : List (Keyword × Value)}
      (hbound : ∀ v, bound = some v → v ≠ .null ∧ v.isEndless = false)
      (hunsupported : Annotations.Regular unsupported) :
      Node.Regular (.numeric type bound unsupported)
  | array {items : Node} {unsupported : List (Keyword × Value)} (hitems : Node.Regular items)
      (hunsupported : Annotations.Regular unsupported) : Node.Regular (.array items unsupported)
  | object {properties : List (String × Property)} {required : Option (List String)}
      {unsupported : List (Keyword × Value)}
      (each : ∀ entry ∈ properties, Property.Regular entry.2)
      (hunsupported : Annotations.Regular unsupported) :
      Node.Regular (.object properties required unsupported)

inductive Property.Regular : Property → Prop
  | node {n : Node} (h : Node.Regular n) : Property.Regular (.node n)
  | reference {text : String} (h : (SchemaId.ofText? text).isSome) :
      Property.Regular (.reference text)

end

inductive Definition.Regular : Definition → Prop
  | mk {id : Option SchemaId} {dialect description : Option String}
      {dependencies : Option (List (Scalar × List String))} {specification : Option Property}
      {definitions : Option (List (String × Definition))}
      (hid : ∀ i, id = some i → SchemaId.ofText? i.toText = some i)
      (hdialect : ∀ text, dialect = some text → Uri.isAbsolute text = true)
      (hspecification : ∀ p, specification = some p → p.Regular)
      (each : ∀ ds, definitions = some ds → ∀ entry ∈ ds, Definition.Regular entry.2) :
      Definition.Regular (.mk id dialect description dependencies specification definitions)

/-! ## Reading makes schemas regular -/

theorem sublist_map_fst_filterMap (f : Keyword → Option Value) (keys : List Keyword) :
    ((keys.filterMap fun k => (f k).map fun v => (k, v)).map Prod.fst).Sublist keys := by
  induction keys with
  | nil => exact .slnil
  | cons k keys ih =>
      cases hk : f k with
      | none => simpa [hk] using ih.cons k
      | some v => simpa [hk] using ih.cons_cons k

theorem regular_of_decodeUnsupported {members : Members} {unsupported : Annotations}
    (h : decodeUnsupported members = .ok unsupported) : Annotations.Regular unsupported := by
  unfold decodeUnsupported at h
  split_ifs at h with hendless
  obtain rfl : unsupportedOf members = unsupported := by simpa using h
  refine ⟨sublist_map_fst_filterMap _ _, ?_⟩
  intro entry hentry
  rw [List.any_eq_true] at hendless
  exact Bool.eq_false_iff.mpr fun hfinite => hendless ⟨entry, hentry, hfinite⟩

theorem regular_of_decodePlain {type : PlainType} {members : Members} {p : Property}
    (h : decodePlain type members = .ok p) : p.Regular := by
  obtain ⟨unsupported, hunsupported, rfl⟩ := Decoded.map_eq_ok_iff.mp h
  exact .node (.plain (regular_of_decodeUnsupported hunsupported))

theorem exclusiveMinimumOf_ne_null (members : Members) :
    exclusiveMinimumOf members ≠ some .null := by
  unfold exclusiveMinimumOf
  split
  · simp
  · rename_i hne
    exact hne

theorem regular_of_decodeNumeric {type : NumericType} {members : Members} {p : Property}
    (h : decodeNumeric type members = .ok p) : p.Regular := by
  unfold decodeNumeric at h
  split_ifs at h with hendless
  obtain ⟨unsupported, hunsupported, rfl⟩ := Decoded.map_eq_ok_iff.mp h
  refine .node (.numeric ?_ (regular_of_decodeUnsupported hunsupported))
  intro v hv
  refine ⟨fun hnull => exclusiveMinimumOf_ne_null members (hnull ▸ hv), ?_⟩
  simpa [hv] using hendless

theorem regular_of_decodeReference {place : Pointer} {v : Value} {p : Property}
    (h : decodeReference place v = .ok p) : p.Regular := by
  unfold decodeReference at h
  split at h
  · split at h
    · rename_i text _ id hid
      obtain rfl : Property.reference text = p := by simpa using h
      exact .reference (by simp [hid])
    · simp [refuse] at h
  · simp [refuse] at h

def ReadsRegular (v : Value) : Prop :=
  (∀ place p, decodeProperty place v = .ok p → p.Regular) ∧
    ∀ place ps, decodePropertyMap place v = .ok ps → ∀ entry ∈ ps, entry.2.Regular

theorem regular_of_decodeItems {place : Pointer} {members : Members} {items : Node}
    (each : ∀ m ∈ members, ReadsRegular m.2) (h : decodeItems place members = .ok items) :
    items.Regular := by
  rw [decodeItems_eq_lookup] at h
  cases hlookup : lookup "items" members with
  | none => simp [hlookup, refuse] at h
  | some v =>
      rw [hlookup] at h
      obtain ⟨p, hp, hitems⟩ := Decoded.bind_eq_ok_iff.mp h
      have hregular := (each _ (mem_of_lookup hlookup)).1 _ _ hp
      cases p with
      | node n =>
          obtain rfl : n = items := by simpa [concreteItems] using hitems
          cases hregular with
          | node hn => exact hn
      | reference text => simp [concreteItems, refuse] at hitems

theorem regular_of_decodeProperties {place : Pointer} {members : Members}
    {ps : List (String × Property)} (each : ∀ m ∈ members, ReadsRegular m.2)
    (h : decodeProperties place members = .ok ps) : ∀ entry ∈ ps, entry.2.Regular := by
  rw [decodeProperties_eq_lookup] at h
  cases hlookup : lookup "properties" members with
  | none =>
      obtain rfl : [] = ps := by simpa [hlookup] using h
      simp
  | some v =>
      rw [hlookup] at h
      exact (each _ (mem_of_lookup hlookup)).2 _ _ h

theorem regular_of_decodeInstance {place : Pointer} {members : Members} {type : TypeName}
    {p : Property} (each : ∀ m ∈ members, ReadsRegular m.2)
    (h : decodeInstance place members type = .ok p) : p.Regular := by
  cases type with
  | null | boolean | string => exact regular_of_decodePlain h
  | integer | number => exact regular_of_decodeNumeric h
  | array =>
      obtain ⟨items, hitems, h⟩ := Decoded.bind_eq_ok_iff.mp h
      obtain ⟨unsupported, hunsupported, h⟩ := Decoded.bind_eq_ok_iff.mp h
      obtain rfl : Property.node (.array items unsupported) = p := by
        simpa [pure, Except.pure] using h
      exact .node (.array (regular_of_decodeItems each hitems)
        (regular_of_decodeUnsupported hunsupported))
  | object =>
      obtain ⟨properties, hproperties, h⟩ := Decoded.bind_eq_ok_iff.mp h
      obtain ⟨required, -, h⟩ := Decoded.bind_eq_ok_iff.mp h
      obtain ⟨unsupported, hunsupported, h⟩ := Decoded.bind_eq_ok_iff.mp h
      obtain rfl : Property.node (.object properties required unsupported) = p := by
        simpa [pure, Except.pure] using h
      exact .node (.object (regular_of_decodeProperties each hproperties)
        (regular_of_decodeUnsupported hunsupported))

theorem readsRegular (v : Value) : ReadsRegular v := by
  induction v using Value.partsInduction with
  | scalar s =>
      refine ⟨fun place p h => by simp [decodeProperty, refuse] at h, ?_⟩
      intro place ps h
      cases s with
      | null =>
          obtain rfl : [] = ps := by simpa [decodePropertyMap] using h
          simp
      | _ => simp [decodePropertyMap, refuse] at h
  | obj members each =>
      constructor
      · intro place p h
        rw [decodeProperty_obj] at h
        cases hlookup : lookup "$ref" members with
        | some target =>
            rw [hlookup] at h
            exact regular_of_decodeReference h
        | none =>
            rw [hlookup] at h
            obtain ⟨type, -, h⟩ := Decoded.bind_eq_ok_iff.mp h
            exact regular_of_decodeInstance each h
      · intro place ps h entry hentry
        rw [decodePropertyMap, decodeEntries_eq_readEntries] at h
        obtain ⟨v, hv, hread⟩ := exists_of_mem_readEntries h hentry
        exact (each _ hv).1 _ _ hread
  | loop number v ih =>
      refine ⟨fun place p h => ih.1 place p (by simpa [decodeProperty] using h), ?_⟩
      exact fun place ps h => ih.2 place ps (by simpa [decodePropertyMap] using h)
  | arr | pair | set | endless =>
      refine ⟨fun place p h => by simp [decodeProperty, refuse] at h, ?_⟩
      exact fun place ps h => by simp [decodePropertyMap, refuse] at h

/-! ## Definitions -/

theorem ofText?_toText_of_decodeId {place : Pointer} {members : Members} {id : Option SchemaId}
    (h : decodeId place members = .ok id) {i : SchemaId} (hi : id = some i) :
    SchemaId.ofText? i.toText = some i := by
  unfold decodeId at h
  split at h
  · simp [hi] at h
  · split at h
    · rename_i text _ found hfound
      obtain rfl : found = i := by simpa [hi] using h
      rw [SchemaId.toText_of_ofText? hfound, hfound]
    · simp [refuse] at h
  · simp [refuse] at h

theorem isAbsolute_of_decodeDialect {place : Pointer} {members : Members}
    {dialect : Option String} (h : decodeDialect place members = .ok dialect) {text : String}
    (htext : dialect = some text) : Uri.isAbsolute text = true := by
  unfold decodeDialect at h
  split at h
  · simp [htext] at h
  · split_ifs at h with habsolute
    · obtain rfl : _ = text := by simpa [htext] using h
      exact habsolute
    · simp [refuse] at h
  · simp [refuse] at h

theorem regular_of_decodeSpecification {place : Pointer} {members : Members}
    {specification : Option Property}
    (h : decodeSpecification place members = .ok specification) {p : Property}
    (hp : specification = some p) : p.Regular := by
  unfold decodeSpecification at h
  split_ifs at h
  · obtain ⟨q, hq, hsome⟩ := Decoded.map_eq_ok_iff.mp h
    obtain rfl : q = p := by simpa [hp] using hsome
    exact (readsRegular _).1 _ _ hq
  · simp [hp] at h

def ReadsRegularDefinition (v : Value) : Prop :=
  (∀ place d, decodeDefinition place v = .ok d → d.Regular) ∧
    ∀ place ds, decodeDefinitionMap place v = .ok (some ds) → ∀ entry ∈ ds, entry.2.Regular

theorem regular_of_decodeDefinitions {place : Pointer} {members : Members}
    {definitions : Option (List (String × Definition))}
    (each : ∀ m ∈ members, ReadsRegularDefinition m.2)
    (h : decodeDefinitions place members = .ok definitions) {ds : List (String × Definition)}
    (hds : definitions = some ds) : ∀ entry ∈ ds, entry.2.Regular := by
  subst hds
  rw [decodeDefinitions_eq_lookup] at h
  cases hlookup : lookup "definitions" members with
  | none => simp [hlookup] at h
  | some v =>
      rw [hlookup] at h
      exact (each _ (mem_of_lookup hlookup)).2 _ _ h

theorem readsRegularDefinition (v : Value) : ReadsRegularDefinition v := by
  induction v using Value.partsInduction with
  | scalar s =>
      refine ⟨fun place d h => by simp [decodeDefinition, refuse] at h, ?_⟩
      intro place ds h
      cases s <;> simp [decodeDefinitionMap, refuse] at h
  | obj members each =>
      constructor
      · intro place d h
        rw [decodeDefinition] at h
        obtain ⟨id, hid, h⟩ := Decoded.bind_eq_ok_iff.mp h
        obtain ⟨dialect, hdialect, h⟩ := Decoded.bind_eq_ok_iff.mp h
        obtain ⟨description, -, h⟩ := Decoded.bind_eq_ok_iff.mp h
        obtain ⟨specification, hspecification, h⟩ := Decoded.bind_eq_ok_iff.mp h
        obtain ⟨dependencies, -, h⟩ := Decoded.bind_eq_ok_iff.mp h
        obtain ⟨definitions, hdefinitions, h⟩ := Decoded.bind_eq_ok_iff.mp h
        obtain rfl : Definition.mk id dialect description dependencies specification
            definitions = d := by simpa [pure, Except.pure] using h
        exact .mk (fun _ => ofText?_toText_of_decodeId hid)
          (fun _ => isAbsolute_of_decodeDialect hdialect)
          (fun _ => regular_of_decodeSpecification hspecification)
          (fun _ => regular_of_decodeDefinitions each hdefinitions)
      · intro place ds h entry hentry
        rw [decodeDefinitionMap, decodeDefinitionEntries_eq_readEntries] at h
        obtain ⟨entries, hentries, hsome⟩ := Decoded.map_eq_ok_iff.mp h
        obtain rfl : entries = ds := by simpa using hsome
        obtain ⟨v, hv, hread⟩ := exists_of_mem_readEntries hentries hentry
        exact (each _ hv).1 _ _ hread
  | loop number v ih =>
      refine ⟨fun place d h => ih.1 place d (by simpa [decodeDefinition] using h), ?_⟩
      exact fun place ds h => ih.2 place ds (by simpa [decodeDefinitionMap] using h)
  | arr | pair | set | endless =>
      refine ⟨fun place d h => by simp [decodeDefinition, refuse] at h, ?_⟩
      exact fun place ds h => by simp [decodeDefinitionMap, refuse] at h

end StructuralSchema
