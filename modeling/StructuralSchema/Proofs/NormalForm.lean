import StructuralSchema.Proofs.Acceptance
import StructuralSchema.Proofs.RoundTrip

/-!
# Normal forms

What remains of a document that is read as a schema and written again, said by its keywords
alone: those that a schema keeps stand in a fixed order with the values they had, parts that
describe nodes or definitions are in normal form themselves, and everything else is gone.
-/

namespace StructuralSchema

def given? (name : String) (members : Members) : Option Value :=
  match lookup name members with
  | some .null => none
  | found => found

def keepPresent (name : String) (members : Members) : Members :=
  optionalField name (lookup name members)

def keepGiven (name : String) (members : Members) : Members :=
  optionalField name (given? name members)

def keepUnsupported (members : Members) : Members :=
  Keyword.all.flatMap fun k => keepPresent k.text members

def namedType? (members : Members) : Option TypeName :=
  match lookup "type" members with
  | some (.str text) => TypeName.ofText? text
  | _ => none

/-- What goes with a type: the bound of numbers, the items of arrays, or the properties and
required names of objects. -/
def keepParts (members items properties : Members) : Option TypeName → Members
  | some .integer => keepGiven "exclusiveMinimum" members
  | some .number => keepGiven "exclusiveMinimum" members
  | some .array => items
  | some .object => field "properties" (.obj properties) :: keepGiven "required" members
  | _ => []

mutual

/-- The normal form of an object that describes a node: its `$ref` alone if it has one, and
otherwise its type, what goes with the type, and its unsupported keywords. -/
def Value.normalNode : Value → Value
  | .obj members =>
    match lookup "$ref" members with
    | some target => .obj [field "$ref" target]
    | none =>
      .obj (keepPresent "type" members ++
        (keepParts members (normalItems members) (normalProperties members)
          (namedType? members) ++ keepUnsupported members))
  | v => v

def normalItems : List (Scalar × Value) → Members
  | [] => []
  | (k, v) :: rest =>
    if k = .str "items" then [field "items" v.normalNode] else normalItems rest

def normalProperties : List (Scalar × Value) → Members
  | [] => []
  | (k, v) :: rest =>
    if k = .str "properties" then normalNodeMap v else normalProperties rest

def normalNodeMap : Value → Members
  | .obj members => normalNodes members
  | _ => []

def normalNodes : List (Scalar × Value) → Members
  | [] => []
  | (k, v) :: rest => (k, v.normalNode) :: normalNodes rest

end

def Value.members : Value → Members
  | .obj members => members
  | _ => []

mutual

/-- The normal form of a document or of a definition in it: what it says of itself, the node it
gives if it gives one, and its definitions. -/
def Value.normalForm : Value → Value
  | .obj members =>
    .obj (keepGiven "$id" members ++ keepGiven "$schema" members ++
      keepGiven "description" members ++ keepGiven "dependencies" members ++
      (if hasMember "$ref" members || hasMember "type" members then
        (Value.obj members).normalNode.members else []) ++
      normalDefinitions members)
  | v => v

def normalDefinitions : List (Scalar × Value) → Members
  | [] => []
  | (k, v) :: rest =>
    if k = .str "definitions" then normalDefinitionMap v else normalDefinitions rest

def normalDefinitionMap : Value → Members
  | .obj members => [field "definitions" (.obj (normalDefinitionEntries members))]
  | _ => []

def normalDefinitionEntries : List (Scalar × Value) → Members
  | [] => []
  | (k, v) :: rest => (k, v.normalForm) :: normalDefinitionEntries rest

end

theorem normalItems_eq_lookup (members : Members) :
    normalItems members =
      optionalField "items" ((lookup "items" members).map Value.normalNode) := by
  induction members with
  | nil => rfl
  | cons m rest ih =>
      obtain ⟨k, v⟩ := m
      simp only [normalItems, lookup]
      split_ifs
      · rfl
      · exact ih

theorem normalProperties_eq_lookup (members : Members) :
    normalProperties members =
      match lookup "properties" members with
      | none => []
      | some v => normalNodeMap v := by
  induction members with
  | nil => rfl
  | cons m rest ih =>
      obtain ⟨k, v⟩ := m
      simp only [normalProperties, lookup]
      split_ifs
      · rfl
      · exact ih

theorem normalDefinitions_eq_lookup (members : Members) :
    normalDefinitions members =
      match lookup "definitions" members with
      | none => []
      | some v => normalDefinitionMap v := by
  induction members with
  | nil => rfl
  | cons m rest ih =>
      obtain ⟨k, v⟩ := m
      simp only [normalDefinitions, lookup]
      split_ifs
      · rfl
      · exact ih

theorem normalNodes_eq_map (members : Members) :
    normalNodes members = members.map fun m => (m.1, m.2.normalNode) := by
  induction members with
  | nil => rfl
  | cons m rest ih => simp [normalNodes, ih]

theorem normalDefinitionEntries_eq_map (members : Members) :
    normalDefinitionEntries members = members.map fun m => (m.1, m.2.normalForm) := by
  induction members with
  | nil => rfl
  | cons m rest ih => simp [normalDefinitionEntries, ih]

/-! ## Keywords that are kept as they are -/

section Kept

variable {place : Pointer} {members : Members}

theorem keepPresent_of_lookup_eq_none {name : String} (h : lookup name members = none) :
    keepPresent name members = [] := by
  simp [keepPresent, h, optionalField]

theorem keepPresent_of_lookup_eq_some {name : String} {v : Value}
    (h : lookup name members = some v) : keepPresent name members = [field name v] := by
  simp [keepPresent, h, optionalField]

theorem keepUnsupported_of_decodeUnsupported {unsupported : Annotations}
    (h : decodeUnsupported members = .ok unsupported) :
    encodeUnsupported unsupported = keepUnsupported members := by
  unfold decodeUnsupported at h
  split_ifs at h
  obtain rfl : unsupportedOf members = unsupported := by simpa using h
  unfold unsupportedOf keepUnsupported
  induction Keyword.all with
  | nil => rfl
  | cons k keys ih =>
      cases hk : lookup k.text members with
      | none => simp [hk, keepPresent_of_lookup_eq_none hk, ih]
      | some v =>
          have hcons : ∀ rest : Annotations, encodeUnsupported ((k, v) :: rest) =
              field k.text v :: encodeUnsupported rest := fun _ => rfl
          simp [hk, keepPresent_of_lookup_eq_some hk, hcons, ih]

theorem exclusiveMinimumOf_eq_given? (members : Members) :
    exclusiveMinimumOf members = given? "exclusiveMinimum" members := rfl

theorem given?_of_lookup_eq_none {name : String} (h : lookup name members = none) :
    given? name members = none := by
  simp [given?, h]

theorem given?_of_lookup_eq_some {name : String} {v : Value} (h : lookup name members = some v)
    (hv : v ≠ .null) : given? name members = some v := by
  unfold given?
  rw [h]
  split
  · rename_i heq
    exact absurd (Option.some_inj.mp heq) hv
  · rfl

theorem given?_of_decodeRequired {required : Option (List String)}
    (each : ∀ m ∈ members, m.2.IsJson) (h : decodeRequired place members = .ok required) :
    given? "required" members = required.map textList := by
  unfold decodeRequired at h
  cases hlookup : lookup "required" members with
  | none =>
      obtain rfl : none = required := by simpa [hlookup] using h
      exact given?_of_lookup_eq_none hlookup
  | some v =>
      rw [hlookup, Option.getD_some] at h
      split at h
      · obtain rfl : none = required := by simpa using h
        simp [given?, hlookup]
      · rename_i hne
        split at h
        · rename_i names hnames
          obtain rfl : some names = required := by simpa using h
          have hv : v = textList names :=
            (textList?_eq_some_iff (each _ (mem_of_lookup hlookup))).mp hnames
          rw [given?_of_lookup_eq_some hlookup hne, hv, Option.map_some]
        · simp [refuse] at h

theorem given?_of_decodeId {id : Option SchemaId} (h : decodeId place members = .ok id) :
    given? "$id" members = id.map fun i => .str i.toText := by
  unfold decodeId at h
  split at h
  · rename_i hlookup
    obtain rfl : none = id := by simpa using h
    exact given?_of_lookup_eq_none hlookup
  · rename_i text hlookup
    split at h
    · rename_i found hfound
      obtain rfl : some found = id := by simpa using h
      rw [given?_of_lookup_eq_some hlookup (by simp), Option.map_some,
        SchemaId.toText_of_ofText? hfound]
    · simp [refuse] at h
  · simp [refuse] at h

theorem given?_of_decodeDialect {dialect : Option String}
    (h : decodeDialect place members = .ok dialect) :
    given? "$schema" members = dialect.map .str := by
  unfold decodeDialect at h
  cases hlookup : lookup "$schema" members with
  | none =>
      obtain rfl : none = dialect := by simpa [hlookup] using h
      exact given?_of_lookup_eq_none hlookup
  | some v =>
      rw [hlookup, Option.getD_some] at h
      split at h
      · obtain rfl : none = dialect := by simpa using h
        simp [given?, hlookup]
      · split_ifs at h
        · obtain rfl : some _ = dialect := by simpa using h
          exact given?_of_lookup_eq_some hlookup (by simp)
        · simp [refuse] at h
      · simp [refuse] at h

theorem given?_of_decodeDescription {description : Option String}
    (h : decodeDescription place members = .ok description) :
    given? "description" members = description.map .str := by
  unfold decodeDescription at h
  cases hlookup : lookup "description" members with
  | none =>
      obtain rfl : none = description := by simpa [hlookup] using h
      exact given?_of_lookup_eq_none hlookup
  | some v =>
      rw [hlookup, Option.getD_some] at h
      split at h
      · obtain rfl : none = description := by simpa using h
        simp [given?, hlookup]
      · obtain rfl : some _ = description := by simpa using h
        exact given?_of_lookup_eq_some hlookup (by simp)
      · simp [refuse] at h

theorem encodeDependencies_of_decodeDependencyEntries
    {dependencies : List (Scalar × List String)} (each : ∀ m ∈ members, m.2.IsJson)
    (h : decodeDependencyEntries place members = .ok dependencies) :
    encodeDependencies dependencies = members := by
  induction members generalizing dependencies with
  | nil =>
      obtain rfl : [] = dependencies := by simpa [decodeDependencyEntries] using h
      rfl
  | cons m rest ih =>
      obtain ⟨key, v⟩ := m
      obtain ⟨hv, hrest⟩ := List.forall_mem_cons.mp each
      simp only [decodeDependencyEntries] at h
      split at h
      · rename_i names hnames
        split at h
        · simp at h
        · rename_i others hothers
          obtain rfl : (key, names) :: others = dependencies := by simpa using h
          have hlist : v = textList names := (textList?_eq_some_iff hv).mp hnames
          have hcons : encodeDependencies ((key, names) :: others) =
              (key, textList names) :: encodeDependencies others := rfl
          rw [hcons, ih hrest hothers, hlist]
      · split at h <;> simp [refuse] at h

theorem given?_of_decodeDependencies {dependencies : Option (List (Scalar × List String))}
    (each : ∀ m ∈ members, m.2.IsJson)
    (h : decodeDependencies place members = .ok dependencies) :
    given? "dependencies" members = dependencies.map fun d => .obj (encodeDependencies d) := by
  unfold decodeDependencies at h
  cases hlookup : lookup "dependencies" members with
  | none =>
      obtain rfl : none = dependencies := by simpa [hlookup, Value.unlooped] using h
      exact given?_of_lookup_eq_none hlookup
  | some v =>
      have hv := each _ (mem_of_lookup hlookup)
      rw [hlookup, Option.getD_some] at h
      cases hv with
      | @scalar s hs =>
          cases s with
          | null =>
              obtain rfl : none = dependencies := by simpa [Value.unlooped] using h
              simp [given?, hlookup]
          | _ => simp [Value.unlooped, refuse] at h
      | arr => simp [Value.unlooped, refuse] at h
      | @obj entries hkeys heach =>
          simp only [Value.unlooped] at h
          split at h
          · simp at h
          · rename_i d hd
            obtain rfl : some d = dependencies := by simpa using h
            rw [given?_of_lookup_eq_some hlookup (by simp), Option.map_some,
              encodeDependencies_of_decodeDependencyEntries heach hd]

end Kept

/-! ## Nodes -/

/-- Entries that were read are written as their members are normalised, if each value is. -/
theorem map_normal_of_readEntries {α : Type} {read : Pointer → Value → Decoded α}
    (write : α → Value) {normal : Value → Value} {members : Members}
    (each : ∀ m ∈ members, ∀ place a, read place m.2 = .ok a → normal m.2 = write a)
    {place : Pointer} {entries : List (String × α)}
    (h : readEntries read place members = .ok entries) :
    (members.map fun m => (m.1, normal m.2)) =
      entries.map fun entry => field entry.1 (write entry.2) := by
  induction members generalizing entries with
  | nil =>
      obtain rfl : [] = entries := by simpa [readEntries] using h
      rfl
  | cons m rest ih =>
      obtain ⟨key, v⟩ := m
      obtain ⟨hv, hrest⟩ := List.forall_mem_cons.mp each
      cases key with
      | str name =>
          obtain ⟨a, ha, h⟩ := Decoded.bind_eq_ok_iff.mp h
          obtain ⟨others, hothers, h⟩ := Decoded.bind_eq_ok_iff.mp h
          obtain rfl : (name, a) :: others = entries := by simpa [pure, Except.pure] using h
          have hfirst : normal v = write a := hv _ a ha
          rw [List.map_cons, List.map_cons, ih hrest hothers, hfirst]
          rfl
      | _ => simp [readEntries] at h

/-- Whatever is read from the value as a node or as a map of nodes is written in the normal
form of the value. -/
def ReadsNormal (v : Value) : Prop :=
  (∀ place p, decodeProperty place v = .ok p → v.normalNode = .obj p.encode) ∧
    ∀ place ps, decodePropertyMap place v = .ok ps → normalNodeMap v = encodeProperties ps

theorem namedType?_of_decodeType {place : Pointer} {members : Members} {type : TypeName}
    (h : decodeType place members = .ok type) : namedType? members = some type := by
  have hlookup := decodeType_eq_ok_iff.mp h
  simp only [namedType?, hlookup]
  exact TypeName.ofText?_eq_some_iff.mpr rfl

section Instances

variable {place : Pointer} {members : Members}

theorem normalItems_of_decodeItems (each : ∀ m ∈ members, ReadsNormal m.2) {items : Node}
    (h : decodeItems place members = .ok items) :
    normalItems members = [field "items" (.obj items.encode)] := by
  obtain ⟨v, hv, hread⟩ := exists_of_decodeItems h
  have hnormal := (each _ (mem_of_lookup hv)).1 _ _ hread
  rw [normalItems_eq_lookup, hv]
  simp only [Option.map_some, optionalField, hnormal, Property.encode]

theorem normalProperties_of_decodeProperties (each : ∀ m ∈ members, ReadsNormal m.2)
    {properties : List (String × Property)}
    (h : decodeProperties place members = .ok properties) :
    normalProperties members = encodeProperties properties := by
  rw [decodeProperties_eq_lookup] at h
  rw [normalProperties_eq_lookup]
  cases hlookup : lookup "properties" members with
  | none =>
      obtain rfl : [] = properties := by simpa [hlookup] using h
      rfl
  | some v =>
      rw [hlookup] at h
      exact (each _ (mem_of_lookup hlookup)).2 _ _ h

theorem encode_of_decodeInstance (json : ∀ m ∈ members, m.2.IsJson)
    (each : ∀ m ∈ members, ReadsNormal m.2) {type : TypeName} {p : Property}
    (htype : lookup "type" members = some (.str type.text))
    (h : decodeInstance place members type = .ok p) :
    p.encode = keepPresent "type" members ++
      (keepParts members (normalItems members) (normalProperties members) (some type) ++
        keepUnsupported members) := by
  rw [keepPresent_of_lookup_eq_some htype]
  cases type with
  | null | boolean | string =>
      obtain ⟨unsupported, hunsupported, rfl⟩ := Decoded.map_eq_ok_iff.mp h
      rw [← keepUnsupported_of_decodeUnsupported hunsupported]
      simp [Property.encode, Node.encode, TypeName.text, keepParts]
  | integer | number =>
      obtain ⟨unsupported, hunsupported, rfl⟩ := exists_of_decodeNumeric h
      rw [← keepUnsupported_of_decodeUnsupported hunsupported]
      simp [Property.encode, Node.encode, TypeName.text, keepParts, keepGiven,
        exclusiveMinimumOf_eq_given?]
  | array =>
      obtain ⟨items, unsupported, hitems, hunsupported, rfl⟩ := exists_of_decodeArray h
      rw [← keepUnsupported_of_decodeUnsupported hunsupported]
      simp [Property.encode, Node.encode, TypeName.text, keepParts,
        normalItems_of_decodeItems each hitems]
  | object =>
      obtain ⟨properties, required, unsupported, hproperties, hrequired, hunsupported, rfl⟩ :=
        exists_of_decodeObject h
      rw [← keepUnsupported_of_decodeUnsupported hunsupported]
      simp [Property.encode, Node.encode, TypeName.text, keepParts, keepGiven,
        given?_of_decodeRequired json hrequired,
        normalProperties_of_decodeProperties each hproperties]

end Instances

theorem readsNormal {v : Value} (hv : v.IsJson) : ReadsNormal v := by
  induction hv with
  | @scalar s hs =>
      refine ⟨fun place p h => by simp [decodeProperty, refuse] at h, ?_⟩
      intro place ps h
      cases s with
      | null =>
          obtain rfl : [] = ps := by simpa [decodePropertyMap] using h
          rfl
      | _ => simp [decodePropertyMap, refuse] at h
  | arr =>
      refine ⟨fun place p h => by simp [decodeProperty, refuse] at h, ?_⟩
      exact fun place ps h => by simp [decodePropertyMap, refuse] at h
  | @obj members keys json each =>
      constructor
      · intro place p h
        rw [decodeProperty_obj] at h
        rw [Value.normalNode]
        cases hlookup : lookup "$ref" members with
        | some target =>
            rw [hlookup] at h
            obtain ⟨text, rfl, rfl⟩ := exists_text_of_decodeReference_eq_ok h
            rfl
        | none =>
            rw [hlookup] at h
            obtain ⟨type, htype, h⟩ := Decoded.bind_eq_ok_iff.mp h
            simp only [namedType?_of_decodeType htype]
            rw [encode_of_decodeInstance json each (decodeType_eq_ok_iff.mp htype) h]
      · intro place ps h
        rw [decodePropertyMap, decodeEntries_eq_readEntries] at h
        rw [normalNodeMap, normalNodes_eq_map, encodeProperties_eq_map]
        exact map_normal_of_readEntries (fun p : Property => .obj p.encode)
          (fun m hm place p => (each m hm).1 place p) h

/-! ## Definitions -/

def ReadsNormalDefinition (v : Value) : Prop :=
  (∀ place d, decodeDefinition place v = .ok d → v.normalForm = .obj d.encode) ∧
    ∀ place definitions, decodeDefinitionMap place v = .ok definitions →
      normalDefinitionMap v = optionalField "definitions" (encodeDefinitions? definitions)

theorem normalDefinitions_of_decodeDefinitions {place : Pointer} {members : Members}
    (each : ∀ m ∈ members, ReadsNormalDefinition m.2)
    {definitions : Option (List (String × Definition))}
    (h : decodeDefinitions place members = .ok definitions) :
    normalDefinitions members =
      optionalField "definitions" (encodeDefinitions? definitions) := by
  rw [decodeDefinitions_eq_lookup] at h
  rw [normalDefinitions_eq_lookup]
  cases hlookup : lookup "definitions" members with
  | none =>
      obtain rfl : none = definitions := by simpa [hlookup] using h
      rfl
  | some v =>
      rw [hlookup] at h
      exact (each _ (mem_of_lookup hlookup)).2 _ _ h

theorem encodeSpecification_of_decodeSpecification {place : Pointer} {members : Members}
    (hv : (Value.obj members).IsJson) {specification : Option Property}
    (h : decodeSpecification place members = .ok specification) :
    encodeSpecification specification =
      if hasMember "$ref" members || hasMember "type" members then
        (Value.obj members).normalNode.members else [] := by
  unfold decodeSpecification at h
  split_ifs at h ⊢ with hgiven
  · obtain ⟨p, hp, rfl⟩ := Decoded.map_eq_ok_iff.mp h
    rw [(readsNormal hv).1 _ _ hp]
    rfl
  · obtain rfl : none = specification := by simpa using h
    rfl

theorem readsNormalDefinition {v : Value} (hv : v.IsJson) : ReadsNormalDefinition v := by
  induction hv with
  | @scalar s hs =>
      refine ⟨fun place d h => by simp [decodeDefinition, refuse] at h, ?_⟩
      intro place definitions h
      cases s with
      | null =>
          obtain rfl : none = definitions := by simpa [decodeDefinitionMap] using h
          rfl
      | _ => simp [decodeDefinitionMap, refuse] at h
  | arr =>
      refine ⟨fun place d h => by simp [decodeDefinition, refuse] at h, ?_⟩
      exact fun place definitions h => by simp [decodeDefinitionMap, refuse] at h
  | @obj members keys json each =>
      constructor
      · intro place d h
        have hread := readFrom_of_decodeDefinition h
        obtain ⟨id, dialect, description, dependencies, specification, definitions⟩ := d
        rw [Value.normalForm, Definition.encode, keepGiven, keepGiven, keepGiven, keepGiven,
          given?_of_decodeId hread.id, given?_of_decodeDialect hread.dialect,
          given?_of_decodeDescription hread.description,
          given?_of_decodeDependencies json hread.dependencies,
          ← encodeSpecification_of_decodeSpecification (.obj keys json) hread.specification,
          normalDefinitions_of_decodeDefinitions each hread.definitions]
        rfl
      · intro place definitions h
        rw [decodeDefinitionMap, decodeDefinitionEntries_eq_readEntries] at h
        obtain ⟨entries, hentries, rfl⟩ := Decoded.map_eq_ok_iff.mp h
        rw [normalDefinitionMap, normalDefinitionEntries_eq_map, encodeDefinitions?,
          encodeDefinitions_eq_map]
        exact congrArg (fun entries => [field "definitions" (.obj entries)])
          (map_normal_of_readEntries (fun d : Definition => .obj d.encode)
            (fun m hm place d => (each m hm).1 place d) hentries)

/-- A JSON document that is read as a schema is written as its normal form. -/
theorem encode_eq_normalForm {v : Value} (hv : v.IsJson) {s : Schema}
    (h : Schema.decode v = .ok s) : s.encode = v.normalForm := by
  cases s with
  | definition d =>
      exact ((readsNormalDefinition hv).1 _ d (decodeDefinition_of_decode hv h)).symm
  | boolean b =>
      rcases unlooped_eq_obj_or_bool_of_decode h with ⟨c, hc, hb⟩ | ⟨members, d, -, hd, -⟩
      · obtain rfl : b = c := Schema.boolean.inj hb
        cases hv with
        | scalar _ =>
            rw [Value.unlooped] at hc
            · rw [hc]
              rfl
            · simp
        | arr _ => simp [Value.unlooped] at hc
        | obj _ _ => simp [Value.unlooped] at hc
      · cases hd

/-- A document with null members, members without a meaning, and a node beside a `$ref`. -/
def laxDocument : Value :=
  .obj [
    (.str "pattern", .null),
    (.str "definitions", .obj [
      (.str "b", .obj [(.str "type", .str "null"), (.str "$ref", .str "#/definitions/a")]),
      (.str "a", .obj [(.str "format", .str "date"), (.str "definitions", .null)])]),
    (.str "required", .null),
    (.str "minProperties", .int 1),
    (.str "properties", .obj [
      (.str "x", .obj [
        (.str "items", .obj [
          (.str "enum", .null),
          (.str "exclusiveMinimum", .null),
          (.str "type", .str "integer")]),
        (.str "exclusiveMinimum", .int 0),
        (.str "type", .str "array")])]),
    (.str "description", .str "lax"),
    (.str "$schema", .null),
    (.str "type", .str "object")]

theorem laxDocument_written_in_normal_form :
    laxDocument.IsJson ∧ ∃ s, Schema.decode laxDocument = .ok s ∧ s.encode =
      .obj [
        (.str "description", .str "lax"),
        (.str "type", .str "object"),
        (.str "properties", .obj [
          (.str "x", .obj [
            (.str "type", .str "array"),
            (.str "items", .obj [(.str "type", .str "integer"), (.str "enum", .null)])])]),
        (.str "pattern", .null),
        (.str "definitions", .obj [
          (.str "b", .obj [(.str "$ref", .str "#/definitions/a")]),
          (.str "a", .obj [])])] := by
  have hjson : laxDocument.IsJson := by simp [laxDocument, Scalar.IsJson]
  obtain ⟨s, hs⟩ : ∃ s, Schema.decode laxDocument = .ok s := ⟨_, rfl⟩
  exact ⟨hjson, s, hs, encode_eq_normalForm hjson hs⟩

end StructuralSchema
