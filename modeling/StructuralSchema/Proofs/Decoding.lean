import StructuralSchema.Proofs.JsonValue
import StructuralSchema.Schema.Decode

/-!
# How schemas are read

What reading a part of a schema comes to, said by the keywords that are looked up: a
node is read by its type, and maps of properties and of definitions are read entry by
entry in the same way. Reading a node depends on no member but those of its keywords.
-/

namespace StructuralSchema

variable {α β : Type}

theorem Decoded.bind_eq_ok_iff {r : Decoded α} {f : α → Decoded β} {b : β} :
    r >>= f = .ok b ↔ ∃ a, r = .ok a ∧ f a = .ok b := by
  cases r with
  | error e => simp [bind, Except.bind]
  | ok a => simp [bind, Except.bind]

theorem Decoded.map_eq_ok_iff {r : Decoded α} {f : α → β} {b : β} :
    r.map f = .ok b ↔ ∃ a, r = .ok a ∧ f a = b := by
  cases r with
  | error e => simp [Except.map]
  | ok a => simp [Except.map]

def readEntries (read : Pointer → Value → Decoded α) (place : Pointer) :
    Members → Decoded (List (String × α))
  | [] => .ok []
  | (.str name, v) :: rest => do
    let a ← read (place.child name) v
    let entries ← readEntries read place rest
    return (name, a) :: entries
  | (key, _) :: _ => .error (.keyNotText place key)

theorem decodeEntries_eq_readEntries (place : Pointer) (members : Members) :
    decodeEntries place members = readEntries decodeProperty place members := by
  induction members with
  | nil => simp [decodeEntries, readEntries]
  | cons m rest ih =>
      obtain ⟨k, v⟩ := m
      cases k with
      | str name =>
          simp only [decodeEntries, readEntries, ih]
          cases decodeProperty (place.child name) v with
          | error e => rfl
          | ok p => cases readEntries decodeProperty place rest <;> rfl
      | _ => rfl

theorem decodeDefinitionEntries_eq_readEntries (place : Pointer) (members : Members) :
    decodeDefinitionEntries place members = readEntries decodeDefinition place members := by
  induction members with
  | nil => simp [decodeDefinitionEntries, readEntries]
  | cons m rest ih =>
      obtain ⟨k, v⟩ := m
      cases k with
      | str name =>
          simp only [decodeDefinitionEntries, readEntries, ih]
          cases decodeDefinition (place.child name) v with
          | error e => rfl
          | ok d => cases readEntries decodeDefinition place rest <;> rfl
      | _ => rfl

def readTextList (place : Pointer) (v : Value) : Decoded (List String) :=
  match v.textList? with
  | some names => .ok names
  | none => refuse place .notTextList

theorem decodeDependencyEntries_eq_readEntries {members : Members} (keys : HasTextKeys members)
    (place : Pointer) :
    decodeDependencyEntries place members =
      (readEntries readTextList place members).map fun entries =>
        entries.map fun entry => (Scalar.str entry.1, entry.2) := by
  induction members with
  | nil => rfl
  | cons m rest ih =>
      obtain ⟨⟨name, hname⟩, -, hkeys⟩ := hasTextKeys_cons_iff.mp keys
      obtain ⟨key, v⟩ := m
      obtain rfl : key = .str name := hname
      rw [decodeDependencyEntries, readEntries, readTextList, ih hkeys]
      cases v.textList? with
      | none => rfl
      | some names => cases readEntries readTextList place rest <;> rfl

theorem exists_of_mem_readEntries {read : Pointer → Value → Decoded α} {place : Pointer}
    {members : Members} {entries : List (String × α)}
    (h : readEntries read place members = .ok entries) {entry : String × α}
    (hentry : entry ∈ entries) :
    ∃ v, (Scalar.str entry.1, v) ∈ members ∧ read (place.child entry.1) v = .ok entry.2 := by
  induction members generalizing entries with
  | nil =>
      obtain rfl : [] = entries := by simpa [readEntries] using h
      simp at hentry
  | cons m rest ih =>
      obtain ⟨k, v⟩ := m
      cases k with
      | str name =>
          obtain ⟨a, ha, h⟩ := Decoded.bind_eq_ok_iff.mp h
          obtain ⟨others, hothers, h⟩ := Decoded.bind_eq_ok_iff.mp h
          obtain rfl : (name, a) :: others = entries := by simpa [pure, Except.pure] using h
          rcases List.mem_cons.mp hentry with rfl | hentry
          · exact ⟨v, List.mem_cons_self, ha⟩
          · obtain ⟨w, hw, hread⟩ := ih hothers hentry
            exact ⟨w, List.mem_cons_of_mem _ hw, hread⟩
      | _ => simp [readEntries] at h

theorem map_fst_of_readEntries {read : Pointer → Value → Decoded α} {place : Pointer}
    {members : Members} {entries : List (String × α)}
    (h : readEntries read place members = .ok entries) :
    members.map Prod.fst = entries.map (Scalar.str ∘ Prod.fst) := by
  induction members generalizing entries with
  | nil =>
      obtain rfl : [] = entries := by simpa [readEntries] using h
      rfl
  | cons m rest ih =>
      obtain ⟨k, v⟩ := m
      cases k with
      | str name =>
          obtain ⟨a, -, h⟩ := Decoded.bind_eq_ok_iff.mp h
          obtain ⟨others, hothers, h⟩ := Decoded.bind_eq_ok_iff.mp h
          obtain rfl : (name, a) :: others = entries := by simpa [pure, Except.pure] using h
          rw [List.map_cons, List.map_cons, ih hothers]
          rfl
      | _ => simp [readEntries] at h

def concreteItems (place : Pointer) : Property → Decoded Node
  | .node n => .ok n
  | .reference _ => refuse (place.child "items") .itemsNotConcrete

theorem decodeItems_eq_lookup (place : Pointer) (members : Members) :
    decodeItems place members =
      match lookup "items" members with
      | none => refuse place .arrayWithoutItems
      | some v => decodeProperty (place.child "items") v >>= concreteItems place := by
  induction members with
  | nil => simp [decodeItems, lookup]
  | cons m rest ih =>
      obtain ⟨k, v⟩ := m
      simp only [decodeItems, lookup]
      split_ifs
      · show _ = decodeProperty (place.child "items") v >>= concreteItems place
        cases decodeProperty (place.child "items") v with
        | error e => rfl
        | ok p => cases p <;> rfl
      · exact ih

theorem decodeProperties_eq_lookup (place : Pointer) (members : Members) :
    decodeProperties place members =
      match lookup "properties" members with
      | none => .ok []
      | some v => decodePropertyMap (place.child "properties") v := by
  induction members with
  | nil => simp [decodeProperties, lookup]
  | cons m rest ih =>
      obtain ⟨k, v⟩ := m
      simp only [decodeProperties, lookup]
      split_ifs
      · rfl
      · exact ih

theorem decodeDefinitions_eq_lookup (place : Pointer) (members : Members) :
    decodeDefinitions place members =
      match lookup "definitions" members with
      | none => .ok none
      | some v => decodeDefinitionMap (place.child "definitions") v := by
  induction members with
  | nil => simp [decodeDefinitions, lookup]
  | cons m rest ih =>
      obtain ⟨k, v⟩ := m
      simp only [decodeDefinitions, lookup]
      split_ifs
      · rfl
      · exact ih

theorem TypeName.text_injective : Function.Injective TypeName.text := by
  intro a b h
  cases a <;> cases b <;> first | rfl | exact absurd h (by decide)

theorem TypeName.ofText?_eq_some_iff {text : String} {type : TypeName} :
    TypeName.ofText? text = some type ↔ text = type.text := by
  constructor
  · intro h
    have hfound := List.find?_some h
    exact (beq_iff_eq.mp hfound).symm
  · rintro rfl
    cases type <;> decide

theorem decodeType_eq_ok_iff {place : Pointer} {members : Members} {type : TypeName} :
    decodeType place members = .ok type ↔ lookup "type" members = some (.str type.text) := by
  unfold decodeType
  cases lookup "type" members with
  | none => simp [refuse]
  | some v =>
      rw [Option.getD_some, Option.some_inj]
      split
      · rename_i text
        split
        · rename_i found hfound
          obtain rfl := TypeName.ofText?_eq_some_iff.mp hfound
          simp [TypeName.text_injective.eq_iff]
        · rename_i hnone
          have hne : text ≠ type.text := by
            intro heq
            simp [TypeName.ofText?_eq_some_iff.mpr heq] at hnone
          simp [refuse, hne]
      · rename_i hne
        have hvalue : v ≠ .str type.text := fun heq => hne _ heq
        simp [refuse, hvalue]

theorem exists_text_of_decodeReference_eq_ok {place : Pointer} {target : Value} {p : Property}
    (h : decodeReference place target = .ok p) :
    ∃ text, target = .str text ∧ p = .reference text := by
  unfold decodeReference at h
  split at h
  · rename_i text
    split at h
    · exact ⟨text, rfl, (Except.ok.inj h).symm⟩
    · simp [refuse] at h
  · simp [refuse] at h

def decodeInstance (place : Pointer) (members : Members) : TypeName → Decoded Property
  | .null => decodePlain .null members
  | .boolean => decodePlain .boolean members
  | .string => decodePlain .string members
  | .integer => decodeNumeric .integer members
  | .number => decodeNumeric .number members
  | .array => do
    let items ← decodeItems place members
    let unsupported ← decodeUnsupported members
    return .node (.array items unsupported)
  | .object => do
    let properties ← decodeProperties place members
    let required ← decodeRequired place members
    let unsupported ← decodeUnsupported members
    return .node (.object properties required unsupported)

theorem decodeProperty_obj (place : Pointer) (members : Members) :
    decodeProperty place (.obj members) =
      match lookup "$ref" members with
      | some target => decodeReference place target
      | none => decodeType place members >>= decodeInstance place members := by
  rw [decodeProperty]
  cases lookup "$ref" members with
  | some target => rfl
  | none =>
      cases decodeType place members with
      | error e => rfl
      | ok type =>
          cases type with
          | null | boolean | string | integer | number => rfl
          | array =>
              show _ = decodeItems place members >>= _
              cases decodeItems place members <;> rfl
          | object =>
              show _ = decodeProperties place members >>= _
              cases decodeProperties place members with
              | error e => rfl
              | ok properties => cases decodeRequired place members <;> rfl

theorem decodeDefinition_of_decode {v : Value} (hv : v.IsJson) {d : Definition}
    (h : Schema.decode v = .ok (.definition d)) : decodeDefinition .root v = .ok d := by
  cases hv with
  | @scalar s hs => cases s <;> simp [Schema.decode, Value.unlooped] at h
  | arr => simp [Schema.decode, Value.unlooped] at h
  | @obj members keys json =>
      cases hread : decodeDefinition .root (.obj members) with
      | error e => simp [Schema.decode, Value.unlooped, hread] at h
      | ok e => simpa [Schema.decode, Value.unlooped, hread] using h

/-! ## What was read -/

section Inversion

variable {place : Pointer} {members : Members} {p : Property}

theorem exists_of_decodeNumeric {type : NumericType}
    (h : decodeNumeric type members = .ok p) :
    ∃ unsupported, decodeUnsupported members = .ok unsupported ∧
      p = .node (.numeric type (exclusiveMinimumOf members) unsupported) := by
  unfold decodeNumeric at h
  split_ifs at h
  obtain ⟨unsupported, hunsupported, rfl⟩ := Decoded.map_eq_ok_iff.mp h
  exact ⟨unsupported, hunsupported, rfl⟩

theorem exists_of_decodeItems {items : Node} (h : decodeItems place members = .ok items) :
    ∃ v, lookup "items" members = some v ∧
      decodeProperty (place.child "items") v = .ok (.node items) := by
  rw [decodeItems_eq_lookup] at h
  cases hlookup : lookup "items" members with
  | none => simp [hlookup, refuse] at h
  | some v =>
      rw [hlookup] at h
      obtain ⟨p, hp, hconcrete⟩ := Decoded.bind_eq_ok_iff.mp h
      cases p with
      | node n =>
          obtain rfl : n = items := by simpa [concreteItems] using hconcrete
          exact ⟨v, rfl, hp⟩
      | reference text => simp [concreteItems, refuse] at hconcrete

theorem exists_of_decodeArray (h : decodeInstance place members .array = .ok p) :
    ∃ items unsupported, decodeItems place members = .ok items ∧
      decodeUnsupported members = .ok unsupported ∧ p = .node (.array items unsupported) := by
  obtain ⟨items, hitems, h⟩ := Decoded.bind_eq_ok_iff.mp h
  obtain ⟨unsupported, hunsupported, h⟩ := Decoded.bind_eq_ok_iff.mp h
  exact ⟨items, unsupported, hitems, hunsupported, (Except.ok.inj h).symm⟩

theorem exists_of_decodeObject (h : decodeInstance place members .object = .ok p) :
    ∃ properties required unsupported, decodeProperties place members = .ok properties ∧
      decodeRequired place members = .ok required ∧
      decodeUnsupported members = .ok unsupported ∧
      p = .node (.object properties required unsupported) := by
  obtain ⟨properties, hproperties, h⟩ := Decoded.bind_eq_ok_iff.mp h
  obtain ⟨required, hrequired, h⟩ := Decoded.bind_eq_ok_iff.mp h
  obtain ⟨unsupported, hunsupported, h⟩ := Decoded.bind_eq_ok_iff.mp h
  exact ⟨properties, required, unsupported, hproperties, hrequired, hunsupported,
    (Except.ok.inj h).symm⟩

/-- Each part of a definition was read from the members by its own rule. -/
structure ReadFrom (place : Pointer) (members : Members) (d : Definition) : Prop where
  id : decodeId place members = .ok d.id
  dialect : decodeDialect place members = .ok d.dialect
  description : decodeDescription place members = .ok d.description
  specification : decodeSpecification place members = .ok d.specification
  dependencies : decodeDependencies place members = .ok d.dependencies
  definitions : decodeDefinitions place members = .ok d.definitions

theorem readFrom_of_decodeDefinition {d : Definition}
    (h : decodeDefinition place (.obj members) = .ok d) : ReadFrom place members d := by
  rw [decodeDefinition] at h
  obtain ⟨id, hid, h⟩ := Decoded.bind_eq_ok_iff.mp h
  obtain ⟨dialect, hdialect, h⟩ := Decoded.bind_eq_ok_iff.mp h
  obtain ⟨description, hdescription, h⟩ := Decoded.bind_eq_ok_iff.mp h
  obtain ⟨specification, hspecification, h⟩ := Decoded.bind_eq_ok_iff.mp h
  obtain ⟨dependencies, hdependencies, h⟩ := Decoded.bind_eq_ok_iff.mp h
  obtain ⟨definitions, hdefinitions, h⟩ := Decoded.bind_eq_ok_iff.mp h
  obtain rfl : Definition.mk id dialect description dependencies specification definitions = d :=
    Except.ok.inj h
  exact ⟨hid, hdialect, hdescription, hspecification, hdependencies, hdefinitions⟩

end Inversion

/-! ## The members that matter -/

def nodeKeywords : List String :=
  ["$ref", "type", "exclusiveMinimum", "items", "properties", "required"] ++
    Keyword.all.map Keyword.text

theorem Keyword.mem_all (k : Keyword) : k ∈ Keyword.all := by
  cases k <;> decide

theorem Keyword.text_mem_nodeKeywords (k : Keyword) : k.text ∈ nodeKeywords :=
  List.mem_append_right _ (List.mem_map_of_mem k.mem_all)

section Congruence

variable {place : Pointer} {a b : Members}

theorem unsupportedOf_congr (h : ∀ name ∈ nodeKeywords, lookup name a = lookup name b) :
    unsupportedOf a = unsupportedOf b :=
  List.filterMap_congr fun k _ => by rw [h k.text k.text_mem_nodeKeywords]

theorem decodeUnsupported_congr (h : ∀ name ∈ nodeKeywords, lookup name a = lookup name b) :
    decodeUnsupported a = decodeUnsupported b := by
  unfold decodeUnsupported
  rw [unsupportedOf_congr h]

theorem decodeProperty_congr (h : ∀ name ∈ nodeKeywords, lookup name a = lookup name b) :
    decodeProperty place (.obj a) = decodeProperty place (.obj b) := by
  have hunsupported := decodeUnsupported_congr h
  have htype : decodeType place a = decodeType place b := by
    unfold decodeType
    rw [h "type" (by decide)]
  have hbound : exclusiveMinimumOf a = exclusiveMinimumOf b := by
    unfold exclusiveMinimumOf
    rw [h "exclusiveMinimum" (by decide)]
  have hitems : decodeItems place a = decodeItems place b := by
    rw [decodeItems_eq_lookup, decodeItems_eq_lookup, h "items" (by decide)]
  have hproperties : decodeProperties place a = decodeProperties place b := by
    rw [decodeProperties_eq_lookup, decodeProperties_eq_lookup, h "properties" (by decide)]
  have hrequired : decodeRequired place a = decodeRequired place b := by
    unfold decodeRequired
    rw [h "required" (by decide)]
  have hinstance : decodeInstance place a = decodeInstance place b := by
    funext type
    cases type <;>
      simp only [decodeInstance, decodePlain, decodeNumeric, hunsupported, hbound, hitems,
        hproperties, hrequired]
  rw [decodeProperty_obj, decodeProperty_obj, h "$ref" (by decide), htype, hinstance]

end Congruence

end StructuralSchema
