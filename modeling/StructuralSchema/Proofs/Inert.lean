import StructuralSchema.Proofs.Regular
import StructuralSchema.Proofs.Skeleton

/-!
# Inert members of documents

Two JSON documents may differ in the order of their members, in members that reading passes over,
and in the values of those that take no part in validation. They are read as schemas with the same
skeleton.
-/

namespace StructuralSchema

def membersUnder (name : String) (members : Members) : Members :=
  match lookup name members with
  | some (.obj inner) => inner
  | _ => []

/-- The objects describe nodes, and differ at most in the order of members and in what is
inert. -/
inductive Value.NodesAlike : Value → Value → Prop
  | reference {ms ns : List (Scalar × Value)} {target : Value}
      (h : lookup "$ref" ms = some target) (h' : lookup "$ref" ns = some target) :
      NodesAlike (.obj ms) (.obj ns)
  | node {ms ns : List (Scalar × Value)} (href : lookup "$ref" ms = none)
      (href' : lookup "$ref" ns = none) (htype : lookup "type" ms = lookup "type" ns)
      (hrequired : lookup "required" ms = lookup "required" ns)
      (hkeywords : ∀ k : Keyword, HasKey k.text ms ↔ HasKey k.text ns)
      (hitems : ∀ v w, lookup "items" ms = some v → lookup "items" ns = some w → NodesAlike v w)
      (hnames : ∀ name,
        HasKey name (membersUnder "properties" ms) ↔ HasKey name (membersUnder "properties" ns))
      (each : ∀ name v w, (Scalar.str name, v) ∈ membersUnder "properties" ms →
        (Scalar.str name, w) ∈ membersUnder "properties" ns → NodesAlike v w) :
      NodesAlike (.obj ms) (.obj ns)

/-- The object gives a type or a reference. -/
def IsTyped (members : Members) : Prop :=
  HasKey "$ref" members ∨ HasKey "type" members

/-- The objects describe definitions, and differ at most in the order of members and in what is
inert. -/
inductive Value.DefinitionsAlike : Value → Value → Prop
  | mk {ms ns : List (Scalar × Value)} (htyped : IsTyped ms ↔ IsTyped ns)
      (hspecification : IsTyped ms → NodesAlike (.obj ms) (.obj ns))
      (hgiven : (lookup "definitions" ms).getD .null = .null ↔
        (lookup "definitions" ns).getD .null = .null)
      (hnames : ∀ name,
        HasKey name (membersUnder "definitions" ms) ↔ HasKey name (membersUnder "definitions" ns))
      (each : ∀ name v w, (Scalar.str name, v) ∈ membersUnder "definitions" ms →
        (Scalar.str name, w) ∈ membersUnder "definitions" ns → DefinitionsAlike v w) :
      DefinitionsAlike (.obj ms) (.obj ns)

/-- Objects without items or properties have nothing inside that could differ. -/
theorem nodesAlike_of_leaf {ms ns : Members} (href : lookup "$ref" ms = none)
    (href' : lookup "$ref" ns = none) (htype : lookup "type" ms = lookup "type" ns)
    (hrequired : lookup "required" ms = lookup "required" ns)
    (hkeywords : ∀ k : Keyword, HasKey k.text ms ↔ HasKey k.text ns)
    (hitems : lookup "items" ms = none) (hproperties : lookup "properties" ms = none)
    (hproperties' : lookup "properties" ns = none) :
    (Value.obj ms).NodesAlike (.obj ns) := by
  refine .node href href' htype hrequired hkeywords ?_ ?_ ?_
  · intro v w hv
    simp [hitems] at hv
  · simp [membersUnder, hproperties, hproperties']
  · simp [membersUnder, hproperties]

/-! ## What is read from them -/

theorem hasKey_iff_mem_keys {name : String} {members : Members} :
    HasKey name members ↔ Scalar.str name ∈ members.map Prod.fst := by
  simp [HasKey]

theorem mem_names_iff_of_readEntries {α : Type} {read : Pointer → Value → Decoded α}
    {place : Pointer} {members : Members} {entries : List (String × α)}
    (h : readEntries read place members = .ok entries) (name : String) :
    name ∈ entries.map Prod.fst ↔ HasKey name members := by
  rw [hasKey_iff_mem_keys, map_fst_of_readEntries h, ← List.map_map]
  simp

theorem mem_keywords_iff_of_decodeUnsupported {members : Members} {unsupported : Annotations}
    (h : decodeUnsupported members = .ok unsupported) (k : Keyword) :
    k ∈ unsupported.map Prod.fst ↔ HasKey k.text members := by
  unfold decodeUnsupported at h
  split_ifs at h
  obtain rfl : unsupportedOf members = unsupported := by simpa using h
  rw [← hasMember_iff, hasMember, Option.isSome_iff_exists]
  constructor
  · intro hk
    obtain ⟨entry, hentry, rfl⟩ := List.mem_map.mp hk
    obtain ⟨l, -, hl⟩ := List.mem_filterMap.mp hentry
    obtain ⟨v, hv, rfl⟩ := Option.map_eq_some_iff.mp hl
    exact ⟨v, hv⟩
  · rintro ⟨v, hv⟩
    refine List.mem_map.mpr ⟨(k, v), List.mem_filterMap.mpr ⟨k, k.mem_all, ?_⟩, rfl⟩
    rw [hv]
    rfl

theorem readEntries_of_decodeProperties {place : Pointer} {members : Members}
    (json : ∀ m ∈ members, m.2.IsJson) {properties : List (String × Property)}
    (h : decodeProperties place members = .ok properties) :
    readEntries decodeProperty (place.child "properties") (membersUnder "properties" members) =
      .ok properties := by
  rw [decodeProperties_eq_lookup] at h
  unfold membersUnder
  cases hlookup : lookup "properties" members with
  | none =>
      rw [hlookup] at h
      exact h
  | some v =>
      rw [hlookup] at h
      cases v with
      | scalar s =>
          cases s with
          | null => simpa only [decodePropertyMap, readEntries] using h
          | _ => simp [decodePropertyMap, refuse] at h
      | obj inner => simpa only [decodePropertyMap, decodeEntries_eq_readEntries] using h
      | loop number v => exact absurd (json _ (mem_of_lookup hlookup)) (by rintro ⟨⟩)
      | _ => simp [decodePropertyMap, refuse] at h

theorem decodeRequired_eq_of_lookup {place place' : Pointer} {ms ns : Members}
    (hrequired : lookup "required" ms = lookup "required" ns) {a b : Option (List String)}
    (ha : decodeRequired place ms = .ok a) (hb : decodeRequired place' ns = .ok b) : a = b := by
  unfold decodeRequired at ha hb
  rw [hrequired] at ha
  generalize (lookup "required" ns).getD .null = v at ha hb
  split at ha
  · simpa [← Except.ok.inj ha] using hb
  · rename_i hne
    split at hb
    · exact absurd rfl hne
    · cases hlist : v.textList? with
      | none => simp [hlist, refuse] at ha
      | some names =>
          rw [hlist] at ha hb
          exact Except.ok.inj (ha.symm.trans hb)

section Nodes

variable {place place' : Pointer} {ms ns : Members} {p q : Property}

theorem sameKeywords_of_decodeUnsupported {u v : Annotations}
    (hkeywords : ∀ k : Keyword, HasKey k.text ms ↔ HasKey k.text ns)
    (hu : decodeUnsupported ms = .ok u) (hv : decodeUnsupported ns = .ok v) :
    SameKeywords u v := by
  intro k
  rw [mem_keywords_iff_of_decodeUnsupported hu, mem_keywords_iff_of_decodeUnsupported hv]
  exact hkeywords k

theorem isJson_of_mem_membersUnder (json : ∀ m ∈ ms, m.2.IsJson) {name : String}
    {m : Scalar × Value} (h : m ∈ membersUnder name ms) : m.2.IsJson := by
  unfold membersUnder at h
  split at h
  · rename_i inner hinner
    have hobj := json _ (mem_of_lookup hinner)
    exact (Value.isJson_obj_iff.mp hobj).2 m h
  · simp at h

def ReadAlike (v w : Value) : Prop :=
  ∀ place place' p q, v.IsJson → w.IsJson → decodeProperty place v = .ok p →
    decodeProperty place' w = .ok q → p.SameSkeleton q

theorem sameSkeleton_of_decodeInstance (json : ∀ m ∈ ms, m.2.IsJson)
    (json' : ∀ m ∈ ns, m.2.IsJson) (hrequired : lookup "required" ms = lookup "required" ns)
    (hkeywords : ∀ k : Keyword, HasKey k.text ms ↔ HasKey k.text ns)
    (hitems : ∀ v w, lookup "items" ms = some v → lookup "items" ns = some w → ReadAlike v w)
    (hnames : ∀ name,
      HasKey name (membersUnder "properties" ms) ↔ HasKey name (membersUnder "properties" ns))
    (each : ∀ name v w, (Scalar.str name, v) ∈ membersUnder "properties" ms →
      (Scalar.str name, w) ∈ membersUnder "properties" ns → ReadAlike v w) {type : TypeName}
    (hp : decodeInstance place ms type = .ok p) (hq : decodeInstance place' ns type = .ok q) :
    p.SameSkeleton q := by
  cases type with
  | null | boolean | string =>
      obtain ⟨u, hu, rfl⟩ := Decoded.map_eq_ok_iff.mp hp
      obtain ⟨v, hv, rfl⟩ := Decoded.map_eq_ok_iff.mp hq
      exact .node (.plain (sameKeywords_of_decodeUnsupported hkeywords hu hv))
  | integer | number =>
      obtain ⟨u, hu, rfl⟩ := exists_of_decodeNumeric hp
      obtain ⟨v, hv, rfl⟩ := exists_of_decodeNumeric hq
      exact .node (.numeric (sameKeywords_of_decodeUnsupported hkeywords hu hv))
  | array =>
      obtain ⟨items, u, hread, hu, rfl⟩ := exists_of_decodeArray hp
      obtain ⟨others, v, hread', hv, rfl⟩ := exists_of_decodeArray hq
      obtain ⟨a, ha, hreada⟩ := exists_of_decodeItems hread
      obtain ⟨b, hb, hreadb⟩ := exists_of_decodeItems hread'
      have hsame := hitems a b ha hb _ _ _ _ (json _ (mem_of_lookup ha))
        (json' _ (mem_of_lookup hb)) hreada hreadb
      cases hsame with
      | node h => exact .node (.array h (sameKeywords_of_decodeUnsupported hkeywords hu hv))
  | object =>
      obtain ⟨ps, a, u, hps, ha, hu, rfl⟩ := exists_of_decodeObject hp
      obtain ⟨qs, b, v, hqs, hb, hv, rfl⟩ := exists_of_decodeObject hq
      obtain rfl := decodeRequired_eq_of_lookup hrequired ha hb
      have hread := readEntries_of_decodeProperties json hps
      have hread' := readEntries_of_decodeProperties json' hqs
      refine .node (.object ?_ ?_ (fun name => Iff.rfl)
        (sameKeywords_of_decodeUnsupported hkeywords hu hv))
      · intro name
        rw [mem_names_iff_of_readEntries hread, mem_names_iff_of_readEntries hread', hnames]
      · intro name p q hp hq
        obtain ⟨x, hx, hreadx⟩ := exists_of_mem_readEntries hread hp
        obtain ⟨y, hy, hready⟩ := exists_of_mem_readEntries hread' hq
        exact each name x y hx hy _ _ p q (isJson_of_mem_membersUnder json hx)
          (isJson_of_mem_membersUnder json' hy) hreadx hready

theorem readAlike_of_nodesAlike {v w : Value} (h : v.NodesAlike w) : ReadAlike v w := by
  induction h with
  | reference h h' =>
      intro place place' p q _ _ hp hq
      rw [decodeProperty_obj, h] at hp
      rw [decodeProperty_obj, h'] at hq
      obtain ⟨text, rfl, rfl⟩ := exists_text_of_decodeReference_eq_ok hp
      obtain ⟨other, hother, rfl⟩ := exists_text_of_decodeReference_eq_ok hq
      obtain rfl : text = other := by simpa using hother
      exact .reference text
  | node href href' htype hrequired hkeywords _ hnames _ hitems each =>
      intro place place' p q hv hw hp hq
      rw [decodeProperty_obj, href] at hp
      rw [decodeProperty_obj, href'] at hq
      obtain ⟨type, ht, hp⟩ := Decoded.bind_eq_ok_iff.mp hp
      obtain ⟨type', ht', hq⟩ := Decoded.bind_eq_ok_iff.mp hq
      rw [decodeType_eq_ok_iff] at ht ht'
      obtain rfl : type = type' := by
        rw [htype, ht'] at ht
        simpa [TypeName.text_injective.eq_iff, eq_comm] using ht
      exact sameSkeleton_of_decodeInstance (Value.isJson_obj_iff.mp hv).2
        (Value.isJson_obj_iff.mp hw).2 hrequired hkeywords hitems hnames each hp hq

end Nodes

/-! ## Definitions -/

section Definitions

variable {place place' : Pointer} {ms ns : Members}

theorem isTyped_iff {members : Members} :
    IsTyped members ↔ (hasMember "$ref" members || hasMember "type" members) = true := by
  rw [Bool.or_eq_true, hasMember_iff, hasMember_iff]
  rfl

theorem specification_sameSkeleton {x y : Option Property} (hv : (Value.obj ms).IsJson)
    (hw : (Value.obj ns).IsJson) (htyped : IsTyped ms ↔ IsTyped ns)
    (h : IsTyped ms → (Value.obj ms).NodesAlike (.obj ns))
    (hx : decodeSpecification place ms = .ok x) (hy : decodeSpecification place' ns = .ok y) :
    Option.Rel Property.SameSkeleton x y := by
  unfold decodeSpecification at hx hy
  by_cases hgiven : IsTyped ms
  · rw [if_pos (isTyped_iff.mp hgiven)] at hx
    rw [if_pos (isTyped_iff.mp (htyped.mp hgiven))] at hy
    obtain ⟨p, hp, rfl⟩ := Decoded.map_eq_ok_iff.mp hx
    obtain ⟨q, hq, rfl⟩ := Decoded.map_eq_ok_iff.mp hy
    exact .some (readAlike_of_nodesAlike (h hgiven) _ _ p q hv hw hp hq)
  · have hother : ¬ IsTyped ns := fun hns => hgiven (htyped.mpr hns)
    rw [isTyped_iff] at hgiven hother
    rw [if_neg hgiven] at hx
    rw [if_neg hother] at hy
    obtain rfl := Except.ok.inj hx
    obtain rfl := Except.ok.inj hy
    exact .none

theorem readEntries_of_decodeDefinitions (json : ∀ m ∈ ms, m.2.IsJson)
    {x : Option (List (String × Definition))} (h : decodeDefinitions place ms = .ok x) :
    (x = none ∧ (lookup "definitions" ms).getD .null = .null) ∨
      ∃ ds, x = some ds ∧ (lookup "definitions" ms).getD .null ≠ .null ∧
        readEntries decodeDefinition (place.child "definitions")
          (membersUnder "definitions" ms) = .ok ds := by
  rw [decodeDefinitions_eq_lookup] at h
  unfold membersUnder
  cases hlookup : lookup "definitions" ms with
  | none =>
      rw [hlookup] at h
      exact .inl ⟨(Except.ok.inj h).symm, rfl⟩
  | some v =>
      rw [hlookup] at h
      cases v with
      | scalar s =>
          cases s with
          | null =>
              simp only [decodeDefinitionMap] at h
              exact .inl ⟨(Except.ok.inj h).symm, rfl⟩
          | _ => simp [decodeDefinitionMap, refuse] at h
      | obj inner =>
          simp only [decodeDefinitionMap, decodeDefinitionEntries_eq_readEntries] at h
          obtain ⟨ds, hds, hx⟩ := Decoded.map_eq_ok_iff.mp h
          exact .inr ⟨ds, hx.symm, by simp, hds⟩
      | loop number v => exact absurd (json _ (mem_of_lookup hlookup)) (by rintro ⟨⟩)
      | _ => simp [decodeDefinitionMap, refuse] at h

/-- JSON documents that differ at most in the order of members and in what is inert are read as
definitions with the same skeleton. -/
theorem sameSkeleton_of_definitionsAlike {v w : Value} (h : v.DefinitionsAlike w)
    (hv : v.IsJson) (hw : w.IsJson) {d e : Definition} (hd : decodeDefinition place v = .ok d)
    (he : decodeDefinition place' w = .ok e) : d.SameSkeleton e := by
  induction h generalizing place place' d e with
  | mk htyped hspecification hgiven hnames _ each =>
      have hread := readFrom_of_decodeDefinition hd
      have hread' := readFrom_of_decodeDefinition he
      have json := (Value.isJson_obj_iff.mp hv).2
      have json' := (Value.isJson_obj_iff.mp hw).2
      refine Definition.sameSkeleton_iff.mpr ⟨?_, ?_⟩
      · exact specification_sameSkeleton hv hw htyped hspecification hread.specification
          hread'.specification
      · rcases readEntries_of_decodeDefinitions json hread.definitions with
          ⟨hx, hnull⟩ | ⟨ds, hx, hsome, hds⟩
        · rcases readEntries_of_decodeDefinitions json' hread'.definitions with
            ⟨hy, -⟩ | ⟨es, -, hsome, -⟩
          · rw [hx, hy]
            exact .none
          · exact absurd (hgiven.mp hnull) hsome
        · rcases readEntries_of_decodeDefinitions json' hread'.definitions with
            ⟨-, hnull⟩ | ⟨es, hy, -, hes⟩
          · exact absurd (hgiven.mpr hnull) hsome
          · rw [hx, hy]
            refine .some ⟨?_, ?_⟩
            · intro name
              rw [mem_names_iff_of_readEntries hds, mem_names_iff_of_readEntries hes, hnames]
            · intro name f g hf hg
              obtain ⟨x, hx, hreadx⟩ := exists_of_mem_readEntries hds hf
              obtain ⟨y, hy, hready⟩ := exists_of_mem_readEntries hes hg
              exact each name x y hx hy (isJson_of_mem_membersUnder json hx)
                (isJson_of_mem_membersUnder json' hy) hreadx hready

end Definitions

end StructuralSchema
