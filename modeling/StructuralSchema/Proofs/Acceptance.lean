import StructuralSchema.Proofs.Decoding
import StructuralSchema.Proofs.Grammar

/-!
# Reading decides the grammar

Reading a JSON value gives a schema if the value is one by the grammar, and otherwise a
complaint, and no other error. Each part of the reading decides its part of the grammar,
and the parts are put together by induction on the value.
-/

namespace StructuralSchema

variable {α β : Type}

/-- The result is there if the condition holds, and otherwise there is a complaint. -/
inductive Decoded.Decides : Decoded α → Prop → Prop
  | read {P : Prop} (a : α) (h : P) : Decides (.ok a) P
  | refused {P : Prop} (place : Pointer) (wrong : Complaint) (h : ¬ P) :
      Decides (.error (.complaint place wrong)) P

namespace Decoded.Decides

variable {P Q : Prop}

theorem congr {r : Decoded α} (h : r.Decides P) (hPQ : P ↔ Q) : r.Decides Q := by
  rwa [← propext hPQ]

theorem of_ok {r : Decoded α} {a : α} (h : r.Decides P) (hr : r = .ok a) : P := by
  subst hr
  cases h with
  | read _ hP => exact hP

theorem of_error {r : Decoded α} {e : DecodeError} (h : r.Decides P) (hr : r = .error e) :
    ∃ place wrong, e = .complaint place wrong ∧ ¬ P := by
  subst hr
  cases h with
  | refused place wrong hP => exact ⟨place, wrong, rfl, hP⟩

/-- If the first step decides what the whole needs, it is enough to follow its results. -/
theorem bind {r : Decoded α} {f : α → Decoded β} (h : r.Decides P) (hQP : Q → P)
    (hf : ∀ a, r = .ok a → (f a).Decides Q) : (r >>= f).Decides Q := by
  cases h with
  | read a _ => exact hf a rfl
  | refused place wrong hP => exact .refused place wrong fun hQ => hP (hQP hQ)

theorem bind_and {r : Decoded α} {f : α → Decoded β} (h : r.Decides P)
    (hf : ∀ a, r = .ok a → (f a).Decides Q) : (r >>= f).Decides (P ∧ Q) := by
  refine h.bind And.left ?_
  intro a ha
  exact (hf a ha).congr (iff_and_self.mpr fun _ => h.of_ok ha)

theorem map {r : Decoded α} (f : α → β) (h : r.Decides P) :
    Decides (Except.map f r) P := by
  cases h with
  | read a hP => exact .read (f a) hP
  | refused place wrong hP => exact .refused place wrong hP

theorem refuse {place : Pointer} {wrong : Complaint} (h : ¬ P) :
    Decides (StructuralSchema.refuse place wrong : Decoded α) P :=
  .refused place wrong h

end Decoded.Decides

open Decoded

theorem readEntries_decides {read : Pointer → Value → Decoded α} {condition : Value → Prop}
    {members : Members} (keys : HasTextKeys members)
    (each : ∀ m ∈ members, ∀ place, (read place m.2).Decides (condition m.2)) (place : Pointer) :
    (readEntries read place members).Decides (∀ m ∈ members, condition m.2) := by
  induction members with
  | nil => exact .read _ (by simp)
  | cons m rest ih =>
      obtain ⟨⟨name, hname⟩, -, hkeys⟩ := hasTextKeys_cons_iff.mp keys
      obtain ⟨hm, hrest⟩ := List.forall_mem_cons.mp each
      obtain ⟨key, v⟩ := m
      obtain rfl : key = .str name := hname
      rw [readEntries]
      refine Decides.congr ?_ List.forall_mem_cons.symm
      refine (hm _).bind_and fun a _ => ?_
      exact (ih hkeys hrest).bind id fun entries hentries =>
        .read _ ((ih hkeys hrest).of_ok hentries)

section Parts

variable {members : Members}

theorem decodeUnsupported_decides (each : ∀ m ∈ members, m.2.IsJson) :
    (decodeUnsupported members).Decides True := by
  have hfinite : ¬ ((unsupportedOf members).any fun entry => entry.2.isEndless) = true := by
    rw [List.any_eq_true]
    rintro ⟨entry, hentry, hendless⟩
    obtain ⟨k, -, hk⟩ := List.mem_filterMap.mp hentry
    obtain ⟨v, hv, rfl⟩ := Option.map_eq_some_iff.mp hk
    rw [(each _ (mem_of_lookup hv)).isEndless_eq_false] at hendless
    exact Bool.false_ne_true hendless
  rw [decodeUnsupported, if_neg hfinite]
  exact .read _ trivial

theorem decodePlain_decides (type : PlainType) (each : ∀ m ∈ members, m.2.IsJson) :
    (decodePlain type members).Decides True :=
  (decodeUnsupported_decides each).map _

theorem decodeNumeric_decides (type : NumericType) (each : ∀ m ∈ members, m.2.IsJson) :
    (decodeNumeric type members).Decides True := by
  have hfinite : ¬ (exclusiveMinimumOf members).any Value.isEndless = true := by
    unfold exclusiveMinimumOf
    split
    · exact Bool.false_ne_true
    · cases hlookup : lookup "exclusiveMinimum" members with
      | none => exact Bool.false_ne_true
      | some v =>
          rw [Option.any_some, (each _ (mem_of_lookup hlookup)).isEndless_eq_false]
          exact Bool.false_ne_true
  rw [decodeNumeric, if_neg hfinite]
  exact (decodeUnsupported_decides each).map _

theorem mem_of_decodeType {place : Pointer} {type : TypeName}
    (h : decodeType place members = .ok type) :
    (Scalar.str "type", Value.str type.text) ∈ members :=
  mem_of_lookup (decodeType_eq_ok_iff.mp h)

theorem exists_complaint_of_decodeType {place : Pointer} {e : DecodeError}
    (h : decodeType place members = .error e) : ∃ spot wrong, e = .complaint spot wrong := by
  unfold decodeType at h
  split at h
  · split at h
    · simp at h
    · exact ⟨_, _, (Except.error.inj h).symm⟩
  · exact ⟨_, _, (Except.error.inj h).symm⟩

theorem decodeType_decides (keys : HasTextKeys members) (place : Pointer) :
    (decodeType place members).Decides
      (∃ type : TypeName, (.str "type", .str type.text) ∈ members) := by
  cases hr : decodeType place members with
  | ok type => exact .read type ⟨type, mem_of_decodeType hr⟩
  | error e =>
      obtain ⟨spot, wrong, rfl⟩ := exists_complaint_of_decodeType hr
      refine .refused spot wrong ?_
      rintro ⟨type, htype⟩
      have hlookup := (lookup_eq_some_iff keys).mpr htype
      rw [decodeType_eq_ok_iff.mpr hlookup] at hr
      cases hr

theorem decodeReference_decides (place : Pointer) (v : Value) :
    (decodeReference place v).Decides v.IsIdentifier := by
  unfold decodeReference
  split
  · rename_i text
    split
    · rename_i id hid
      exact .read _ (isIdentifier_str_iff.mpr (by simp [hid]))
    · rename_i hid
      exact .refuse (by simp [isIdentifier_str_iff, hid])
  · rename_i hne
    refine .refuse ?_
    rintro ⟨text, rfl, -⟩
    exact hne text rfl

theorem mapM_text?_eq_some_iff {elements : List Value} {names : List String} :
    elements.mapM Value.text? = some names ↔ elements = names.map .str := by
  induction elements generalizing names with
  | nil => cases names <;> simp
  | cons v rest ih =>
      cases names with
      | nil => simp [Option.bind_eq_some_iff]
      | cons name names =>
          have hv : v.text? = some name ↔ v = .str name := by
            unfold Value.text?
            split
            · simp
            · rename_i hne
              have hvalue : v ≠ .str name := fun heq => hne _ heq
              simp [hvalue]
          simp [Option.bind_eq_some_iff, hv, ih]

theorem textList?_eq_some_iff {v : Value} (hv : v.IsJson) {names : List String} :
    v.textList? = some names ↔ v = .arr (names.map .str) := by
  cases hv with
  | @scalar s hs => cases s <;> simp_all [Value.textList?, Scalar.IsJson]
  | arr each => simp [Value.textList?, mapM_text?_eq_some_iff]
  | obj keys each => simp [Value.textList?]

theorem textList?_eq_none_iff {v : Value} (hv : v.IsJson) :
    v.textList? = none ↔ ¬ v.IsTextList := by
  rw [← not_iff_not, not_not, ← ne_eq, Option.ne_none_iff_exists']
  simp only [textList?_eq_some_iff hv, Value.IsTextList]

theorem decodeRequired_decides (keys : HasTextKeys members) (each : ∀ m ∈ members, m.2.IsJson)
    (place : Pointer) :
    (decodeRequired place members).Decides
      (OnMember "required" members fun v => v = .null ∨ v.IsTextList) := by
  unfold decodeRequired
  cases hlookup : lookup "required" members with
  | none => exact .read _ (onMember_of_lookup_eq_none hlookup)
  | some v =>
      have hv := each _ (mem_of_lookup hlookup)
      rw [onMember_iff_of_lookup keys hlookup]
      simp only [Option.getD_some]
      split
      · exact .read _ (.inl rfl)
      · rename_i hne
        split
        · rename_i names hnames
          exact .read _ (.inr ⟨names, (textList?_eq_some_iff hv).mp hnames⟩)
        · rename_i hnone
          refine .refuse ?_
          rintro (hnull | hlist)
          · exact hne hnull
          · exact (textList?_eq_none_iff hv).mp hnone hlist

theorem decodeId_decides (keys : HasTextKeys members) (place : Pointer) :
    (decodeId place members).Decides (OnMember "$id" members Value.IsIdentifier) := by
  unfold decodeId
  cases hlookup : lookup "$id" members with
  | none => exact .read _ (onMember_of_lookup_eq_none hlookup)
  | some v =>
      rw [onMember_iff_of_lookup keys hlookup]
      split
      · simp_all
      · rename_i text htext
        obtain rfl : v = .str text := by simpa using htext
        split
        · rename_i id hid
          exact .read _ (isIdentifier_str_iff.mpr (by simp [hid]))
        · rename_i hid
          exact .refuse (by simp [isIdentifier_str_iff, hid])
      · rename_i found hne hfound
        obtain rfl : v = found := by simpa using hfound
        refine .refuse ?_
        rintro ⟨text, rfl, -⟩
        exact hne text rfl

theorem decodeDialect_decides (keys : HasTextKeys members) (place : Pointer) :
    (decodeDialect place members).Decides (OnMember "$schema" members fun v =>
      v = .null ∨ ∃ text, v = .str text ∧ Uri.isAbsolute text) := by
  unfold decodeDialect
  cases hlookup : lookup "$schema" members with
  | none => exact .read _ (onMember_of_lookup_eq_none hlookup)
  | some v =>
      rw [onMember_iff_of_lookup keys hlookup]
      simp only [Option.getD_some]
      split
      · exact .read _ (.inl rfl)
      · rename_i text
        split_ifs with habsolute
        · exact .read _ (.inr ⟨text, rfl, habsolute⟩)
        · exact .refuse (by simp [habsolute])
      · rename_i hnull htext
        refine .refuse ?_
        rintro (heq | ⟨text, heq, -⟩)
        · exact hnull heq
        · exact htext text heq

theorem decodeDescription_decides (keys : HasTextKeys members) (place : Pointer) :
    (decodeDescription place members).Decides
      (OnMember "description" members fun v => v = .null ∨ ∃ text, v = .str text) := by
  unfold decodeDescription
  cases hlookup : lookup "description" members with
  | none => exact .read _ (onMember_of_lookup_eq_none hlookup)
  | some v =>
      rw [onMember_iff_of_lookup keys hlookup]
      simp only [Option.getD_some]
      split
      · exact .read _ (.inl rfl)
      · rename_i text
        exact .read _ (.inr ⟨text, rfl⟩)
      · rename_i hnull htext
        refine .refuse ?_
        rintro (heq | ⟨text, heq⟩)
        · exact hnull heq
        · exact htext text heq

theorem readTextList_decides {v : Value} (hv : v.IsJson) (place : Pointer) :
    (readTextList place v).Decides v.IsTextList := by
  unfold readTextList
  split
  · rename_i names hnames
    exact .read names ⟨names, (textList?_eq_some_iff hv).mp hnames⟩
  · rename_i hnone
    exact .refuse ((textList?_eq_none_iff hv).mp hnone)

theorem decodeDependencyEntries_decides (keys : HasTextKeys members)
    (each : ∀ m ∈ members, m.2.IsJson) (place : Pointer) :
    (decodeDependencyEntries place members).Decides (∀ m ∈ members, m.2.IsTextList) := by
  rw [decodeDependencyEntries_eq_readEntries keys]
  exact (readEntries_decides keys (fun m hm => readTextList_decides (each m hm)) place).map _

theorem decodeDependencies_decides (keys : HasTextKeys members)
    (each : ∀ m ∈ members, m.2.IsJson) (place : Pointer) :
    (decodeDependencies place members).Decides (OnMember "dependencies" members fun v =>
      v = .null ∨ ∃ entries, v = .obj entries ∧ ∀ m ∈ entries, m.2.IsTextList) := by
  unfold decodeDependencies
  cases hlookup : lookup "dependencies" members with
  | none => exact .read _ (onMember_of_lookup_eq_none hlookup)
  | some v =>
      have hv := each _ (mem_of_lookup hlookup)
      rw [onMember_iff_of_lookup keys hlookup]
      simp only [Option.getD_some]
      cases hv with
      | @scalar s hs =>
          cases s with
          | null => exact .read _ (.inl rfl)
          | _ => exact .refuse (by simp)
      | arr => exact .refuse (by simp)
      | @obj entries hkeys heach =>
          have hdecides :=
            decodeDependencyEntries_decides hkeys heach (place.child "dependencies")
          simp only [Value.unlooped]
          cases hr : decodeDependencyEntries (place.child "dependencies") entries with
          | ok dependencies => exact .read _ (.inr ⟨entries, rfl, hdecides.of_ok hr⟩)
          | error e =>
              obtain ⟨spot, wrong, rfl, hnot⟩ := hdecides.of_error hr
              refine .refused spot wrong ?_
              rintro (heq | ⟨others, heq, hall⟩)
              · simp at heq
              · obtain rfl : entries = others := by simpa using heq
                exact hnot hall

/-! ## Nodes -/

theorem IsNode.exists_obj {v : Value} (h : IsNode v) : ∃ members, v = .obj members := by
  cases h <;> exact ⟨_, rfl⟩

theorem exists_node_of_decodeInstance {place : Pointer} {type : TypeName} {p : Property}
    (h : decodeInstance place members type = .ok p) : ∃ n, p = .node n := by
  cases type with
  | null | boolean | string =>
      obtain ⟨_, -, rfl⟩ := Decoded.map_eq_ok_iff.mp h
      exact ⟨_, rfl⟩
  | integer | number =>
      simp only [decodeInstance, decodeNumeric] at h
      split_ifs at h
      obtain ⟨_, -, rfl⟩ := Decoded.map_eq_ok_iff.mp h
      exact ⟨_, rfl⟩
  | array =>
      obtain ⟨_, -, h⟩ := Decoded.bind_eq_ok_iff.mp h
      obtain ⟨_, -, h⟩ := Decoded.bind_eq_ok_iff.mp h
      exact ⟨_, (Except.ok.inj h).symm⟩
  | object =>
      obtain ⟨_, -, h⟩ := Decoded.bind_eq_ok_iff.mp h
      obtain ⟨_, -, h⟩ := Decoded.bind_eq_ok_iff.mp h
      obtain ⟨_, -, h⟩ := Decoded.bind_eq_ok_iff.mp h
      exact ⟨_, (Except.ok.inj h).symm⟩

theorem exists_text_of_decodeReference {place : Pointer} {target : Value} {p : Property}
    (h : decodeReference place target = .ok p) : ∃ text, p = .reference text := by
  unfold decodeReference at h
  split at h
  · split at h
    · exact ⟨_, (Except.ok.inj h).symm⟩
    · simp [refuse] at h
  · simp [refuse] at h

/-- An object is read as a reference exactly if it has a `$ref`. -/
theorem hasKey_ref_iff_of_decodeProperty {place : Pointer} {p : Property}
    (h : decodeProperty place (.obj members) = .ok p) :
    HasKey "$ref" members ↔ ∃ text, p = .reference text := by
  rw [decodeProperty_obj] at h
  cases hlookup : lookup "$ref" members with
  | some target =>
      rw [hlookup] at h
      exact iff_of_true ⟨target, mem_of_lookup hlookup⟩ (exists_text_of_decodeReference h)
  | none =>
      rw [hlookup] at h
      obtain ⟨type, -, h⟩ := Decoded.bind_eq_ok_iff.mp h
      obtain ⟨n, rfl⟩ := exists_node_of_decodeInstance h
      exact iff_of_false (lookup_eq_none_iff.mp hlookup) (by simp)

/-- Reading decides whether the value is a node and whether it is a map of nodes. -/
def DecidesNode (v : Value) : Prop :=
  ∀ place, (decodeProperty place v).Decides (IsNode v) ∧
    (decodePropertyMap place v).Decides (IsNodeMap v)

theorem decodeItems_decides (keys : HasTextKeys members)
    (each : ∀ m ∈ members, DecidesNode m.2) (place : Pointer) :
    (decodeItems place members).Decides (∃ parts, (.str "items", .obj parts) ∈ members ∧
      IsNode (.obj parts) ∧ ¬ HasKey "$ref" parts) := by
  simp only [← lookup_eq_some_iff keys]
  rw [decodeItems_eq_lookup]
  cases hlookup : lookup "items" members with
  | none => exact .refuse (by simp)
  | some v =>
      have hdecides := (each _ (mem_of_lookup hlookup) (place.child "items")).1
      simp only [Option.some_inj]
      refine hdecides.bind ?_ ?_
      · rintro ⟨parts, rfl, hnode, -⟩
        exact hnode
      · intro p hp
        obtain ⟨parts, rfl⟩ := (hdecides.of_ok hp).exists_obj
        have href := hasKey_ref_iff_of_decodeProperty hp
        -- What the items were read as tells whether they had a `$ref`.
        cases p with
        | node n => exact .read n ⟨parts, rfl, hdecides.of_ok hp, by simp [href]⟩
        | reference text =>
            refine .refuse ?_
            rintro ⟨others, hothers, -, hconcrete⟩
            obtain rfl : parts = others := by simpa using hothers
            exact hconcrete (href.mpr ⟨text, rfl⟩)

theorem decodeProperties_decides (keys : HasTextKeys members)
    (each : ∀ m ∈ members, DecidesNode m.2) (place : Pointer) :
    (decodeProperties place members).Decides (OnMember "properties" members IsNodeMap) := by
  rw [decodeProperties_eq_lookup]
  cases hlookup : lookup "properties" members with
  | none => exact .read _ (onMember_of_lookup_eq_none hlookup)
  | some v =>
      rw [onMember_iff_of_lookup keys hlookup]
      exact (each _ (mem_of_lookup hlookup) _).2

theorem decodeInstance_decides {type : TypeName} (keys : HasTextKeys members)
    (json : ∀ m ∈ members, m.2.IsJson) (each : ∀ m ∈ members, DecidesNode m.2)
    (hconcrete : ¬ HasKey "$ref" members)
    (htype : (Scalar.str "type", Value.str type.text) ∈ members) (place : Pointer) :
    (decodeInstance place members type).Decides (IsNode (.obj members)) := by
  have hunsupported := decodeUnsupported_decides json
  cases type with
  | null | boolean | string =>
      have hnode : IsNode (.obj members) := .simple hconcrete htype (by decide)
      exact (decodePlain_decides _ json).congr (iff_of_true trivial hnode)
  | integer | number =>
      have hnode : IsNode (.obj members) := .simple hconcrete htype (by decide)
      exact (decodeNumeric_decides _ json).congr (iff_of_true trivial hnode)
  | array =>
      rw [isNode_array_iff keys hconcrete htype]
      refine (decodeItems_decides keys each place).bind id fun items hitems => ?_
      have hparts := (decodeItems_decides keys each place).of_ok hitems
      exact hunsupported.bind (fun _ => trivial) fun unsupported _ => .read _ hparts
  | object =>
      rw [isNode_object_iff keys hconcrete htype]
      refine (decodeProperties_decides keys each place).bind_and fun properties _ => ?_
      have hrequired := decodeRequired_decides keys json place
      refine hrequired.bind id fun required hread => ?_
      exact hunsupported.bind (fun _ => trivial) fun unsupported _ =>
        .read _ (hrequired.of_ok hread)

theorem decodeProperty_obj_decides (keys : HasTextKeys members)
    (json : ∀ m ∈ members, m.2.IsJson) (each : ∀ m ∈ members, DecidesNode m.2)
    (place : Pointer) :
    (decodeProperty place (.obj members)).Decides (IsNode (.obj members)) := by
  rw [decodeProperty_obj]
  cases hlookup : lookup "$ref" members with
  | some target =>
      exact (decodeReference_decides place target).congr
        (isNode_iff_of_ref keys (mem_of_lookup hlookup)).symm
  | none =>
      -- Every form without a `$ref` names a type, so refusing the type refuses the node.
      have hconcrete := lookup_eq_none_iff.mp hlookup
      refine (decodeType_decides keys place).bind (IsNode.exists_type hconcrete) ?_
      intro type htype
      exact decodeInstance_decides keys json each hconcrete (mem_of_decodeType htype) place

end Parts

theorem decidesNode_of_isJson {v : Value} (hv : v.IsJson) : DecidesNode v := by
  induction hv with
  | @scalar s hs =>
      intro place
      refine ⟨.refuse (by rintro ⟨⟩), ?_⟩
      cases s with
      | null => exact .read _ .null
      | _ => exact .refuse (by rintro ⟨⟩)
  | arr => exact fun place => ⟨.refuse (by rintro ⟨⟩), .refuse (by rintro ⟨⟩)⟩
  | obj keys json ih =>
      intro place
      refine ⟨decodeProperty_obj_decides keys json ih place, ?_⟩
      rw [decodePropertyMap, decodeEntries_eq_readEntries, isNodeMap_obj_iff]
      exact readEntries_decides keys (fun m hm spot => (ih m hm spot).1) place

/-! ## Definitions -/

theorem IsDefinition.exists_obj {v : Value} (h : IsDefinition v) :
    ∃ members, v = .obj members := by
  cases h
  exact ⟨_, rfl⟩

def DecidesDefinition (v : Value) : Prop :=
  ∀ place, (decodeDefinition place v).Decides (IsDefinition v) ∧
    (decodeDefinitionMap place v).Decides (IsDefinitionMap v)

section Definitions

variable {members : Members}

theorem isDefinition_obj_iff :
    IsDefinition (.obj members) ↔ OnMember "$id" members Value.IsIdentifier ∧
      (OnMember "$schema" members fun v =>
        v = .null ∨ ∃ text, v = .str text ∧ Uri.isAbsolute text) ∧
      (OnMember "description" members fun v => v = .null ∨ ∃ text, v = .str text) ∧
      (HasKey "$ref" members ∨ HasKey "type" members → IsNode (.obj members)) ∧
      (OnMember "dependencies" members fun v =>
        v = .null ∨ ∃ entries, v = .obj entries ∧ ∀ m ∈ entries, m.2.IsTextList) ∧
      OnMember "definitions" members IsDefinitionMap := by
  constructor
  · intro h
    cases h with
    | obj hid hdialect hdescription hspecification hdependencies hdefinitions =>
        exact ⟨hid, hdialect, hdescription, hspecification, hdependencies, hdefinitions⟩
  · rintro ⟨hid, hdialect, hdescription, hspecification, hdependencies, hdefinitions⟩
    exact .obj hid hdialect hdescription hspecification hdependencies hdefinitions

theorem decodeSpecification_decides (keys : HasTextKeys members)
    (json : ∀ m ∈ members, m.2.IsJson) (place : Pointer) :
    (decodeSpecification place members).Decides
      (HasKey "$ref" members ∨ HasKey "type" members → IsNode (.obj members)) := by
  have hgiven : (hasMember "$ref" members || hasMember "type" members) = true ↔
      HasKey "$ref" members ∨ HasKey "type" members := by
    rw [Bool.or_eq_true, hasMember_iff, hasMember_iff]
  unfold decodeSpecification
  rw [← hgiven]
  split_ifs with hspecified
  · have hnode := (decidesNode_of_isJson (.obj keys json) place).1
    exact (hnode.map some).congr (imp_iff_right hspecified).symm
  · exact .read _ fun h => absurd h hspecified

theorem decodeDefinitions_decides (keys : HasTextKeys members)
    (each : ∀ m ∈ members, DecidesDefinition m.2) (place : Pointer) :
    (decodeDefinitions place members).Decides
      (OnMember "definitions" members IsDefinitionMap) := by
  rw [decodeDefinitions_eq_lookup]
  cases hlookup : lookup "definitions" members with
  | none => exact .read _ (onMember_of_lookup_eq_none hlookup)
  | some v =>
      rw [onMember_iff_of_lookup keys hlookup]
      exact (each _ (mem_of_lookup hlookup) _).2

theorem decodeDefinition_obj_decides (keys : HasTextKeys members)
    (json : ∀ m ∈ members, m.2.IsJson) (each : ∀ m ∈ members, DecidesDefinition m.2)
    (place : Pointer) :
    (decodeDefinition place (.obj members)).Decides (IsDefinition (.obj members)) := by
  rw [isDefinition_obj_iff, decodeDefinition]
  refine (decodeId_decides keys place).bind_and fun id _ => ?_
  refine (decodeDialect_decides keys place).bind_and fun dialect _ => ?_
  refine (decodeDescription_decides keys place).bind_and fun description _ => ?_
  refine (decodeSpecification_decides keys json place).bind_and fun specification _ => ?_
  refine (decodeDependencies_decides keys json place).bind_and fun dependencies _ => ?_
  have hdefinitions := decodeDefinitions_decides keys each place
  exact hdefinitions.bind (fun h => h) fun definitions hread => .read _ (hdefinitions.of_ok hread)

end Definitions

theorem decidesDefinition_of_isJson {v : Value} (hv : v.IsJson) : DecidesDefinition v := by
  induction hv with
  | @scalar s hs =>
      intro place
      refine ⟨.refuse (by rintro ⟨⟩), ?_⟩
      cases s with
      | null => exact .read _ .null
      | _ => exact .refuse (by rintro ⟨⟩)
  | arr => exact fun place => ⟨.refuse (by rintro ⟨⟩), .refuse (by rintro ⟨⟩)⟩
  | obj keys json ih =>
      intro place
      refine ⟨decodeDefinition_obj_decides keys json ih place, ?_⟩
      rw [decodeDefinitionMap, decodeDefinitionEntries_eq_readEntries, isDefinitionMap_obj_iff]
      exact (readEntries_decides keys (fun m hm spot => (ih m hm spot).1) place).map some

/-! ## Schemas -/

theorem exists_decode_of_isSchema {v : Value} (hv : v.IsJson) (h : IsSchema v) :
    ∃ s, Schema.decode v = .ok s := by
  rcases h with ⟨b, rfl⟩ | hdefinition
  · exact ⟨.boolean b, rfl⟩
  · have hdecides := (decidesDefinition_of_isJson hv .root).1
    obtain ⟨members, rfl⟩ := hdefinition.exists_obj
    cases hread : decodeDefinition .root (.obj members) with
    | ok d => exact ⟨.definition d, by simp [Schema.decode, Value.unlooped, hread]⟩
    | error e =>
        obtain ⟨_, _, _, hnot⟩ := hdecides.of_error hread
        exact absurd hdefinition hnot

theorem exists_refusal_of_not_isSchema {v : Value} (hv : v.IsJson) (h : ¬ IsSchema v) :
    ∃ e, Schema.decode v = .error e ∧ e.IsRefusal := by
  have hdecides := (decidesDefinition_of_isJson hv .root).1
  cases hv with
  | @scalar s hs =>
      cases s with
      | bool b => exact absurd (.inl ⟨b, rfl⟩) h
      | _ => exact ⟨_, rfl, .badRoot _⟩
  | arr => exact ⟨_, rfl, .badRoot _⟩
  | @obj members =>
      cases hread : decodeDefinition .root (.obj members) with
      | ok d => exact absurd (.inr (hdecides.of_ok hread)) h
      | error e =>
          obtain ⟨place, wrong, rfl, -⟩ := hdecides.of_error hread
          refine ⟨.complaint place wrong, ?_, .complaint place wrong⟩
          simp [Schema.decode, Value.unlooped, hread, DecodeError.toSchemaError]

/-- A JSON value is read as a schema exactly if it is one by the grammar, and is refused
in words otherwise. -/
theorem decode_decides_isSchema {v : Value} (hv : v.IsJson) :
    ((∃ s, Schema.decode v = .ok s) ↔ IsSchema v) ∧
      (¬ IsSchema v → ∃ e, Schema.decode v = .error e ∧ e.IsRefusal) := by
  refine ⟨⟨?_, exists_decode_of_isSchema hv⟩, exists_refusal_of_not_isSchema hv⟩
  rintro ⟨s, hs⟩
  by_contra hnot
  obtain ⟨e, he, -⟩ := exists_refusal_of_not_isSchema hv hnot
  rw [hs] at he
  cases he

/-- A malformed type does not matter beside a `$ref`, but items must not be a reference. -/
theorem type_beside_reference_accepted_reference_items_refused :
    (Value.obj [(.str "$ref", .str "#/definitions/a"), (.str "type", .int 3),
        (.str "definitions", .null)]).IsJson ∧
      IsSchema (.obj [(.str "$ref", .str "#/definitions/a"), (.str "type", .int 3),
        (.str "definitions", .null)]) ∧
      (Value.obj [(.str "type", .str "array"),
        (.str "items", .obj [(.str "$ref", .str "#/definitions/a")])]).IsJson ∧
      ¬ IsSchema (.obj [(.str "type", .str "array"),
        (.str "items", .obj [(.str "$ref", .str "#/definitions/a")])]) := by
  have haccepted : (Value.obj [(.str "$ref", .str "#/definitions/a"), (.str "type", .int 3),
      (.str "definitions", .null)]).IsJson := by
    simp [Scalar.IsJson]
  have hrefused : (Value.obj [(.str "type", .str "array"),
      (.str "items", .obj [(.str "$ref", .str "#/definitions/a")])]).IsJson := by
    simp [Scalar.IsJson]
  refine ⟨haccepted, (decode_decides_isSchema haccepted).1.mp ⟨_, rfl⟩, hrefused, ?_⟩
  intro h
  obtain ⟨s, hs⟩ := (decode_decides_isSchema hrefused).1.mpr h
  cases hs

end StructuralSchema
