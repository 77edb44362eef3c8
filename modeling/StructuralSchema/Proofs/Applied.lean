import StructuralSchema.Proofs.SourceWalk
import StructuralSchema.Proofs.Visits

/-!
# Keywords of the objects that apply

Validation applies objects of the document to parts of the value. Where the object names a type, a
node was read from it; the check comes to that node and notes its unsupported keywords.
-/

namespace StructuralSchema.Validation

open Reference (Designates LeadsTo)

/-- The object of the document is applied to the part when the value is validated, chains of
references being followed up to the limit. -/
inductive Applies (document : Value) (limit : Int) (v : Value) : Members → Value → Prop
  | root {members : Members} (h : document = .obj members) : Applies document limit v members v
  | property {members entries inner parts : Members} (name : String) {w : Value}
      (h : Applies document limit v members (.obj parts)) (htype : IsOfType members .object)
      (hproperties : lookup "properties" members = some (.obj entries))
      (hentry : lookup name entries = some (.obj inner)) (hpresent : lookup name parts = some w) :
      Applies document limit v inner w
  | items {members inner : Members} {elements : List Value} {w : Value}
      (h : Applies document limit v members (.arr elements)) (htype : IsOfType members .array)
      (hitems : lookup "items" members = some (.obj inner)) (hw : w ∈ elements) :
      Applies document limit v inner w
  | reference {members target : Members} {reference : String} {length : ℕ} {w : Value}
      (h : Applies document limit v members w)
      (href : lookup "$ref" members = some (.str reference))
      (hleads : LeadsTo document length reference target) (hlimit : length ≤ limit) :
      Applies document limit v target w

section Comes

variable {document : Value} {d : Definition} {limit : Int} {v w : Value} {members : Members}

theorem self_mem_nodeVisits (s : Schema) (limit : Int) (n : Node) (site : String) (v : Value) :
    ⟨n, site⟩ ∈ nodeVisits s limit n site v := by
  induction v using Value.partsInduction with
  | loop number v ih => simpa only [nodeVisits] using ih
  | _ => simp [nodeVisits]

/-- The check of the value comes to the part with what was read from the object. -/
def ComesWith (d : Definition) (limit : Int) (v : Value) (members : Members) (w : Value) : Prop :=
  ∃ place p site, decodeProperty place (.obj members) = .ok p ∧
    propertyVisits (.definition d) limit p site w ⊆ visits (.definition d) limit v

theorem comesWith_property {entries inner parts : Members} {name : String}
    (h : ComesWith d limit v members (.obj parts)) (htype : IsOfType members .object)
    (hproperties : lookup "properties" members = some (.obj entries))
    (hentry : lookup name entries = some (.obj inner)) (hpresent : lookup name parts = some w) :
    ComesWith d limit v inner w := by
  obtain ⟨place, p, site, hp, hsub⟩ := h
  have hobject := decodeInstance_of_decodeProperty hp htype.1 htype.2
  obtain ⟨properties, required, unsupported, hread, -, -, rfl⟩ := exists_of_decodeObject hobject
  rw [decodeProperties_eq_lookup, hproperties] at hread
  simp only [decodePropertyMap, decodeEntries_eq_readEntries] at hread
  obtain ⟨q, hlookup, hq⟩ := Reference.lookup_of_readEntries hread hentry
  refine ⟨_, q, site ++ "/properties/" ++ Pointer.escape name, hq, fun visit hvisit => hsub ?_⟩
  have hmember : visit ∈ memberVisits (.definition d) limit name q site parts := by
    rw [memberVisits_eq_lookup, hpresent]
    exact hvisit
  simp only [propertyVisits, nodeVisits]
  apply List.mem_append_left
  exact List.mem_flatMap.mpr ⟨(name, q), mem_of_lookup_eq_some hlookup, hmember⟩

theorem comesWith_items {inner : Members} {elements : List Value}
    (h : ComesWith d limit v members (.arr elements)) (htype : IsOfType members .array)
    (hitems : lookup "items" members = some (.obj inner)) (hw : w ∈ elements) :
    ComesWith d limit v inner w := by
  obtain ⟨place, p, site, hp, hsub⟩ := h
  obtain ⟨items, unsupported, rfl, hread⟩ := Reference.exists_array_of_isOfType htype hitems hp
  refine ⟨_, .node items, site ++ "/items", hread, fun visit hvisit => hsub ?_⟩
  simp only [propertyVisits, nodeVisits, elementVisits_eq_flatMap]
  apply List.mem_append_left
  exact List.mem_flatMap.mpr ⟨w, hw, hvisit⟩

theorem comesWith_reference {reference : String} {target : Members} {length : ℕ}
    (hdocument : document.IsJson) (hd : Schema.decode document = .ok (.definition d))
    (h : ComesWith d limit v members w) (href : lookup "$ref" members = some (.str reference))
    (hleads : LeadsTo document length reference target) (hlimit : length ≤ limit) :
    IsTyped target → ComesWith d limit v target w := by
  intro htyped
  obtain ⟨place, p, site, hp, hsub⟩ := h
  obtain rfl := Reference.eq_reference_of_ref hp href
  rcases Reference.ends_of_leadsTo hdocument hd hleads with ⟨spot, n, hn, hends⟩ | ⟨huntyped, -⟩
  · refine ⟨spot, .node n, reference, hn, fun visit hvisit => hsub ?_⟩
    simp only [propertyVisits, hends.dereference_eq hlimit]
    exact hvisit
  · exact absurd htyped huntyped

theorem comesWith_of_applies (hdocument : document.IsJson)
    (hd : Schema.decode document = .ok (.definition d)) (h : Applies document limit v members w)
    (htyped : IsTyped members) : ComesWith d limit v members w := by
  induction h with
  | root h =>
      subst h
      have hdefinition := decodeDefinition_of_decode hdocument hd
      have hread := (readFrom_of_decodeDefinition hdefinition).specification
      unfold decodeSpecification at hread
      rw [if_pos (isTyped_iff.mp htyped)] at hread
      obtain ⟨p, hp, hspecification⟩ := Decoded.map_eq_ok_iff.mp hread
      refine ⟨.root, p, "#", hp, ?_⟩
      simp [visits, Schema.rootNode?, Schema.definition?, ← hspecification]
  | property _ _ htype hproperties hentry hpresent ih =>
      have hparent := ih (.inr ⟨_, mem_of_lookup htype.2⟩)
      exact comesWith_property hparent htype hproperties hentry hpresent
  | items _ htype hitems hw ih =>
      have hparent := ih (.inr ⟨_, mem_of_lookup htype.2⟩)
      exact comesWith_items hparent htype hitems hw
  | reference _ href hleads hlimit ih =>
      have hparent := ih (.inl ⟨_, mem_of_lookup href⟩)
      exact comesWith_reference hdocument hd hparent href hleads hlimit htyped

theorem decodeUnsupported_of_decodeProperty {place : Pointer} {n : Node}
    (h : decodeProperty place (.obj members) = .ok (.node n)) :
    decodeUnsupported members = .ok n.unsupported := by
  obtain ⟨-, -, hinstance⟩ := concrete_of_decodeProperty h
  cases htype : n.typeName with
  | null | boolean | string =>
      rw [htype] at hinstance
      obtain ⟨unsupported, hread, heq⟩ := Decoded.map_eq_ok_iff.mp hinstance
      obtain rfl := Property.node.inj heq
      exact hread
  | integer | number =>
      rw [htype] at hinstance
      obtain ⟨unsupported, hread, heq⟩ := exists_of_decodeNumeric hinstance
      obtain rfl := Property.node.inj heq
      exact hread
  | array =>
      rw [htype] at hinstance
      obtain ⟨items, unsupported, -, hread, heq⟩ := exists_of_decodeArray hinstance
      obtain rfl := Property.node.inj heq
      exact hread
  | object =>
      rw [htype] at hinstance
      obtain ⟨properties, required, unsupported, -, -, hread, heq⟩ :=
        exists_of_decodeObject hinstance
      obtain rfl := Property.node.inj heq
      exact hread

theorem mem_notices_of_mem_visits {s : Schema} {visit : Visit} {k : Keyword}
    (hvisit : visit ∈ visits s limit v) (hk : k ∈ visit.node.unsupported.map Prod.fst) :
    ⟨visit.site, k⟩ ∈ (validate s ⟨limit, .report⟩ v).notices := by
  obtain ⟨entry, hentry, rfl⟩ := List.mem_map.mp hk
  rw [notices_validate, List.mem_eraseDups]
  refine List.mem_flatMap.mpr ⟨visit, hvisit, ?_⟩
  exact List.mem_map.mpr ⟨entry, hentry, rfl⟩

/-- Of every object that applies, has no `$ref` and names a type, each unsupported keyword is
noted. -/
theorem applied_keyword_noted (hdocument : document.IsJson)
    (hd : Schema.decode document = .ok (.definition d)) (h : Applies document limit v members w)
    (hconcrete : ¬ HasKey "$ref" members) (htype : HasKey "type" members) {k : Keyword}
    (hk : HasKey k.text members) :
    ∃ notice ∈ (validate (.definition d) ⟨limit, .report⟩ v).notices, notice.keyword = k := by
  obtain ⟨place, p, site, hp, hsub⟩ := comesWith_of_applies hdocument hd h (.inr htype)
  obtain ⟨n, rfl⟩ := Reference.exists_node_of_concrete hp (lookup_eq_none_iff.mpr hconcrete)
  have hvisit : ⟨n, site⟩ ∈ visits (.definition d) limit v :=
    hsub (self_mem_nodeVisits _ _ n site w)
  have hkeyword : k ∈ n.unsupported.map Prod.fst :=
    (mem_keywords_iff_of_decodeUnsupported (decodeUnsupported_of_decodeProperty hp) k).mpr hk
  exact ⟨⟨site, k⟩, mem_notices_of_mem_visits hvisit hkeyword, rfl⟩

end Comes

def paletteMembers : Members :=
  [(.str "type", .str "object"),
    (.str "properties", .obj [
      (.str "rows", .obj [
        (.str "type", .str "array"),
        (.str "items", .obj [
          (.str "type", .str "object"),
          (.str "properties", .obj [
            (.str "main", .obj [(.str "$ref", .str "#/definitions/shade")])])])])]),
    (.str "definitions", .obj [
      (.str "shade", .obj [(.str "$ref", .str "#/definitions/color")]),
      (.str "color", .obj [(.str "type", .str "string"), (.str "pattern", .str "^#")])])]

def paletteInstance : Value :=
  .obj [(.str "rows", .arr [.obj [(.str "main", .int 5)]])]

theorem paletteMembers_applies :
    Applies (.obj paletteMembers) 2 paletteInstance
      [(.str "type", .str "string"), (.str "pattern", .str "^#")] (.int 5) := by
  have hshade : Designates (.obj paletteMembers) "#/definitions/shade"
      [(.str "$ref", .str "#/definitions/color")] :=
    ⟨_, ["definitions", "shade"], _, rfl, by rfl,
      .cons (.definitions rfl) (.cons (.entry rfl) (.nil _)), rfl⟩
  have hcolor : Designates (.obj paletteMembers) "#/definitions/color"
      [(.str "type", .str "string"), (.str "pattern", .str "^#")] :=
    ⟨_, ["definitions", "color"], _, rfl, by rfl,
      .cons (.definitions rfl) (.cons (.entry rfl) (.nil _)), rfl⟩
  have hleads := LeadsTo.hop hshade rfl (.ends hcolor rfl)
  have hroot : Applies (.obj paletteMembers) 2 paletteInstance paletteMembers paletteInstance :=
    .root rfl
  have hrows := hroot.property "rows" ⟨rfl, rfl⟩ rfl rfl rfl
  have hrow := hrows.items ⟨rfl, rfl⟩ rfl List.mem_cons_self
  have hmain := hrow.property "main" ⟨rfl, rfl⟩ rfl rfl rfl
  exact hmain.reference rfl hleads (by decide)

theorem paletteMembers_pattern_noted :
    (Value.obj paletteMembers).IsJson ∧ ∃ d,
      Schema.decode (.obj paletteMembers) = .ok (.definition d) ∧
        (∃ notice ∈ (validate (.definition d) ⟨2, .report⟩ paletteInstance).notices,
          notice.keyword = .pattern) ∧
        (validate (.definition d) ⟨1, .report⟩ paletteInstance).notices = [] := by
  have hdocument : (Value.obj paletteMembers).IsJson := by
    simp [paletteMembers, Scalar.IsJson]
  have hconcrete : ¬ HasKey "$ref" [(.str "type", .str "string"), (.str "pattern", .str "^#")] := by
    simp [HasKey]
  obtain ⟨d, hd, hnone⟩ : ∃ d, Schema.decode (.obj paletteMembers) = .ok (.definition d) ∧
      (validate (.definition d) ⟨1, .report⟩ paletteInstance).notices = [] :=
    ⟨_, rfl, by rfl⟩
  have hnoted := applied_keyword_noted hdocument hd paletteMembers_applies hconcrete
    ⟨_, List.mem_cons_self⟩ (k := .pattern) ⟨_, List.mem_cons_of_mem _ List.mem_cons_self⟩
  exact ⟨hdocument, d, hd, hnoted, hnone⟩

def untypedColorMembers : Members :=
  [(.str "type", .str "object"),
    (.str "properties", .obj [(.str "color", .obj [(.str "$ref", .str "#/definitions/color")])]),
    (.str "definitions", .obj [(.str "color", .obj [(.str "enum", .arr [.str "red"])])])]

/-- Nothing is read from an object without a type, so its keywords are lost: here that of a
definition, and that of a whole document. -/
theorem untyped_keyword_unnoted :
    (∃ d, Schema.decode (.obj untypedColorMembers) = .ok (.definition d) ∧
        Applies (.obj untypedColorMembers) 32 (.obj [(.str "color", .str "blue")])
          [(.str "enum", .arr [.str "red"])] (.str "blue") ∧
        (validate (.definition d) ⟨32, .report⟩ (.obj [(.str "color", .str "blue")])).notices =
          []) ∧
      (∃ d, Schema.decode (.obj [(.str "enum", .arr [.str "red"])]) = .ok (.definition d) ∧
        Applies (.obj [(.str "enum", .arr [.str "red"])]) 32 (.str "blue")
          [(.str "enum", .arr [.str "red"])] (.str "blue") ∧
        (validate (.definition d) ⟨32, .report⟩ (.str "blue")).notices = []) ∧
      ¬ HasKey "$ref" [(.str "enum", .arr [.str "red"])] ∧
      HasKey Keyword.enum.text [(.str "enum", .arr [.str "red"])] := by
  have hcolor : Designates (.obj untypedColorMembers) "#/definitions/color"
      [(.str "enum", .arr [.str "red"])] :=
    ⟨_, ["definitions", "color"], _, rfl, by rfl,
      .cons (.definitions rfl) (.cons (.entry rfl) (.nil _)), rfl⟩
  have hroot : Applies (.obj untypedColorMembers) 32 (.obj [(.str "color", .str "blue")])
      untypedColorMembers (.obj [(.str "color", .str "blue")]) := .root rfl
  have hproperty := hroot.property "color" ⟨rfl, rfl⟩ rfl rfl rfl
  have happlies := hproperty.reference rfl (.ends hcolor rfl) (by decide)
  refine ⟨⟨_, rfl, happlies, by rfl⟩, ⟨_, rfl, .root rfl, by decide +kernel⟩, ?_, ?_⟩
  · simp [HasKey]
  · exact ⟨_, List.mem_cons_self⟩

end StructuralSchema.Validation
