import StructuralSchema.Proofs.Acceptance
import StructuralSchema.Proofs.PointerText

/-!
# What complaints are about

A complaint about a schema comes with a place. The place leads through definitions, properties
and items to the part of the document that is read, and from there by at most one keyword, or
by the name of a dependency, to the value that breaks the rule of the complaint. The value is
there in every case but that of a type that is not given.
-/

namespace StructuralSchema

variable {α β : Type}

def Complaint.IsBrokenBy (v : Value) : Complaint → Prop
  | .idNotText found | .referenceNotText found => (∀ text, v ≠ .str text) ∧ found = v.typeName
  | .dialectNotText found => v ≠ .null ∧ (∀ text, v ≠ .str text) ∧ found = v.typeName
  | .dialectNotUrl text => v = .str text ∧ ¬ Uri.isAbsolute text
  | .descriptionNotText => v ≠ .null ∧ ∀ text, v ≠ .str text
  | .badIdentifier text => v = .str text ∧ SchemaId.ofText? text = none
  | .notSchemaObject found => (∀ members, v ≠ .obj members) ∧ found = v.typeName
  | .unknownType found => found = v ∧ ∀ type : TypeName, v ≠ .str type.text
  | .arrayWithoutItems => ∃ members, v = .obj members ∧
      lookup "type" members = some (.str TypeName.array.text) ∧ ¬ HasKey "items" members
  | .itemsNotConcrete => ∃ members, v = .obj members ∧ HasKey "$ref" members
  | .notObject => v ≠ .null ∧ ∀ members, v ≠ .obj members
  | .notTextList => ¬ v.IsTextList

/-- The tokens lead from a part that is read to what the complaint is about: they are none, a
keyword, or the name of a dependency. -/
def Complaint.IsAbout (tokens : List String) : Complaint → Prop
  | .idNotText _ => tokens = ["$id"]
  | .dialectNotText _ | .dialectNotUrl _ => tokens = ["$schema"]
  | .descriptionNotText => tokens = ["description"]
  | .badIdentifier _ => tokens = ["$id"] ∨ tokens = ["$ref"]
  | .referenceNotText _ => tokens = ["$ref"]
  | .notSchemaObject _ | .arrayWithoutItems => tokens = []
  | .unknownType _ => tokens = ["type"]
  | .itemsNotConcrete => tokens = ["items"]
  | .notObject => tokens = ["definitions"] ∨ tokens = ["properties"] ∨ tokens = ["dependencies"]
  | .notTextList => tokens = ["required"] ∨ ∃ name, tokens = ["dependencies", name]

namespace Value

/-- A node is expected where the path leads to within the value, and the spot is what stands
there. -/
inductive HasNodeAt : Value → List String → Value → Prop
  | here {spot : Value} : HasNodeAt spot [] spot
  | items {outer : List (Scalar × Value)} {v spot : Value} {path : List String}
      (hconcrete : lookup "$ref" outer = none)
      (htype : lookup "type" outer = some (.str TypeName.array.text))
      (hitems : lookup "items" outer = some v) (h : HasNodeAt v path spot) :
      HasNodeAt (.obj outer) ("items" :: path) spot
  | property {outer entries : List (Scalar × Value)} {name : String} {v spot : Value}
      {path : List String} (hconcrete : lookup "$ref" outer = none)
      (htype : lookup "type" outer = some (.str TypeName.object.text))
      (hproperties : lookup "properties" outer = some (.obj entries))
      (hentry : lookup name entries = some v) (h : HasNodeAt v path spot) :
      HasNodeAt (.obj outer) ("properties" :: name :: path) spot

/-- A definition or a node is expected where the path leads to within the value, and the spot
is what stands there. -/
inductive HasSchemaAt : Value → List String → Value → Prop
  | here {spot : Value} : HasSchemaAt spot [] spot
  | specification {outer : List (Scalar × Value)} {spot : Value} {path : List String}
      (hgiven : hasMember "$ref" outer || hasMember "type" outer)
      (h : HasNodeAt (.obj outer) path spot) : HasSchemaAt (.obj outer) path spot
  | definition {outer entries : List (Scalar × Value)} {name : String} {v spot : Value}
      {path : List String} (hdefinitions : lookup "definitions" outer = some (.obj entries))
      (hentry : lookup name entries = some v) (h : HasSchemaAt v path spot) :
      HasSchemaAt (.obj outer) ("definitions" :: name :: path) spot

/-- What the tokens lead to from the value breaks the rule of the complaint, or is a type that
is not given. -/
inductive HasFault : Value → List String → Complaint → Prop
  | present {spot v : Value} {tokens : List String} {wrong : Complaint}
      (habout : wrong.IsAbout tokens) (hv : spot.descend? tokens = some v)
      (hbroken : wrong.IsBrokenBy v) : HasFault spot tokens wrong
  | untyped {members : List (Scalar × Value)} (h : ¬ HasKey "type" members) :
      HasFault (.obj members) ["type"] (.unknownType .null)

def HasListFault (v : Value) (tokens : List String) (wrong : Complaint) : Prop :=
  tokens = [] ∧ wrong = .notTextList ∧ ¬ v.IsTextList

def HasNodeFault (v : Value) (tokens : List String) (wrong : Complaint) : Prop :=
  ∃ path rest spot, tokens = path ++ rest ∧ v.HasNodeAt path spot ∧ spot.HasFault rest wrong

def HasSchemaFault (v : Value) (tokens : List String) (wrong : Complaint) : Prop :=
  ∃ path rest spot, tokens = path ++ rest ∧ v.HasSchemaAt path spot ∧ spot.HasFault rest wrong

/-- The value is no map, or one of its entries has the fault. -/
inductive HasMapFault (fault : Value → List String → Complaint → Prop) :
    Value → List String → Complaint → Prop
  | notObject {v : Value} (h : Complaint.notObject.IsBrokenBy v) : HasMapFault fault v [] .notObject
  | entry {entries : List (Scalar × Value)} {name : String} {v : Value} {tokens : List String}
      {wrong : Complaint} (hentry : lookup name entries = some v) (h : fault v tokens wrong) :
      HasMapFault fault (.obj entries) (name :: tokens) wrong

theorem descend?_of_hasNodeAt {v spot : Value} {path : List String} (h : v.HasNodeAt path spot) :
    v.descend? path = some spot := by
  induction h with
  | here => rfl
  | items _ _ hitems _ ih => simpa [descend?, part?, hitems] using ih
  | property _ _ hproperties hentry _ ih =>
      simpa [descend?, part?, hproperties, hentry] using ih

theorem descend?_of_hasSchemaAt {v spot : Value} {path : List String}
    (h : v.HasSchemaAt path spot) : v.descend? path = some spot := by
  induction h with
  | here => rfl
  | specification _ hnode => exact descend?_of_hasNodeAt hnode
  | definition hdefinitions hentry _ ih =>
      simpa [descend?, part?, hdefinitions, hentry] using ih

theorem hasFault_of_lookup {members : Members} {keyword : String} {v : Value} {wrong : Complaint}
    (hlookup : lookup keyword members = some v) (habout : wrong.IsAbout [keyword])
    (hbroken : wrong.IsBrokenBy v) : (Value.obj members).HasFault [keyword] wrong := by
  refine .present habout ?_ hbroken
  rw [descend?_singleton]
  exact hlookup

theorem HasFault.node {spot : Value} {tokens : List String} {wrong : Complaint}
    (h : spot.HasFault tokens wrong) : spot.HasNodeFault tokens wrong :=
  ⟨[], tokens, spot, rfl, .here, h⟩

theorem HasFault.schema {spot : Value} {tokens : List String} {wrong : Complaint}
    (h : spot.HasFault tokens wrong) : spot.HasSchemaFault tokens wrong :=
  ⟨[], tokens, spot, rfl, .here, h⟩

theorem HasMapFault.dependencies {members : Members} {v : Value} {tokens : List String}
    {wrong : Complaint} (hdependencies : lookup "dependencies" members = some v)
    (h : HasMapFault HasListFault v tokens wrong) :
    (Value.obj members).HasFault ("dependencies" :: tokens) wrong := by
  cases h with
  | notObject h => exact hasFault_of_lookup hdependencies (Or.inr (Or.inr rfl)) h
  | @entry _ name w _ _ hentry h =>
      obtain ⟨rfl, rfl, hbroken⟩ := h
      refine .present (v := w) (Or.inr ⟨name, rfl⟩) ?_ hbroken
      simp [descend?, part?, hdependencies, hentry]

theorem HasNodeFault.schema {members : Members} {tokens : List String} {wrong : Complaint}
    (hgiven : hasMember "$ref" members || hasMember "type" members)
    (h : (Value.obj members).HasNodeFault tokens wrong) :
    (Value.obj members).HasSchemaFault tokens wrong := by
  obtain ⟨path, rest, spot, htokens, hspot, hfault⟩ := h
  exact ⟨path, rest, spot, htokens, .specification hgiven hspot, hfault⟩

theorem HasNodeFault.items {members : Members} {v : Value} {tokens : List String}
    {wrong : Complaint} (hconcrete : lookup "$ref" members = none)
    (htype : lookup "type" members = some (.str TypeName.array.text))
    (hitems : lookup "items" members = some v) (h : v.HasNodeFault tokens wrong) :
    (Value.obj members).HasNodeFault ("items" :: tokens) wrong := by
  obtain ⟨path, rest, spot, rfl, hspot, hfault⟩ := h
  exact ⟨"items" :: path, rest, spot, rfl, .items hconcrete htype hitems hspot, hfault⟩

theorem HasMapFault.properties {members : Members} {v : Value} {tokens : List String}
    {wrong : Complaint} (hconcrete : lookup "$ref" members = none)
    (htype : lookup "type" members = some (.str TypeName.object.text))
    (hproperties : lookup "properties" members = some v)
    (h : HasMapFault HasNodeFault v tokens wrong) :
    (Value.obj members).HasNodeFault ("properties" :: tokens) wrong := by
  cases h with
  | notObject h =>
      have hfault : (Value.obj members).HasFault ["properties"] .notObject :=
        hasFault_of_lookup hproperties (Or.inr (Or.inl rfl)) h
      exact hfault.node
  | entry hentry h =>
      obtain ⟨path, rest, spot, rfl, hspot, hfault⟩ := h
      exact ⟨_, rest, spot, rfl, .property hconcrete htype hproperties hentry hspot, hfault⟩

theorem HasMapFault.definitions {members : Members} {v : Value} {tokens : List String}
    {wrong : Complaint} (hdefinitions : lookup "definitions" members = some v)
    (h : HasMapFault HasSchemaFault v tokens wrong) :
    (Value.obj members).HasSchemaFault ("definitions" :: tokens) wrong := by
  cases h with
  | notObject h =>
      have hfault : (Value.obj members).HasFault ["definitions"] .notObject :=
        hasFault_of_lookup hdefinitions (Or.inl rfl) h
      exact hfault.schema
  | entry hentry h =>
      obtain ⟨path, rest, spot, rfl, hspot, hfault⟩ := h
      exact ⟨_, rest, spot, rfl, .definition hdefinitions hentry hspot, hfault⟩

end Value

/-! ## Results that blame a part -/

/-- The result is there, or it is a complaint about what the tokens of a fault lead to from the
place. -/
inductive Decoded.Blames (place : Pointer) (fault : List String → Complaint → Prop) :
    Decoded α → Prop
  | read (a : α) : Blames place fault (.ok a)
  | refused {tokens : List String} {wrong : Complaint} (h : fault tokens wrong) :
      Blames place fault (.error (.complaint ⟨place.tokens ++ tokens⟩ wrong))

namespace Decoded.Blames

variable {place : Pointer} {fault deeper : List String → Complaint → Prop} {r : Decoded α}

theorem refuse_here {wrong : Complaint} (h : fault [] wrong) :
    (refuse place wrong : Decoded α).Blames place fault := by
  have hrefused : Blames place fault
      (.error (.complaint ⟨place.tokens ++ []⟩ wrong) : Decoded α) := .refused h
  rwa [List.append_nil] at hrefused

theorem refuse_child {keyword : String} {wrong : Complaint} (h : fault [keyword] wrong) :
    (refuse (place.child keyword) wrong : Decoded α).Blames place fault :=
  .refused h

theorem refuse_notObject {v : Value} {entryFault : Value → List String → Complaint → Prop}
    (hnull : v ≠ .null) (hobj : ∀ members, v ≠ .obj members) :
    (refuse place .notObject : Decoded α).Blames place (Value.HasMapFault entryFault v) :=
  refuse_here (.notObject ⟨hnull, hobj⟩)

theorem bind {f : α → Decoded β} (h : r.Blames place fault)
    (hf : ∀ a, r = .ok a → (f a).Blames place fault) : (r >>= f).Blames place fault := by
  cases h with
  | read a => exact hf a rfl
  | refused h => exact .refused h

theorem map (f : α → β) (h : r.Blames place fault) : Blames place fault (Except.map f r) := by
  cases h with
  | read a => exact .read (f a)
  | refused h => exact .refused h

theorem mono (h : r.Blames place deeper)
    (himp : ∀ tokens wrong, deeper tokens wrong → fault tokens wrong) : r.Blames place fault := by
  cases h with
  | read a => exact .read a
  | refused h => exact .refused (himp _ _ h)

theorem above {token : String} (h : r.Blames (place.child token) deeper)
    (himp : ∀ tokens wrong, deeper tokens wrong → fault (token :: tokens) wrong) :
    r.Blames place fault := by
  cases h with
  | read a => exact .read a
  | refused h =>
      rw [Pointer.child, List.append_assoc, List.singleton_append]
      exact .refused (himp _ _ h)

theorem of_decides (h : r.Decides True) : r.Blames place fault := by
  cases h with
  | read a => exact .read a
  | refused _ _ hnot => exact absurd trivial hnot

end Decoded.Blames

open Decoded Value

theorem readEntries_blames {read : Pointer → Value → Decoded α}
    {fault : Value → List String → Complaint → Prop} {members : Members}
    (keys : HasTextKeys members)
    (each : ∀ m ∈ members, ∀ place, (read place m.2).Blames place (fault m.2)) (place : Pointer) :
    (readEntries read place members).Blames place (HasMapFault fault (.obj members)) := by
  -- The induction is on the entries still to be read, among members that stay the same.
  suffices hentries : ∀ entries, HasTextKeys entries → entries ⊆ members →
      (readEntries read place entries).Blames place (HasMapFault fault (.obj members)) from
    hentries members keys fun _ hm => hm
  intro entries hkeys hsubset
  induction entries with
  | nil => exact .read _
  | cons m rest ih =>
      obtain ⟨⟨name, hname⟩, -, hrest⟩ := hasTextKeys_cons_iff.mp hkeys
      obtain ⟨key, v⟩ := m
      obtain rfl : key = .str name := hname
      obtain ⟨hm, hsubset⟩ := List.cons_subset.mp hsubset
      have hentry : lookup name members = some v := (lookup_eq_some_iff keys).mpr hm
      rw [readEntries]
      refine ((each _ hm _).above fun tokens wrong h => .entry hentry h).bind fun a _ => ?_
      exact (ih hrest hsubset).bind fun entries _ => .read _

section Parts

variable {members : Members}

theorem decodeType_blames (place : Pointer) (members : Members) :
    (decodeType place members).Blames place (Value.obj members).HasFault := by
  unfold decodeType
  cases hlookup : lookup "type" members with
  | none => exact .refuse_child (.untyped (lookup_eq_none_iff.mp hlookup))
  | some v =>
      rw [Option.getD_some]
      split
      · rename_i text
        split
        · exact .read _
        · rename_i hnone
          refine .refuse_child (hasFault_of_lookup hlookup rfl ⟨rfl, ?_⟩)
          rintro type heq
          obtain rfl : text = type.text := by simpa using heq
          simp [TypeName.ofText?_eq_some_iff.mpr rfl] at hnone
      · rename_i htext
        exact .refuse_child (hasFault_of_lookup hlookup rfl ⟨rfl, fun type => htext _⟩)

theorem decodeReference_blames {target : Value} (hlookup : lookup "$ref" members = some target)
    (place : Pointer) :
    (decodeReference place target).Blames place (Value.obj members).HasFault := by
  unfold decodeReference
  split
  · split
    · exact .read _
    · rename_i hid
      exact .refuse_child (hasFault_of_lookup hlookup (Or.inr rfl) ⟨rfl, hid⟩)
  · rename_i htext
    exact .refuse_child (hasFault_of_lookup hlookup rfl ⟨htext, rfl⟩)

theorem decodeRequired_blames (json : ∀ m ∈ members, m.2.IsJson) (place : Pointer) :
    (decodeRequired place members).Blames place (Value.obj members).HasFault := by
  unfold decodeRequired
  cases hlookup : lookup "required" members with
  | none => exact .read _
  | some v =>
      have hv := json _ (mem_of_lookup hlookup)
      rw [Option.getD_some]
      split
      · exact .read _
      · split
        · exact .read _
        · rename_i hnone
          have hbroken : ¬ v.IsTextList := (textList?_eq_none_iff hv).mp hnone
          exact .refuse_child (hasFault_of_lookup hlookup (Or.inl rfl) hbroken)

theorem decodeId_blames (place : Pointer) :
    (decodeId place members).Blames place (Value.obj members).HasFault := by
  unfold decodeId
  split
  · exact .read _
  · rename_i text hlookup
    split
    · exact .read _
    · rename_i hid
      exact .refuse_child (hasFault_of_lookup hlookup (Or.inl rfl) ⟨rfl, hid⟩)
  · rename_i v htext hlookup
    exact .refuse_child (hasFault_of_lookup hlookup rfl ⟨htext, rfl⟩)

theorem decodeDialect_blames (place : Pointer) :
    (decodeDialect place members).Blames place (Value.obj members).HasFault := by
  unfold decodeDialect
  cases hlookup : lookup "$schema" members with
  | none => exact .read _
  | some v =>
      rw [Option.getD_some]
      split
      · exact .read _
      · split_ifs with habsolute
        · exact .read _
        · exact .refuse_child (hasFault_of_lookup hlookup rfl ⟨rfl, habsolute⟩)
      · rename_i hnull htext
        exact .refuse_child (hasFault_of_lookup hlookup rfl ⟨hnull, htext, rfl⟩)

theorem decodeDescription_blames (place : Pointer) :
    (decodeDescription place members).Blames place (Value.obj members).HasFault := by
  unfold decodeDescription
  cases hlookup : lookup "description" members with
  | none => exact .read _
  | some v =>
      rw [Option.getD_some]
      split
      · exact .read _
      · exact .read _
      · rename_i hnull htext
        exact .refuse_child (hasFault_of_lookup hlookup rfl ⟨hnull, htext⟩)

theorem readTextList_blames {v : Value} (hv : v.IsJson) (place : Pointer) :
    (readTextList place v).Blames place v.HasListFault := by
  unfold readTextList
  split
  · exact .read _
  · rename_i hnone
    exact .refuse_here ⟨rfl, rfl, (textList?_eq_none_iff hv).mp hnone⟩

theorem decodeDependencies_blames (json : ∀ m ∈ members, m.2.IsJson) (place : Pointer) :
    (decodeDependencies place members).Blames place (Value.obj members).HasFault := by
  unfold decodeDependencies
  cases hlookup : lookup "dependencies" members with
  | none => exact .read _
  | some v =>
      have habove : ∀ tokens wrong, HasMapFault HasListFault v tokens wrong →
          (Value.obj members).HasFault ("dependencies" :: tokens) wrong :=
        fun tokens wrong => HasMapFault.dependencies hlookup
      have hv := json _ (mem_of_lookup hlookup)
      rw [Option.getD_some]
      cases hv with
      | @scalar s hs =>
          cases s with
          | null => exact .read _
          | _ => exact .above (.refuse_notObject (by simp) (by simp)) habove
      | arr => exact .above (.refuse_notObject (by simp) (by simp)) habove
      | @obj entries keys each =>
          have hentries := readEntries_blames keys (fun m hm => readTextList_blames (each m hm))
            (place.child "dependencies")
          have hblames := hentries.above habove
          simp only [Value.unlooped, decodeDependencyEntries_eq_readEntries keys]
          generalize readEntries readTextList (place.child "dependencies") entries = r at hblames
          cases hblames with
          | read names => exact .read _
          | refused h => exact .refused h

/-! ## Nodes -/

def BlamesNode (v : Value) : Prop :=
  ∀ place, (decodeProperty place v).Blames place v.HasNodeFault ∧
    (decodePropertyMap place v).Blames place (HasMapFault HasNodeFault v)

theorem decodeItems_blames (json : ∀ m ∈ members, m.2.IsJson)
    (each : ∀ m ∈ members, BlamesNode m.2) (hconcrete : lookup "$ref" members = none)
    (htype : lookup "type" members = some (.str TypeName.array.text)) (place : Pointer) :
    (decodeItems place members).Blames place (Value.obj members).HasNodeFault := by
  rw [decodeItems_eq_lookup]
  cases hlookup : lookup "items" members with
  | none =>
      have hfault : (Value.obj members).HasFault [] .arrayWithoutItems :=
        .present rfl rfl ⟨members, rfl, htype, lookup_eq_none_iff.mp hlookup⟩
      exact .refuse_here hfault.node
  | some v =>
      have hm := mem_of_lookup hlookup
      have habove : ∀ tokens wrong, v.HasNodeFault tokens wrong →
          (Value.obj members).HasNodeFault ("items" :: tokens) wrong :=
        fun tokens wrong => HasNodeFault.items hconcrete htype hlookup
      refine ((each _ hm (place.child "items")).1.above habove).bind fun p hp => ?_
      cases p with
      | node n => exact .read n
      | reference text =>
          -- What is read as a reference is an object with a `$ref`.
          have hdecides := (decidesNode_of_isJson (json _ hm) (place.child "items")).1
          obtain ⟨parts, rfl⟩ := (hdecides.of_ok hp).exists_obj
          have href := (hasKey_ref_iff_of_decodeProperty hp).mpr ⟨text, rfl⟩
          have hfault : (Value.obj members).HasFault ["items"] .itemsNotConcrete :=
            hasFault_of_lookup hlookup rfl ⟨parts, rfl, href⟩
          exact .refuse_child hfault.node

theorem decodeProperties_blames (each : ∀ m ∈ members, BlamesNode m.2)
    (hconcrete : lookup "$ref" members = none)
    (htype : lookup "type" members = some (.str TypeName.object.text)) (place : Pointer) :
    (decodeProperties place members).Blames place (Value.obj members).HasNodeFault := by
  rw [decodeProperties_eq_lookup]
  cases hlookup : lookup "properties" members with
  | none => exact .read _
  | some v =>
      exact (each _ (mem_of_lookup hlookup) _).2.above fun tokens wrong =>
        HasMapFault.properties hconcrete htype hlookup

theorem decodeInstance_blames {type : TypeName} (json : ∀ m ∈ members, m.2.IsJson)
    (each : ∀ m ∈ members, BlamesNode m.2) (hconcrete : lookup "$ref" members = none)
    (htype : lookup "type" members = some (.str type.text)) (place : Pointer) :
    (decodeInstance place members type).Blames place (Value.obj members).HasNodeFault := by
  cases type with
  | null | boolean | string => exact .of_decides (decodePlain_decides _ json)
  | integer | number => exact .of_decides (decodeNumeric_decides _ json)
  | array =>
      refine (decodeItems_blames json each hconcrete htype place).bind fun items _ => ?_
      exact (Blames.of_decides (decodeUnsupported_decides json)).bind fun _ _ => .read _
  | object =>
      refine (decodeProperties_blames each hconcrete htype place).bind fun properties _ => ?_
      have hrequired := (decodeRequired_blames json place).mono fun _ _ => HasFault.node
      refine hrequired.bind fun required _ => ?_
      exact (Blames.of_decides (decodeUnsupported_decides json)).bind fun _ _ => .read _

theorem decodeProperty_obj_blames (json : ∀ m ∈ members, m.2.IsJson)
    (each : ∀ m ∈ members, BlamesNode m.2) (place : Pointer) :
    (decodeProperty place (.obj members)).Blames place (Value.obj members).HasNodeFault := by
  rw [decodeProperty_obj]
  cases hlookup : lookup "$ref" members with
  | some target =>
      exact (decodeReference_blames hlookup place).mono fun _ _ => HasFault.node
  | none =>
      have htype := (decodeType_blames place members).mono fun _ _ => HasFault.node
      refine htype.bind fun type hread => ?_
      exact decodeInstance_blames json each hlookup (decodeType_eq_ok_iff.mp hread) place

end Parts

theorem hasFault_notSchemaObject {v : Value} (h : ∀ members, v ≠ .obj members) :
    v.HasFault [] (.notSchemaObject v.typeName) :=
  .present rfl rfl ⟨h, rfl⟩

theorem blamesNode_of_isJson {v : Value} (hv : v.IsJson) : BlamesNode v := by
  induction hv with
  | @scalar s hs =>
      intro place
      refine ⟨.refuse_here (hasFault_notSchemaObject (by simp)).node, ?_⟩
      cases s with
      | null => exact .read _
      | _ => exact .refuse_notObject (by simp) (by simp)
  | arr =>
      intro place
      exact ⟨.refuse_here (hasFault_notSchemaObject (by simp)).node,
        .refuse_notObject (by simp) (by simp)⟩
  | obj keys json ih =>
      intro place
      refine ⟨decodeProperty_obj_blames json ih place, ?_⟩
      rw [decodePropertyMap, decodeEntries_eq_readEntries]
      exact readEntries_blames keys (fun m hm spot => (ih m hm spot).1) place

/-! ## Definitions -/

def BlamesDefinition (v : Value) : Prop :=
  ∀ place, (decodeDefinition place v).Blames place v.HasSchemaFault ∧
    (decodeDefinitionMap place v).Blames place (HasMapFault HasSchemaFault v)

section Definitions

variable {members : Members}

theorem decodeSpecification_blames (hv : (Value.obj members).IsJson) (place : Pointer) :
    (decodeSpecification place members).Blames place (Value.obj members).HasSchemaFault := by
  unfold decodeSpecification
  split_ifs with hgiven
  · exact ((blamesNode_of_isJson hv place).1.mono fun _ _ => HasNodeFault.schema hgiven).map some
  · exact .read _

theorem decodeDefinitions_blames (each : ∀ m ∈ members, BlamesDefinition m.2)
    (place : Pointer) :
    (decodeDefinitions place members).Blames place (Value.obj members).HasSchemaFault := by
  rw [decodeDefinitions_eq_lookup]
  cases hlookup : lookup "definitions" members with
  | none => exact .read _
  | some v =>
      exact (each _ (mem_of_lookup hlookup) _).2.above fun tokens wrong =>
        HasMapFault.definitions hlookup

theorem decodeDefinition_obj_blames (hv : (Value.obj members).IsJson)
    (each : ∀ m ∈ members, BlamesDefinition m.2) (place : Pointer) :
    (decodeDefinition place (.obj members)).Blames place (Value.obj members).HasSchemaFault := by
  obtain ⟨-, json⟩ := Value.isJson_obj_iff.mp hv
  rw [decodeDefinition]
  refine ((decodeId_blames place).mono fun _ _ => HasFault.schema).bind fun id _ => ?_
  refine ((decodeDialect_blames place).mono fun _ _ => HasFault.schema).bind fun dialect _ => ?_
  refine ((decodeDescription_blames place).mono fun _ _ => HasFault.schema).bind
    fun description _ => ?_
  refine (decodeSpecification_blames hv place).bind fun specification _ => ?_
  refine ((decodeDependencies_blames json place).mono fun _ _ => HasFault.schema).bind
    fun dependencies _ => ?_
  exact (decodeDefinitions_blames each place).bind fun definitions _ => .read _

end Definitions

theorem blamesDefinition_of_isJson {v : Value} (hv : v.IsJson) : BlamesDefinition v := by
  induction hv with
  | @scalar s hs =>
      intro place
      refine ⟨.refuse_here (hasFault_notSchemaObject (by simp)).schema, ?_⟩
      cases s with
      | null => exact .read _
      | _ => exact .refuse_notObject (by simp) (by simp)
  | arr =>
      intro place
      exact ⟨.refuse_here (hasFault_notSchemaObject (by simp)).schema,
        .refuse_notObject (by simp) (by simp)⟩
  | @obj members keys json ih =>
      intro place
      refine ⟨decodeDefinition_obj_blames (.obj keys json) ih place, ?_⟩
      rw [decodeDefinitionMap, decodeDefinitionEntries_eq_readEntries]
      exact (readEntries_blames keys (fun m hm spot => (ih m hm spot).1) place).map some

/-! ## Schemas -/

/-- The complaint about an object that is refused names, after `#`, the place of what is wrong.
The place leads to a part that is read, and from there to the value that breaks the rule; only
a type may be missing. -/
theorem Schema.exists_fault_of_decode {members : Members} (hv : (Value.obj members).IsJson)
    {e : SchemaError} (he : Schema.decode (.obj members) = .error e) :
    ∃ path rest spot wrong, e = .complaint ⟨path ++ rest⟩ wrong ∧
      e.message? = some ("#" ++ Pointer.toText ⟨path ++ rest⟩ ++ wrong.message) ∧
      (Value.obj members).HasSchemaAt path spot ∧
      (Value.obj members).at? (Pointer.toText ⟨path⟩) = some spot ∧ wrong.IsAbout rest ∧
      ((∃ v, (Value.obj members).at? (Pointer.toText ⟨path ++ rest⟩) = some v ∧
          wrong.IsBrokenBy v) ∨
        (rest = ["type"] ∧ wrong = .unknownType .null ∧
          ∃ parts, spot = .obj parts ∧ ¬ HasKey "type" parts)) := by
  have hblames := (blamesDefinition_of_isJson hv .root).1
  simp only [Schema.decode, Value.unlooped] at he
  generalize decodeDefinition .root (.obj members) = r at he hblames
  cases hblames with
  | read d => cases he
  | @refused tokens wrong h =>
      obtain rfl := Except.error.inj he
      obtain ⟨path, rest, spot, rfl, hspot, hfault⟩ := h
      have hpath := descend?_of_hasSchemaAt hspot
      have hplace (tokens : List String) :
          (Value.obj members).at? (Pointer.toText ⟨path ++ tokens⟩) = spot.descend? tokens := by
        rw [at?_toText, descend?_append, hpath, Option.bind_some]
      refine ⟨path, rest, spot, wrong, rfl, rfl, hspot, ?_, ?_⟩
      · rw [at?_toText, hpath]
      · cases hfault with
        | @present _ v _ _ habout hdescend hbroken =>
            exact ⟨habout, .inl ⟨v, (hplace rest).trans hdescend, hbroken⟩⟩
        | @untyped parts hmissing => exact ⟨rfl, .inr ⟨rfl, rfl, parts, rfl, hmissing⟩⟩

def referenceAsItems : Members :=
  [(.str "definitions", .obj [(.str "a/b", .obj [(.str "type", .str "object"),
    (.str "properties", .obj [(.str "~", .obj [(.str "type", .str "array"),
      (.str "items", .obj [(.str "type", .str "array"),
        (.str "items", .obj [(.str "$ref", .str "#/definitions/c")])])])])])])]

theorem referenceAsItems_blamed :
    (Value.obj referenceAsItems).IsJson ∧
      ∃ path rest spot, ∃ wrong : Complaint, ∃ v,
        "#" ++ Pointer.toText ⟨path ++ rest⟩ ++ wrong.message =
          "#/definitions/a~1b/properties/~0/items/items must be a concrete schema, not a $ref." ∧
        (Value.obj referenceAsItems).HasSchemaAt path spot ∧ wrong.IsAbout rest ∧
        (Value.obj referenceAsItems).at? (Pointer.toText ⟨path ++ rest⟩) = some v ∧
        wrong.IsBrokenBy v := by
  have hv : (Value.obj referenceAsItems).IsJson := by simp [referenceAsItems, Scalar.IsJson]
  have hdecode : Schema.decode (.obj referenceAsItems) = .error (.complaint
      ⟨["definitions", "a/b", "properties", "~", "items", "items"]⟩ .itemsNotConcrete) := rfl
  obtain ⟨path, rest, spot, wrong, he, hmessage, hspot, -, habout, hfault⟩ :=
    Schema.exists_fault_of_decode hv hdecode
  obtain ⟨hplace, rfl⟩ := SchemaError.complaint.inj he
  refine ⟨hv, path, rest, spot, .itemsNotConcrete, ?_⟩
  rcases hfault with ⟨v, hat, hbroken⟩ | ⟨-, hwrong, -⟩
  · refine ⟨v, ?_, hspot, habout, hat, hbroken⟩
    rw [← hplace]
    decide +kernel
  · cases hwrong

end StructuralSchema
