import StructuralSchema.Proofs.NormalForm
import StructuralSchema.Proofs.Parts

/-!
# What stands in a normal form

A normal form is made of values that stand in its document: each name is in it at most once,
and no value is new. So a property that an object has when its members have it goes over from
a document to its normal form, and from the normal form to each node in it.
-/

namespace StructuralSchema

structure OfObjects (C : Value → Prop) : Prop where
  obj {members : Members} (keys : HasTextKeys members) (each : ∀ m ∈ members, C m.2) :
    C (.obj members)
  member {members : Members} (h : C (.obj members)) : ∀ m ∈ members, C m.2

/-- The members have the property, and their keys are some of the names, in that order. -/
structure Among (C : Value → Prop) (names : List String) (members : Members) : Prop where
  keys : (members.map Prod.fst).Sublist (names.map Scalar.str)
  each : ∀ m ∈ members, C m.2

namespace Among

variable {C : Value → Prop} {names others : List String} {a b : Members}

theorem nil (names : List String) : Among C names [] :=
  ⟨List.nil_sublist _, by simp⟩

theorem append (ha : Among C names a) (hb : Among C others b) :
    Among C (names ++ others) (a ++ b) := by
  constructor
  · rw [List.map_append, List.map_append]
    exact ha.keys.append hb.keys
  · intro m hm
    exact (List.mem_append.mp hm).elim (ha.each m) (hb.each m)

theorem mono (ha : Among C names a) (h : names.Sublist others) : Among C others a :=
  ⟨ha.keys.trans (h.map Scalar.str), ha.each⟩

theorem singleton (name : String) {v : Value} (h : C v) : Among C [name] [(.str name, v)] :=
  ⟨.refl _, List.forall_mem_singleton.mpr h⟩

theorem optionalField {name : String} {v : Option Value} (h : ∀ w, v = some w → C w) :
    Among C [name] (optionalField name v) := by
  cases v with
  | none => exact nil _
  | some w => exact singleton name (h w rfl)

theorem obj (ha : Among C names a) (hC : OfObjects C) (h : names.Nodup) : C (.obj a) := by
  refine hC.obj ⟨?_, ?_⟩ ha.each
  · intro m hm
    obtain ⟨name, -, hname⟩ := List.mem_map.mp (ha.keys.subset (List.mem_map_of_mem hm))
    exact ⟨name, hname.symm⟩
  · exact ha.keys.nodup (h.map fun _ _ heq => Scalar.str.inj heq)

end Among

section Kept

variable {C : Value → Prop} {members : Members}

theorem of_lookup (each : ∀ m ∈ members, C m.2) {name : String} {v : Value}
    (h : lookup name members = some v) : C v :=
  each _ (mem_of_lookup h)

theorem among_keepPresent (each : ∀ m ∈ members, C m.2) (name : String) :
    Among C [name] (keepPresent name members) :=
  .optionalField fun _ h => of_lookup each h

theorem among_keepGiven (each : ∀ m ∈ members, C m.2) (name : String) :
    Among C [name] (keepGiven name members) := by
  refine .optionalField fun v h => ?_
  unfold given? at h
  split at h
  · cases h
  · exact of_lookup each h

theorem among_keepUnsupported (each : ∀ m ∈ members, C m.2) :
    Among C (Keyword.all.map Keyword.text) (keepUnsupported members) := by
  unfold keepUnsupported
  induction Keyword.all with
  | nil => exact .nil _
  | cons k keys ih => exact (among_keepPresent each k.text).append ih

end Kept

/-! ## Normal forms of nodes -/

def writtenNames : List String :=
  ["$ref", "type"] ++ (partKeywords ++ Keyword.all.map Keyword.text)

theorem nodup_writtenNames : writtenNames.Nodup := by decide

/-- The normal forms of the value, as a node and as a map of nodes, have the property. -/
def NormalisesTo (C : Value → Prop) (v : Value) : Prop :=
  C v.normalNode ∧ C (.obj (normalNodeMap v))

namespace OfObjects

variable {C : Value → Prop} {members : Members}

theorem empty (hC : OfObjects C) : C (.obj []) :=
  hC.obj hasTextKeys_nil (by simp)

theorem map (hC : OfObjects C) {f : Value → Value} (keys : HasTextKeys members)
    (each : ∀ m ∈ members, C (f m.2)) : C (.obj (members.map fun m => (m.1, f m.2))) := by
  refine hC.obj ⟨?_, ?_⟩ ?_
  · intro m hm
    obtain ⟨n, hn, rfl⟩ := List.mem_map.mp hm
    exact keys.text n hn
  · rw [List.map_map]
    exact keys.nodup
  · intro m hm
    obtain ⟨n, hn, rfl⟩ := List.mem_map.mp hm
    exact each n hn

theorem among_keepParts (hC : OfObjects C) (each : ∀ m ∈ members, C m.2)
    (normal : ∀ m ∈ members, NormalisesTo C m.2) (type : Option TypeName) :
    Among C partKeywords
      (keepParts members (normalItems members) (normalProperties members) type) := by
  have hitems : Among C ["items"] (normalItems members) := by
    rw [normalItems_eq_lookup]
    refine .optionalField fun w h => ?_
    obtain ⟨v, hv, rfl⟩ := Option.map_eq_some_iff.mp h
    exact (of_lookup normal hv).1
  have hproperties : C (.obj (normalProperties members)) := by
    rw [normalProperties_eq_lookup]
    split
    · exact hC.empty
    · rename_i v hv
      exact (of_lookup normal hv).2
  have hobject : Among C ["properties", "required"]
      (field "properties" (.obj (normalProperties members)) :: keepGiven "required" members) :=
    (Among.singleton "properties" hproperties).append (among_keepGiven each "required")
  unfold keepParts
  split
  · exact (among_keepGiven each "exclusiveMinimum").mono (by decide)
  · exact (among_keepGiven each "exclusiveMinimum").mono (by decide)
  · exact hitems.mono (by decide)
  · exact hobject.mono (by decide)
  · exact .nil _

theorem exists_normalNode_eq_obj (hC : OfObjects C) (each : ∀ m ∈ members, C m.2)
    (normal : ∀ m ∈ members, NormalisesTo C m.2) :
    ∃ written, (Value.obj members).normalNode = .obj written ∧ Among C writtenNames written := by
  rw [Value.normalNode]
  split
  · rename_i target htarget
    refine ⟨_, rfl, ?_⟩
    exact (Among.singleton "$ref" (of_lookup each htarget)).mono (by decide)
  · refine ⟨_, rfl, ?_⟩
    have hnode := (among_keepPresent each "type").append
      ((hC.among_keepParts each normal (namedType? members)).append (among_keepUnsupported each))
    exact hnode.mono (by decide)

theorem normalisesTo (hC : OfObjects C) {v : Value} (json : v.IsJson) (hv : C v) :
    NormalisesTo C v := by
  induction json with
  | scalar _ => exact ⟨hv, hC.empty⟩
  | arr _ _ => exact ⟨hv, hC.empty⟩
  | @obj members keys _ ih =>
      have normal : ∀ m ∈ members, NormalisesTo C m.2 := fun m hm => ih m hm (hC.member hv m hm)
      constructor
      · obtain ⟨written, hwritten, hamong⟩ := hC.exists_normalNode_eq_obj (hC.member hv) normal
        rw [hwritten]
        exact hamong.obj hC nodup_writtenNames
      · rw [normalNodeMap, normalNodes_eq_map]
        exact hC.map keys fun m hm => (normal m hm).1

/-! ## Normal forms of definitions -/

/-- The normal form of a JSON value with the property has it too. -/
theorem normalForm (hC : OfObjects C) {v : Value} (json : v.IsJson) (hv : C v) :
    C v.normalForm ∧ Among C ["definitions"] (normalDefinitionMap v) := by
  induction json with
  | scalar _ => exact ⟨hv, .nil _⟩
  | arr _ _ => exact ⟨hv, .nil _⟩
  | @obj members keys json ih =>
      have each := hC.member hv
      -- The parts are written in two ways: below `definitions` as definitions, so by induction,
      -- and in the specification as nodes.
      have hdefinitions : Among C ["definitions"] (normalDefinitions members) := by
        rw [normalDefinitions_eq_lookup]
        split
        · exact .nil _
        · rename_i v hv
          exact (ih _ (mem_of_lookup hv) (of_lookup each hv)).2
      have hspecification : Among C writtenNames
          (if hasMember "$ref" members || hasMember "type" members then
            (Value.obj members).normalNode.members else []) := by
        split
        · obtain ⟨written, hwritten, hamong⟩ := hC.exists_normalNode_eq_obj each fun m hm =>
            hC.normalisesTo (json m hm) (each m hm)
          rw [hwritten]
          exact hamong
        · exact .nil _
      constructor
      · rw [Value.normalForm]
        have hall := (((((among_keepGiven each "$id").append
          (among_keepGiven each "$schema")).append
          (among_keepGiven each "description")).append
          (among_keepGiven each "dependencies")).append hspecification).append hdefinitions
        exact hall.obj hC (by decide)
      · rw [normalDefinitionMap, normalDefinitionEntries_eq_map]
        exact .singleton "definitions" (hC.map keys fun m hm => (ih m hm (each m hm)).1)

theorem eq_of_decode_boolean {v : Value} (json : v.IsJson) {b : Bool}
    (h : Schema.decode v = .ok (.boolean b)) : v = .bool b := by
  cases json with
  | @scalar s _ => cases s <;> simp_all [Schema.decode, Value.unlooped]
  | arr => simp [Schema.decode, Value.unlooped] at h
  | @obj members _ _ =>
      cases hread : decodeDefinition .root (.obj members) <;>
        simp [Schema.decode, Value.unlooped, hread] at h

/-- A schema that is read from a JSON document with the property is written with it. -/
theorem encode_of_decode (hC : OfObjects C) {v : Value} (json : v.IsJson) (hv : C v) {s : Schema}
    (h : Schema.decode v = .ok s) : C s.encode := by
  cases s with
  | boolean b =>
      obtain rfl : v = .bool b := eq_of_decode_boolean json h
      exact hv
  | definition d =>
      have hnormal := (readsNormalDefinition json).1 _ d (decodeDefinition_of_decode json h)
      rw [Schema.encode, ← hnormal]
      exact (hC.normalForm json hv).1

end OfObjects

/-! ## Nodes in normal forms -/

theorem ofObjects_isJson : OfObjects Value.IsJson :=
  ⟨.obj, fun h => (Value.isJson_obj_iff.mp h).2⟩

theorem isJson_obj_of_sublist {members others : Members} (h : others.Sublist members)
    (hv : (Value.obj members).IsJson) : (Value.obj others).IsJson := by
  obtain ⟨keys, each⟩ := Value.isJson_obj_iff.mp hv
  have hkeys : HasTextKeys others :=
    ⟨fun m hm => keys.text m (h.subset hm), (h.map Prod.fst).nodup keys.nodup⟩
  exact .obj hkeys fun m hm => each m (h.subset hm)

theorem isJson_encode_of_isPart {p q : Property} (h : q.IsPart p)
    (hp : (Value.obj p.encode).IsJson) : (Value.obj q.encode).IsJson := by
  induction h with
  | self => exact hp
  | @items items unsupported _ ih =>
      apply ih
      exact (Value.isJson_obj_iff.mp hp).2 (field "items" (.obj items.encode))
        (by simp [Property.encode, Node.encode])
  | @property properties required unsupported entry hentry _ ih =>
      have hproperties : (Value.obj (encodeProperties properties)).IsJson :=
        (Value.isJson_obj_iff.mp hp).2 (field "properties" (.obj (encodeProperties properties)))
          (by simp [Property.encode, Node.encode])
      apply ih
      rw [encodeProperties_eq_map] at hproperties
      exact (Value.isJson_obj_iff.mp hproperties).2 _ (List.mem_map_of_mem hentry)

theorem isJson_encode_of_hasPart {d : Definition} {p : Property} (h : d.HasPart p)
    (hd : (Value.obj d.encode).IsJson) : (Value.obj p.encode).IsJson := by
  induction h with
  | @specification d p q hp h =>
      refine isJson_encode_of_isPart h (isJson_obj_of_sublist ?_ hd)
      cases d
      obtain rfl : _ = some p := hp
      rw [Definition.encode]
      exact (List.sublist_append_right _ _).trans (List.sublist_append_left _ _)
  | @definition d entries entry q hentries hentry _ ih =>
      have hdefinitions : (Value.obj (encodeDefinitions entries)).IsJson := by
        apply (Value.isJson_obj_iff.mp hd).2 (field "definitions" (.obj (encodeDefinitions entries)))
        cases d
        obtain rfl : _ = some entries := hentries
        simp [Definition.encode, encodeDefinitions?, optionalField]
      apply ih
      rw [encodeDefinitions_eq_map] at hdefinitions
      exact (Value.isJson_obj_iff.mp hdefinitions).2 _ (List.mem_map_of_mem hentry)

end StructuralSchema
