import StructuralSchema.Proofs.Parts

/-!
# The objects that nodes are read from

Which objects of a document stand where a node is expected: the specification of a definition,
the items of an array, the properties of an object, at any depth and without looking behind a
`$ref`. In a document that is read as a schema each of these objects is read, and every node and
reference of the schema was read from one of them.
-/

namespace StructuralSchema

/-- The object with these members stands where a node is read from the value: it is the value
itself, or stands so in the items or in a property of it. -/
inductive Value.HasNodeObject (members : Members) : Value → Prop
  | whole : HasNodeObject members (.obj members)
  | items {outer : List (Scalar × Value)} {v : Value} (hconcrete : lookup "$ref" outer = none)
      (htype : lookup "type" outer = some (.str TypeName.array.text))
      (hitems : lookup "items" outer = some v) (h : HasNodeObject members v) :
      HasNodeObject members (.obj outer)
  | property {outer entries : List (Scalar × Value)} {name : String} {v : Value}
      (hconcrete : lookup "$ref" outer = none)
      (htype : lookup "type" outer = some (.str TypeName.object.text))
      (hproperties : lookup "properties" outer = some (.obj entries))
      (hentry : (.str name, v) ∈ entries) (h : HasNodeObject members v) :
      HasNodeObject members (.obj outer)

/-- The object with these members stands where a node is read from the document: in the
specification of the document or of one of its definitions. -/
inductive Value.DocumentHasNodeObject (members : Members) : Value → Prop
  | specification {outer : List (Scalar × Value)}
      (hgiven : hasMember "$ref" outer || hasMember "type" outer)
      (h : Value.HasNodeObject members (.obj outer)) : DocumentHasNodeObject members (.obj outer)
  | definition {outer entries : List (Scalar × Value)} {name : String} {v : Value}
      (hdefinitions : lookup "definitions" outer = some (.obj entries))
      (hentry : (.str name, v) ∈ entries) (h : DocumentHasNodeObject members v) :
      DocumentHasNodeObject members (.obj outer)

/-- The node was read from an object of the document that has no `$ref`. -/
def Value.Declares (document : Value) (n : Node) : Prop :=
  ∃ members place, document.DocumentHasNodeObject members ∧ lookup "$ref" members = none ∧
    decodeProperty place (.obj members) = .ok (.node n)

/-! ## What was read from an object -/

section Reading

variable {α : Type} {read : Pointer → Value → Decoded α} {place : Pointer} {members : Members}

theorem exists_of_mem_members {entries : List (String × α)}
    (h : readEntries read place members = .ok entries) {name : String} {v : Value}
    (hv : (Scalar.str name, v) ∈ members) :
    ∃ a, (name, a) ∈ entries ∧ read (place.child name) v = .ok a := by
  induction members generalizing entries with
  | nil => simp at hv
  | cons m rest ih =>
      obtain ⟨key, w⟩ := m
      cases key with
      | str other =>
          obtain ⟨a, ha, h⟩ := Decoded.bind_eq_ok_iff.mp h
          obtain ⟨others, hothers, h⟩ := Decoded.bind_eq_ok_iff.mp h
          obtain rfl : (other, a) :: others = entries := by simpa [pure, Except.pure] using h
          rcases List.mem_cons.mp hv with heq | hv
          · obtain ⟨rfl, rfl⟩ : name = other ∧ v = w := by simpa using heq
            exact ⟨a, List.mem_cons_self, ha⟩
          · obtain ⟨b, hb, hread⟩ := ih hothers hv
            exact ⟨b, List.mem_cons_of_mem _ hb, hread⟩
      | _ => simp [readEntries] at h

theorem typeName_of_decodeInstance {type : TypeName} {n : Node}
    (h : decodeInstance place members type = .ok (.node n)) : n.typeName = type := by
  cases type with
  | null | boolean | string =>
      obtain ⟨unsupported, -, heq⟩ := Decoded.map_eq_ok_iff.mp h
      obtain rfl := Property.node.inj heq
      rfl
  | integer | number =>
      obtain ⟨unsupported, -, heq⟩ := exists_of_decodeNumeric h
      obtain rfl := Property.node.inj heq
      rfl
  | array =>
      obtain ⟨items, unsupported, -, -, heq⟩ := exists_of_decodeArray h
      obtain rfl := Property.node.inj heq
      rfl
  | object =>
      obtain ⟨properties, required, unsupported, -, -, -, heq⟩ := exists_of_decodeObject h
      obtain rfl := Property.node.inj heq
      rfl

/-- An object that is read as a node has no `$ref` and names the type of the node. -/
theorem concrete_of_decodeProperty {n : Node}
    (h : decodeProperty place (.obj members) = .ok (.node n)) :
    lookup "$ref" members = none ∧ lookup "type" members = some (.str n.typeName.text) ∧
      decodeInstance place members n.typeName = .ok (.node n) := by
  rw [decodeProperty_obj] at h
  cases href : lookup "$ref" members with
  | some target =>
      rw [href] at h
      obtain ⟨text, -, heq⟩ := exists_text_of_decodeReference_eq_ok h
      cases heq
  | none =>
      rw [href] at h
      obtain ⟨type, htype, h⟩ := Decoded.bind_eq_ok_iff.mp h
      obtain rfl := typeName_of_decodeInstance h
      exact ⟨rfl, decodeType_eq_ok_iff.mp htype, h⟩

theorem decodeInstance_of_decodeProperty {p : Property} {type : TypeName}
    (h : decodeProperty place (.obj members) = .ok p) (hconcrete : lookup "$ref" members = none)
    (htype : lookup "type" members = some (.str type.text)) :
    decodeInstance place members type = .ok p := by
  rw [decodeProperty_obj, hconcrete] at h
  obtain ⟨other, hother, h⟩ := Decoded.bind_eq_ok_iff.mp h
  have hsame : type.text = other.text := by
    have hlookup := decodeType_eq_ok_iff.mp hother
    rw [htype] at hlookup
    simpa using hlookup
  obtain rfl := TypeName.text_injective hsame
  exact h

theorem exists_obj_of_decodeProperty {v : Value} (hv : v.IsJson) {p : Property}
    (h : decodeProperty place v = .ok p) : ∃ members, v = .obj members := by
  cases hv with
  | scalar _ => simp [decodeProperty, refuse] at h
  | arr _ => simp [decodeProperty, refuse] at h
  | obj _ _ => exact ⟨_, rfl⟩

theorem exists_obj_of_decodePropertyMap {v : Value} (hv : v.IsJson)
    {entries : List (String × Property)} (h : decodePropertyMap place v = .ok entries)
    {entry : String × Property} (hentry : entry ∈ entries) :
    ∃ members, v = .obj members ∧ readEntries decodeProperty place members = .ok entries := by
  cases hv with
  | @scalar s _ =>
      cases s with
      | null =>
          obtain rfl : [] = entries := by simpa [decodePropertyMap] using h
          simp at hentry
      | _ => simp [decodePropertyMap, refuse] at h
  | arr _ => simp [decodePropertyMap, refuse] at h
  | @obj members _ _ =>
      rw [decodePropertyMap, decodeEntries_eq_readEntries] at h
      exact ⟨members, rfl, h⟩

end Reading

/-! ## Nodes -/

theorem isJson_of_hasNodeObject {v : Value} {members : Members}
    (hmembers : v.HasNodeObject members) (hv : v.IsJson) : (Value.obj members).IsJson := by
  induction hmembers with
  | whole => exact hv
  | items _ _ hitems _ ih =>
      obtain ⟨-, json⟩ := Value.isJson_obj_iff.mp hv
      exact ih (json _ (mem_of_lookup hitems))
  | property _ _ hproperties hentry _ ih =>
      obtain ⟨-, json⟩ := Value.isJson_obj_iff.mp hv
      obtain ⟨-, each⟩ := Value.isJson_obj_iff.mp (json _ (mem_of_lookup hproperties))
      exact ih (each _ hentry)

/-- Wherever a node is expected in a value that is read, one is read. -/
theorem exists_part_of_hasNodeObject {v : Value} {members : Members}
    (hmembers : v.HasNodeObject members) {place : Pointer} {p : Property}
    (h : decodeProperty place v = .ok p) :
    ∃ spot q, decodeProperty spot (.obj members) = .ok q ∧ q.IsPart p := by
  induction hmembers generalizing place p with
  | whole => exact ⟨place, p, h, .self⟩
  | items hconcrete htype hitems _ ih =>
      have harray := decodeInstance_of_decodeProperty h hconcrete htype
      obtain ⟨items, unsupported, hread, -, rfl⟩ := exists_of_decodeArray harray
      obtain ⟨v, hv, hread⟩ := exists_of_decodeItems hread
      obtain rfl := Option.some_inj.mp (hitems.symm.trans hv)
      obtain ⟨spot, q, hq, hpart⟩ := ih hread
      exact ⟨spot, q, hq, .items hpart⟩
  | property hconcrete htype hproperties hentry _ ih =>
      have hobject := decodeInstance_of_decodeProperty h hconcrete htype
      obtain ⟨properties, required, unsupported, hread, -, -, rfl⟩ := exists_of_decodeObject hobject
      rw [decodeProperties_eq_lookup, hproperties] at hread
      simp only [decodePropertyMap, decodeEntries_eq_readEntries] at hread
      obtain ⟨p, hp, hv⟩ := exists_of_mem_members hread hentry
      obtain ⟨spot, q, hq, hpart⟩ := ih hv
      exact ⟨spot, q, hq, .property hp hpart⟩

theorem exists_hasNodeObject_of_isPart {p q : Property} (hpart : q.IsPart p) {v : Value}
    (hv : v.IsJson) {place : Pointer} (h : decodeProperty place v = .ok p) :
    ∃ members spot, v.HasNodeObject members ∧ decodeProperty spot (.obj members) = .ok q := by
  induction hpart generalizing v place with
  | self =>
      obtain ⟨members, rfl⟩ := exists_obj_of_decodeProperty hv h
      exact ⟨members, place, .whole, h⟩
  | items _ ih =>
      obtain ⟨outer, rfl⟩ := exists_obj_of_decodeProperty hv h
      obtain ⟨-, json⟩ := Value.isJson_obj_iff.mp hv
      obtain ⟨hconcrete, htype, harray⟩ := concrete_of_decodeProperty h
      obtain ⟨items, unsupported, hread, -, heq⟩ := exists_of_decodeArray harray
      obtain ⟨rfl, rfl⟩ := Node.array.inj (Property.node.inj heq)
      obtain ⟨w, hw, hread⟩ := exists_of_decodeItems hread
      obtain ⟨members, spot, hobject, hmembers⟩ := ih (json _ (mem_of_lookup hw)) hread
      exact ⟨members, spot, .items hconcrete htype hw hobject, hmembers⟩
  | @property properties _ _ entry hentry _ ih =>
      obtain ⟨outer, rfl⟩ := exists_obj_of_decodeProperty hv h
      obtain ⟨-, json⟩ := Value.isJson_obj_iff.mp hv
      obtain ⟨hconcrete, htype, hobject⟩ := concrete_of_decodeProperty h
      obtain ⟨others, required, unsupported, hread, -, -, heq⟩ := exists_of_decodeObject hobject
      obtain ⟨hothers, -, -⟩ := Node.object.inj (Property.node.inj heq)
      subst hothers
      rw [decodeProperties_eq_lookup] at hread
      cases hlookup : lookup "properties" outer with
      | none =>
          obtain rfl : [] = properties := by simpa [hlookup] using hread
          simp at hentry
      | some map =>
          simp only [hlookup] at hread
          have hmap := json _ (mem_of_lookup hlookup)
          obtain ⟨entries, rfl, hentries⟩ := exists_obj_of_decodePropertyMap hmap hread hentry
          obtain ⟨-, json⟩ := Value.isJson_obj_iff.mp hmap
          obtain ⟨w, hw, hread⟩ := exists_of_mem_readEntries hentries hentry
          obtain ⟨members, spot, hobject, hmembers⟩ := ih (json _ hw) hread
          exact ⟨members, spot, .property hconcrete htype hlookup hw hobject, hmembers⟩

/-! ## Definitions -/

theorem isJson_of_documentHasNodeObject {v : Value} {members : Members}
    (hmembers : v.DocumentHasNodeObject members) (hv : v.IsJson) :
    (Value.obj members).IsJson := by
  induction hmembers with
  | specification _ hobject => exact isJson_of_hasNodeObject hobject hv
  | definition hdefinitions hentry _ ih =>
      obtain ⟨-, json⟩ := Value.isJson_obj_iff.mp hv
      obtain ⟨-, each⟩ := Value.isJson_obj_iff.mp (json _ (mem_of_lookup hdefinitions))
      exact ih (each _ hentry)

theorem decodeSpecification_eq {place : Pointer} {members : Members} {p : Property}
    (h : decodeSpecification place members = .ok (some p)) :
    (hasMember "$ref" members || hasMember "type" members) = true ∧
      decodeProperty place (.obj members) = .ok p := by
  unfold decodeSpecification at h
  split_ifs at h with hgiven
  · obtain ⟨q, hq, hsome⟩ := Decoded.map_eq_ok_iff.mp h
    obtain rfl := Option.some_inj.mp hsome
    exact ⟨hgiven, hq⟩
  · simp at h

theorem exists_part_of_documentHasNodeObject {v : Value} {members : Members}
    (hmembers : v.DocumentHasNodeObject members) {place : Pointer} {d : Definition}
    (h : decodeDefinition place v = .ok d) :
    ∃ spot q, decodeProperty spot (.obj members) = .ok q ∧ d.HasPart q := by
  induction hmembers generalizing place d with
  | specification hgiven hobject =>
      have hread := (readFrom_of_decodeDefinition h).specification
      unfold decodeSpecification at hread
      rw [if_pos hgiven] at hread
      obtain ⟨p, hp, hspecification⟩ := Decoded.map_eq_ok_iff.mp hread
      obtain ⟨spot, q, hq, hpart⟩ := exists_part_of_hasNodeObject hobject hp
      exact ⟨spot, q, hq, .specification hspecification.symm hpart⟩
  | definition hdefinitions hentry _ ih =>
      have hread := (readFrom_of_decodeDefinition h).definitions
      rw [decodeDefinitions_eq_lookup, hdefinitions] at hread
      simp only [decodeDefinitionMap, decodeDefinitionEntries_eq_readEntries] at hread
      obtain ⟨entries, hentries, heq⟩ := Decoded.map_eq_ok_iff.mp hread
      obtain ⟨e, he, hv⟩ := exists_of_mem_members hentries hentry
      obtain ⟨spot, q, hq, hpart⟩ := ih hv
      exact ⟨spot, q, hq, .definition heq.symm he hpart⟩

theorem exists_obj_of_decodeDefinition {place : Pointer} {v : Value} (hv : v.IsJson)
    {d : Definition} (h : decodeDefinition place v = .ok d) : ∃ members, v = .obj members := by
  cases hv with
  | scalar _ => simp [decodeDefinition, refuse] at h
  | arr _ => simp [decodeDefinition, refuse] at h
  | obj _ _ => exact ⟨_, rfl⟩

theorem exists_obj_of_decodeDefinitions {place : Pointer} {members : Members}
    (json : ∀ m ∈ members, m.2.IsJson) {ds : List (String × Definition)}
    (h : decodeDefinitions place members = .ok (some ds)) :
    ∃ entries, lookup "definitions" members = some (.obj entries) ∧
      (∀ m ∈ entries, m.2.IsJson) ∧
      readEntries decodeDefinition (place.child "definitions") entries = .ok ds := by
  rw [decodeDefinitions_eq_lookup] at h
  cases hlookup : lookup "definitions" members with
  | none => simp [hlookup] at h
  | some v =>
      rw [hlookup] at h
      have hv := json _ (mem_of_lookup hlookup)
      cases hv with
      | @scalar s _ => cases s <;> simp [decodeDefinitionMap, refuse] at h
      | arr _ => simp [decodeDefinitionMap, refuse] at h
      | @obj entries _ each =>
          simp only [decodeDefinitionMap, decodeDefinitionEntries_eq_readEntries] at h
          obtain ⟨ds', hentries, heq⟩ := Decoded.map_eq_ok_iff.mp h
          obtain rfl := Option.some_inj.mp heq
          exact ⟨entries, rfl, each, hentries⟩

theorem exists_documentHasNodeObject_of_hasPart {d : Definition} {q : Property}
    (hpart : d.HasPart q) {v : Value} (hv : v.IsJson) {place : Pointer}
    (h : decodeDefinition place v = .ok d) :
    ∃ members spot, v.DocumentHasNodeObject members ∧
      decodeProperty spot (.obj members) = .ok q := by
  induction hpart generalizing v place with
  | specification hd hpart =>
      obtain ⟨outer, rfl⟩ := exists_obj_of_decodeDefinition hv h
      have hread := (readFrom_of_decodeDefinition h).specification
      rw [hd] at hread
      obtain ⟨hgiven, hp⟩ := decodeSpecification_eq hread
      obtain ⟨members, spot, hobject, hmembers⟩ := exists_hasNodeObject_of_isPart hpart hv hp
      exact ⟨members, spot, .specification hgiven hobject, hmembers⟩
  | definition hd hentry _ ih =>
      obtain ⟨outer, rfl⟩ := exists_obj_of_decodeDefinition hv h
      have hread := (readFrom_of_decodeDefinition h).definitions
      rw [hd] at hread
      obtain ⟨-, json⟩ := Value.isJson_obj_iff.mp hv
      obtain ⟨entries, hlookup, each, hentries⟩ := exists_obj_of_decodeDefinitions json hread
      obtain ⟨w, hw, hread⟩ := exists_of_mem_readEntries hentries hentry
      obtain ⟨members, spot, hobject, hmembers⟩ := ih (each _ hw) hread
      exact ⟨members, spot, .definition hlookup hw hobject, hmembers⟩

/-! ## Documents -/

section Documents

variable {document : Value} {d : Definition}

theorem declares_of_hasPart (hdocument : document.IsJson)
    (hd : Schema.decode document = .ok (.definition d)) {n : Node} (h : d.HasPart (.node n)) :
    document.Declares n := by
  have hread := decodeDefinition_of_decode hdocument hd
  obtain ⟨members, spot, hobject, hmembers⟩ :=
    exists_documentHasNodeObject_of_hasPart h hdocument hread
  exact ⟨members, spot, hobject, (concrete_of_decodeProperty hmembers).1, hmembers⟩

theorem concrete_items_of_decode (hdocument : document.IsJson)
    (hd : Schema.decode document = .ok (.definition d)) {members : Members}
    (hobject : document.DocumentHasNodeObject members) (hconcrete : lookup "$ref" members = none)
    (htype : lookup "type" members = some (.str TypeName.array.text)) :
    ∃ parts, lookup "items" members = some (.obj parts) ∧ lookup "$ref" parts = none := by
  have hread := decodeDefinition_of_decode hdocument hd
  obtain ⟨spot, q, hq, -⟩ := exists_part_of_documentHasNodeObject hobject hread
  have harray := decodeInstance_of_decodeProperty hq hconcrete htype
  obtain ⟨items, unsupported, hitems, -, -⟩ := exists_of_decodeArray harray
  obtain ⟨v, hv, hread⟩ := exists_of_decodeItems hitems
  obtain ⟨-, json⟩ :=
    Value.isJson_obj_iff.mp (isJson_of_documentHasNodeObject hobject hdocument)
  obtain ⟨parts, rfl⟩ := exists_obj_of_decodeProperty (json _ (mem_of_lookup hv)) hread
  exact ⟨parts, hv, (concrete_of_decodeProperty hread).1⟩

end Documents

end StructuralSchema
