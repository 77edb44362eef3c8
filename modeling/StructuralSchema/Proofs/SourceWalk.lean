import StructuralSchema.Proofs.Acceptance
import StructuralSchema.Proofs.Chain
import StructuralSchema.Proofs.Inert
import StructuralSchema.Proofs.NodeObjects

/-!
# Walking through the document as it was written

References are followed through the schema that a document was read as. The same steps can be taken
through the objects of the document; the two walks are kept in step, so a chain of references ends
on the node that was read from the object on which it ends in the document.
-/

namespace StructuralSchema

/-- The object has no `$ref` and names the type. -/
def IsOfType (members : Members) (type : TypeName) : Prop :=
  lookup "$ref" members = none ∧ lookup "type" members = some (.str type.text)

namespace Reference

/-- A part of a document, as it was written, that segments lead to. -/
inductive Spot
  | definition (members : Members)
  | propertyMap (entries : Members)
  | definitionMap (entries : Members)
  | property (members : Members)

def Spot.object? : Spot → Option Members
  | .definition members => some members
  | .property members => some members
  | _ => none

/-- One segment leads from a spot to the next. -/
inductive SpotStep : Spot → String → Spot → Prop
  | entry {entries members : Members} {name : String}
      (h : lookup name entries = some (.obj members)) :
      SpotStep (.definitionMap entries) name (.definition members)
  | definitions {members entries : Members}
      (h : lookup "definitions" members = some (.obj entries)) :
      SpotStep (.definition members) "definitions" (.definitionMap entries)
  | properties {spot : Spot} {members : Members} (h : spot.object? = some members)
      (htype : IsOfType members .object) :
      SpotStep spot "properties" (.propertyMap (membersUnder "properties" members))
  | shortcut {entries members : Members} (h : lookup "properties" entries = some (.obj members))
      (htype : IsOfType members .object) :
      SpotStep (.propertyMap entries) "properties"
        (.propertyMap (membersUnder "properties" members))
  | items {spot : Spot} {members parts : Members} (h : spot.object? = some members)
      (htype : IsOfType members .array) (hitems : lookup "items" members = some (.obj parts)) :
      SpotStep spot "items" (.property parts)
  | property {entries members : Members} {name : String} (hproperties : name ≠ "properties")
      (hitems : name ≠ "items") (h : lookup name entries = some (.obj members)) :
      SpotStep (.propertyMap entries) name (.property members)

inductive SpotSteps : Spot → List String → Spot → Prop
  | nil (spot : Spot) : SpotSteps spot [] spot
  | cons {spot next last : Spot} {segment : String} {rest : List String}
      (h : SpotStep spot segment next) (hrest : SpotSteps next rest last) :
      SpotSteps spot (segment :: rest) last

/-- The reference designates the object in the document. -/
def Designates (document : Value) (reference : String) (members : Members) : Prop :=
  ∃ outer segments spot, document = .obj outer ∧ segments? reference = some segments ∧
    SpotSteps (.definition outer) segments spot ∧ spot.object? = some members

/-- A chain of that many references, the given one first, ends on an object without `$ref`. -/
inductive LeadsTo (document : Value) : ℕ → String → Members → Prop
  | ends {reference : String} {members : Members} (h : Designates document reference members)
      (hconcrete : lookup "$ref" members = none) : LeadsTo document 1 reference members
  | hop {n : ℕ} {reference next : String} {members last : Members}
      (h : Designates document reference members)
      (href : lookup "$ref" members = some (.str next)) (hnext : LeadsTo document n next last) :
      LeadsTo document (n + 1) reference last

/-! ## What was read at a spot -/

/-- What stands at the position was read from what stands at the spot. -/
inductive ReadAs : Spot → Position → Prop
  | definition {place : Pointer} {members : Members} {d : Definition}
      (json : (Value.obj members).IsJson) (h : decodeDefinition place (.obj members) = .ok d) :
      ReadAs (.definition members) (.definition d)
  | propertyMap {place : Pointer} {entries : Members} {properties : List (String × Property)}
      (json : ∀ m ∈ entries, m.2.IsJson)
      (h : readEntries decodeProperty place entries = .ok properties) :
      ReadAs (.propertyMap entries) (.propertyMap properties)
  | definitionMap {place : Pointer} {entries : Members}
      {definitions : List (String × Definition)} (json : ∀ m ∈ entries, m.2.IsJson)
      (h : readEntries decodeDefinition place entries = .ok definitions) :
      ReadAs (.definitionMap entries) (.definitionMap definitions)
  | property {place : Pointer} {members : Members} {p : Property}
      (json : (Value.obj members).IsJson) (h : decodeProperty place (.obj members) = .ok p) :
      ReadAs (.property members) (.property p)

section Reading

variable {place : Pointer} {members : Members}

theorem lookup_of_readEntries {α : Type} {read : Pointer → Value → Decoded α}
    {entries : List (String × α)} (h : readEntries read place members = .ok entries)
    {name : String} {v : Value} (hv : lookup name members = some v) :
    ∃ a, entries.lookup name = some a ∧ read (place.child name) v = .ok a := by
  induction members generalizing entries with
  | nil => simp [lookup] at hv
  | cons m rest ih =>
      obtain ⟨key, w⟩ := m
      cases key with
      | str other =>
          obtain ⟨a, ha, h⟩ := Decoded.bind_eq_ok_iff.mp h
          obtain ⟨others, hothers, h⟩ := Decoded.bind_eq_ok_iff.mp h
          obtain rfl : (other, a) :: others = entries := by simpa [pure, Except.pure] using h
          by_cases hname : other = name
          · subst hname
            obtain rfl : w = v := by simpa [lookup] using hv
            exact ⟨a, by simp, ha⟩
          · obtain ⟨b, hb, hread⟩ := ih hothers (by simpa [lookup, hname] using hv)
            refine ⟨b, ?_, hread⟩
            simpa [List.lookup_cons, beq_false_of_ne (Ne.symm hname)] using hb
      | _ => simp [readEntries] at h

theorem exists_object_of_isOfType {p : Property} (htype : IsOfType members .object)
    (json : ∀ m ∈ members, m.2.IsJson) (h : decodeProperty place (.obj members) = .ok p) :
    ∃ properties required unsupported, p = .node (.object properties required unsupported) ∧
      readEntries decodeProperty (place.child "properties") (membersUnder "properties" members) =
        .ok properties := by
  have hobject := decodeInstance_of_decodeProperty h htype.1 htype.2
  obtain ⟨properties, required, unsupported, hread, -, -, rfl⟩ := exists_of_decodeObject hobject
  exact ⟨properties, required, unsupported, rfl, readEntries_of_decodeProperties json hread⟩

theorem exists_array_of_isOfType {parts : Members} {p : Property}
    (htype : IsOfType members .array) (hitems : lookup "items" members = some (.obj parts))
    (h : decodeProperty place (.obj members) = .ok p) :
    ∃ items unsupported, p = .node (.array items unsupported) ∧
      decodeProperty (place.child "items") (.obj parts) = .ok (.node items) := by
  have harray := decodeInstance_of_decodeProperty h htype.1 htype.2
  obtain ⟨items, unsupported, hread, -, rfl⟩ := exists_of_decodeArray harray
  obtain ⟨v, hv, hread⟩ := exists_of_decodeItems hread
  obtain rfl := Option.some_inj.mp (hitems.symm.trans hv)
  exact ⟨items, unsupported, rfl, hread⟩

end Reading

section Steps

variable {spot next : Spot} {position : Position} {segment : String} {members : Members}

theorem ReadAs.isJson (h : ReadAs spot position) (hobject : spot.object? = some members) :
    (Value.obj members).IsJson := by
  cases h with
  | definition json _ => exact Option.some_inj.mp hobject ▸ json
  | property json _ => exact Option.some_inj.mp hobject ▸ json
  | propertyMap _ _ => cases hobject
  | definitionMap _ _ => cases hobject

theorem ReadAs.property_or_untyped (h : ReadAs spot position)
    (hobject : spot.object? = some members) :
    (∃ place p, decodeProperty place (.obj members) = .ok p ∧ position.property? = some p) ∨
      ¬ IsTyped members ∧ ∃ d, position = .definition d ∧ d.specification = none := by
  cases h with
  | @definition place ms d json h =>
      obtain rfl : ms = members := Option.some_inj.mp hobject
      have hread := (readFrom_of_decodeDefinition h).specification
      cases hd : d.specification with
      | some p =>
          rw [hd] at hread
          exact .inl ⟨place, p, (decodeSpecification_eq hread).2, hd⟩
      | none =>
          refine .inr ⟨?_, d, rfl, hd⟩
          intro htyped
          unfold decodeSpecification at hread
          rw [if_pos (isTyped_iff.mp htyped), hd] at hread
          obtain ⟨p, -, hnone⟩ := Decoded.map_eq_ok_iff.mp hread
          cases hnone
  | @property place ms p json h =>
      obtain rfl : ms = members := Option.some_inj.mp hobject
      exact .inl ⟨place, p, h, rfl⟩
  | propertyMap _ _ => cases hobject
  | definitionMap _ _ => cases hobject

theorem ReadAs.exists_property (h : ReadAs spot position) (hobject : spot.object? = some members)
    {type : TypeName} (htype : IsOfType members type) :
    ∃ place p, decodeProperty place (.obj members) = .ok p ∧ position.property? = some p := by
  refine (h.property_or_untyped hobject).resolve_right ?_
  rintro ⟨huntyped, -⟩
  exact huntyped (.inr ⟨_, mem_of_lookup htype.2⟩)

/-- A step through the document can be taken through what was read from it. -/
theorem SpotStep.exists_step (hstep : SpotStep spot segment next) (h : ReadAs spot position) :
    ∃ reached, Step position segment reached ∧ ReadAs next reached := by
  cases hstep with
  | entry hentry =>
      cases h with
      | definitionMap json h =>
          obtain ⟨d, hd, hread⟩ := lookup_of_readEntries h hentry
          exact ⟨_, .entry hd, .definition (json _ (mem_of_lookup hentry)) hread⟩
  | definitions hdefinitions =>
      cases h with
      | definition json h =>
          have hread := (readFrom_of_decodeDefinition h).definitions
          rw [decodeDefinitions_eq_lookup, hdefinitions] at hread
          simp only [decodeDefinitionMap, decodeDefinitionEntries_eq_readEntries] at hread
          obtain ⟨ds, hds, hsome⟩ := Decoded.map_eq_ok_iff.mp hread
          have hmap := (Value.isJson_obj_iff.mp json).2 _ (mem_of_lookup hdefinitions)
          exact ⟨_, .definitions hsome.symm, .definitionMap (Value.isJson_obj_iff.mp hmap).2 hds⟩
  | @properties _ ms hobject htype =>
      have json := (Value.isJson_obj_iff.mp (h.isJson hobject)).2
      obtain ⟨place, p, hp, hproperty⟩ := h.exists_property hobject htype
      obtain ⟨properties, required, unsupported, rfl, hread⟩ :=
        exists_object_of_isOfType htype json hp
      exact ⟨_, .properties hproperty,
        .propertyMap (fun m hm => isJson_of_mem_membersUnder json hm) hread⟩
  | shortcut hentry htype =>
      cases h with
      | propertyMap json h =>
          obtain ⟨p, hlookup, hp⟩ := lookup_of_readEntries h hentry
          have hinner := (Value.isJson_obj_iff.mp (json _ (mem_of_lookup hentry))).2
          obtain ⟨properties, required, unsupported, rfl, hread⟩ :=
            exists_object_of_isOfType htype hinner hp
          exact ⟨_, .shortcut hlookup,
            .propertyMap (fun m hm => isJson_of_mem_membersUnder hinner hm) hread⟩
  | items hobject htype hitems =>
      have json := (Value.isJson_obj_iff.mp (h.isJson hobject)).2
      obtain ⟨place, p, hp, hproperty⟩ := h.exists_property hobject htype
      obtain ⟨items, unsupported, rfl, hread⟩ := exists_array_of_isOfType htype hitems hp
      exact ⟨_, .items hproperty, .property (json _ (mem_of_lookup hitems)) hread⟩
  | property hproperties hitems hentry =>
      cases h with
      | propertyMap json h =>
          obtain ⟨p, hlookup, hp⟩ := lookup_of_readEntries h hentry
          exact ⟨_, .property hproperties hitems hlookup,
            .property (json _ (mem_of_lookup hentry)) hp⟩

theorem SpotSteps.exists_steps {segments : List String} (hsteps : SpotSteps spot segments next)
    (h : ReadAs spot position) :
    ∃ reached, steps position segments = .ok reached ∧ ReadAs next reached := by
  induction hsteps generalizing position with
  | nil spot => exact ⟨position, rfl, h⟩
  | cons hstep _ ih =>
      obtain ⟨reached, hreached, hread⟩ := hstep.exists_step h
      obtain ⟨last, hlast, hreadLast⟩ := ih hread
      exact ⟨last, steps_cons_eq_ok_iff.mpr ⟨reached, hreached, hlast⟩, hreadLast⟩

end Steps

/-! ## Where references lead -/

section Chains

variable {document : Value} {d : Definition} {reference : String} {members : Members}

/-- A reference designates in the schema what was read from the object that it designates in the
document. -/
theorem walk_of_designates (hdocument : document.IsJson)
    (hd : Schema.decode document = .ok (.definition d))
    (h : Designates document reference members) :
    (∃ place p, decodeProperty place (.obj members) = .ok p ∧
        walk (.definition d) reference = .ok (.property p)) ∨
      ¬ IsTyped members ∧ ∃ e, walk (.definition d) reference = .ok (.definition e) := by
  obtain ⟨outer, segments, spot, rfl, hsegments, hsteps, hobject⟩ := h
  have hroot : ReadAs (.definition outer) (.definition d) :=
    .definition hdocument (decodeDefinition_of_decode hdocument hd)
  obtain ⟨position, hposition, hread⟩ := hsteps.exists_steps hroot
  rcases hread.property_or_untyped hobject with ⟨place, p, hp, hproperty⟩ | ⟨huntyped, e, rfl, he⟩
  · refine .inl ⟨place, p, hp, walk_eq_ok_iff.mpr ⟨segments, position, hsegments, hposition, ?_⟩⟩
    exact target?_eq_property_iff.mpr hproperty
  · refine .inr ⟨huntyped, e, walk_eq_ok_iff.mpr ⟨segments, _, hsegments, hposition, ?_⟩⟩
    exact target?_eq_definition_iff.mpr ⟨rfl, he⟩

/-- A chain of that many references, the given one first, ends on the node, or on a definition
without a type. -/
inductive Ends (document : Schema) : ℕ → String → Option Node → Prop
  | node {reference : String} {n : Node}
      (h : walk document reference = .ok (.property (.node n))) : Ends document 1 reference (some n)
  | untyped {reference : String} {d : Definition}
      (h : walk document reference = .ok (.definition d)) : Ends document 1 reference none
  | next {length : ℕ} {reference next : String} {end? : Option Node}
      (h : walk document reference = .ok (.property (.reference next)))
      (hnext : Ends document length next end?) : Ends document (length + 1) reference end?

theorem Ends.length_unique {s : Schema} {a b : ℕ} {x y : Option Node}
    (h : Ends s a reference x) (h' : Ends s b reference y) : a = b := by
  induction h generalizing b with
  | node hwalk =>
      cases h' with
      | node _ => rfl
      | untyped _ => rfl
      | next hother _ => simp [hwalk] at hother
  | untyped hwalk =>
      cases h' with
      | node _ => rfl
      | untyped _ => rfl
      | next hother _ => simp [hwalk] at hother
  | next hwalk _ ih =>
      cases h' with
      | node hother => simp [hwalk] at hother
      | untyped hother => simp [hwalk] at hother
      | next hother hnext =>
          rw [hwalk] at hother
          obtain ⟨rfl⟩ := hother
          rw [ih hnext]

/-- A chain that ends meets no reference twice: the rest of it would be as long as all of it. -/
theorem Ends.notMem {s : Schema} {length : ℕ} {visited : List String} {end? : Option Node}
    (h : Ends s length reference end?)
    (hvisited : ∀ r ∈ visited, ∃ longer x, Ends s longer r x ∧ length < longer) :
    reference ∉ visited := by
  intro hmem
  obtain ⟨longer, x, hlonger, hlt⟩ := hvisited reference hmem
  have hsame : length = longer := h.length_unique hlonger
  omega

theorem Ends.follow_eq {s : Schema} {limit : Int} {length remaining : ℕ} {visited : List String}
    {end? : Option Node} (h : Ends s length reference end?) (hremaining : length ≤ remaining)
    (hvisited : ∀ r ∈ visited, ∃ longer x, Ends s longer r x ∧ length < longer) :
    follow s limit remaining visited reference = .ok end? := by
  have hnew : reference ∉ visited := h.notMem hvisited
  induction h generalizing remaining visited with
  | node hwalk =>
      obtain ⟨rest, rfl⟩ : ∃ rest, remaining = rest + 1 := ⟨remaining - 1, by omega⟩
      rw [follow_succ hnew, hwalk]
  | untyped hwalk =>
      obtain ⟨rest, rfl⟩ : ∃ rest, remaining = rest + 1 := ⟨remaining - 1, by omega⟩
      rw [follow_succ hnew, hwalk]
  | @next length reference next end? hwalk hnext ih =>
      obtain ⟨rest, rfl⟩ : ∃ rest, remaining = rest + 1 := ⟨remaining - 1, by omega⟩
      have hlonger : ∀ r ∈ visited ++ [reference],
          ∃ longer x, Ends s longer r x ∧ length < longer := by
        intro r hr
        rcases List.mem_append.mp hr with hr | hr
        · obtain ⟨longer, x, hends, hlt⟩ := hvisited r hr
          exact ⟨longer, x, hends, by omega⟩
        · obtain rfl := List.mem_singleton.mp hr
          exact ⟨length + 1, end?, .next hwalk hnext, by omega⟩
      rw [follow_succ hnew, hwalk]
      exact ih (by omega) hlonger (hnext.notMem hlonger)

theorem Ends.dereference_eq {s : Schema} {limit : Int} {length : ℕ} {end? : Option Node}
    (h : Ends s length reference end?) (hlimit : length ≤ limit) :
    dereference s limit reference = .ok end? :=
  h.follow_eq (by omega) (by simp)

theorem exists_node_of_concrete {place : Pointer} {p : Property}
    (h : decodeProperty place (.obj members) = .ok p) (hconcrete : lookup "$ref" members = none) :
    ∃ n, p = .node n := by
  rw [decodeProperty_obj, hconcrete] at h
  obtain ⟨type, -, h⟩ := Decoded.bind_eq_ok_iff.mp h
  exact exists_node_of_decodeInstance h

theorem eq_reference_of_ref {place : Pointer} {p : Property} {next : String}
    (h : decodeProperty place (.obj members) = .ok p)
    (href : lookup "$ref" members = some (.str next)) : p = .reference next := by
  rw [decodeProperty_obj, href] at h
  obtain ⟨text, htext, rfl⟩ := exists_text_of_decodeReference_eq_ok h
  obtain rfl : next = text := by simpa using htext
  rfl

/-- A chain ends in the schema as it does in the document. -/
theorem ends_of_leadsTo (hdocument : document.IsJson)
    (hd : Schema.decode document = .ok (.definition d)) {length : ℕ}
    (h : LeadsTo document length reference members) :
    (∃ place n, decodeProperty place (.obj members) = .ok (.node n) ∧
        Ends (.definition d) length reference (some n)) ∨
      ¬ IsTyped members ∧ Ends (.definition d) length reference none := by
  induction h with
  | ends h hconcrete =>
      rcases walk_of_designates hdocument hd h with ⟨place, p, hp, hwalk⟩ | ⟨huntyped, e, hwalk⟩
      · obtain ⟨n, rfl⟩ := exists_node_of_concrete hp hconcrete
        exact .inl ⟨place, n, hp, .node hwalk⟩
      · exact .inr ⟨huntyped, .untyped hwalk⟩
  | @hop length reference next ms last h href _ ih =>
      have hnext : walk (.definition d) reference = .ok (.property (.reference next)) := by
        rcases walk_of_designates hdocument hd h with ⟨place, p, hp, hwalk⟩ | ⟨huntyped, -⟩
        · rwa [eq_reference_of_ref hp href] at hwalk
        · exact absurd (.inl ⟨_, mem_of_lookup href⟩) huntyped
      rcases ih with ⟨place, n, hn, hends⟩ | ⟨huntyped, hends⟩
      · exact .inl ⟨place, n, hn, .next hnext hends⟩
      · exact .inr ⟨huntyped, .next hnext hends⟩

end Chains

end Reference

end StructuralSchema
