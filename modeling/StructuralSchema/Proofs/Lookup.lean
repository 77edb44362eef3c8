import StructuralSchema.Proofs.RoundTrip
import StructuralSchema.Proofs.Walk

/-!
# Walks as lookups

A walk over a schema finds what the same segments, taken as keys, find in the value that
the schema is written as. Every position is written as a value, and every step but one
looks up its segment there; the one is `properties` within a map of properties, which
goes on into a property of that name instead of ending on it.
-/

namespace StructuralSchema

namespace Value

def member? (key : String) : Value → Option Value
  | .obj members => lookup key members
  | _ => none

/-- The value that keys lead to, from one object to the next. -/
def membersAt? : List String → Value → Option Value
  | [], v => some v
  | key :: rest, v => (v.member? key).bind (membersAt? rest)

@[simp] theorem member?_obj (key : String) (members : Members) :
    (Value.obj members).member? key = lookup key members := rfl

end Value

/-! ## Written maps, nodes and definitions -/

theorem lookup_map_field {α : Type} (write : α → Value) (name : String)
    (entries : List (String × α)) :
    lookup name (entries.map fun entry => field entry.1 (write entry.2)) =
      (entries.lookup name).map write := by
  induction entries with
  | nil => rfl
  | cons entry rest ih =>
      rw [List.map_cons, lookup_field_cons, ih, List.lookup_cons]
      by_cases hname : entry.1 = name
      · simp [hname]
      · simp [hname, beq_false_of_ne (Ne.symm hname)]

theorem lookup_encodeProperties (name : String) (entries : List (String × Property)) :
    lookup name (encodeProperties entries) =
      (entries.lookup name).map fun p => .obj p.encode := by
  rw [encodeProperties_eq_map]
  exact lookup_map_field (fun p : Property => .obj p.encode) name entries

theorem lookup_encodeDefinitions (name : String) (entries : List (String × Definition)) :
    lookup name (encodeDefinitions entries) =
      (entries.lookup name).map fun d => .obj d.encode := by
  rw [encodeDefinitions_eq_map]
  exact lookup_map_field (fun d : Definition => .obj d.encode) name entries

theorem lookup_definitions_encode {d : Definition} {entries : List (String × Definition)}
    (h : d.definitions = some entries) :
    lookup "definitions" d.encode = some (.obj (encodeDefinitions entries)) := by
  obtain ⟨id, dialect, description, dependencies, specification, definitions⟩ := d
  obtain rfl : definitions = some entries := h
  rw [lookup_encode_of_notMem_nodeKeywords (by decide)]
  simp [encodeDefinitions?]

theorem lookup_encode_of_specification {d : Definition} {p : Property}
    (h : d.specification = some p) {name : String} {v : Value}
    (hv : lookup name p.encode = some v) : lookup name d.encode = some v := by
  by_cases hname : name ∈ nodeKeywords
  · rw [lookup_encode_of_mem_nodeKeywords hname, h]
    exact hv
  · simp [lookup_property_encode_eq_none hname] at hv

namespace Reference

variable {position next last : Position} {segment : String}

/-! ## Written positions -/

def Position.encode : Position → Value
  | .definition d => .obj d.encode
  | .propertyMap entries => .obj (encodeProperties entries)
  | .definitionMap entries => .obj (encodeDefinitions entries)
  | .property p => .obj p.encode

theorem member?_encode_of_property? {p : Property} (h : position.property? = some p)
    {name : String} {v : Value} (hv : lookup name p.encode = some v) :
    position.encode.member? name = some v := by
  cases position with
  | definition d => exact lookup_encode_of_specification h hv
  | property q =>
      obtain rfl : q = p := by simpa [Position.property?] using h
      exact hv
  | propertyMap entries => simp [Position.property?] at h
  | definitionMap entries => simp [Position.property?] at h

/-- The segment is `properties`, applied to a map of properties. -/
def isShortcut : Position → String → Bool
  | .propertyMap _, segment => segment == "properties"
  | _, _ => false

/-- Somewhere along the segments `properties` is applied to a map of properties. -/
def takesShortcut : Position → List String → Bool
  | _, [] => false
  | position, segment :: rest =>
    isShortcut position segment ||
      match step position segment with
      | some next => takesShortcut next rest
      | none => false

theorem Step.member?_encode (h : Step position segment next)
    (hplain : isShortcut position segment = false) :
    position.encode.member? segment = some next.encode := by
  cases h with
  | @entry entries name d h => simp [Position.encode, lookup_encodeDefinitions, h]
  | definitions h => exact lookup_definitions_encode h
  | properties h =>
      refine member?_encode_of_property? h ?_
      simp [Property.encode, Node.encode, Position.encode]
  | shortcut h => simp [isShortcut] at hplain
  | items h =>
      refine member?_encode_of_property? h ?_
      simp [Property.encode, Node.encode, Position.encode]
  | property _ _ h => simp [Position.encode, lookup_encodeProperties, h]

theorem membersAt?_encode_of_steps {segments : List String}
    (h : steps position segments = .ok last)
    (hplain : takesShortcut position segments = false) :
    position.encode.membersAt? segments = some last.encode := by
  induction segments generalizing position with
  | nil =>
      obtain rfl : position = last := by simpa [steps] using h
      rfl
  | cons segment rest ih =>
      obtain ⟨next, hnext, hrest⟩ := steps_cons_eq_ok_iff.mp h
      obtain ⟨hfirst, hlater⟩ : isShortcut position segment = false ∧
          takesShortcut next rest = false := by
        simpa [takesShortcut, step_eq_some_iff.mpr hnext] using hplain
      rw [Value.membersAt?, hnext.member?_encode hfirst, Option.bind_some]
      exact ih hrest hlater

/-- Where no segment is a shortcut into a property called `properties`, a walk ends on what
its segments find as keys in the written schema: on a property that is written so, or on a
definition that is. Such a definition stands for the type it gives, all members of which
are members of its own, and for itself if it gives none. -/
theorem walk_refines_lookup {d : Definition} {reference : String} {segments : List String}
    {target : Target} (hsegments : segments? reference = some segments)
    (hplain : takesShortcut (.definition d) segments = false)
    (h : walk (.definition d) reference = .ok target) :
    ∃ position v, steps (.definition d) segments = .ok position ∧
      (Schema.definition d).encode.membersAt? segments = some v ∧
        ((∃ p, position = .property p ∧ target = .property p ∧ v = .obj p.encode) ∨
          ∃ e, position = .definition e ∧ v = .obj e.encode ∧
            ((∃ p, e.specification = some p ∧ target = .property p ∧
                ∀ name w, lookup name p.encode = some w → lookup name e.encode = some w) ∨
              (e.specification = none ∧ target = .definition e))) := by
  obtain ⟨segments', position, hsegments', hsteps, htarget⟩ := walk_eq_ok_iff.mp h
  obtain rfl : segments' = segments := by simpa [hsegments'] using hsegments
  refine ⟨position, position.encode, hsteps, membersAt?_encode_of_steps hsteps hplain, ?_⟩
  cases target with
  | property p =>
      have hproperty := target?_eq_property_iff.mp htarget
      cases position with
      | property q =>
          obtain rfl : q = p := by simpa [Position.property?] using hproperty
          exact .inl ⟨q, rfl, rfl, rfl⟩
      | definition e =>
          exact .inr ⟨e, rfl, rfl, .inl ⟨p, hproperty, rfl,
            fun _ _ => lookup_encode_of_specification hproperty⟩⟩
      | propertyMap entries => simp [Position.property?] at hproperty
      | definitionMap entries => simp [Position.property?] at hproperty
  | definition e =>
      obtain ⟨rfl, hnone⟩ := target?_eq_definition_iff.mp htarget
      exact .inr ⟨e, rfl, rfl, .inr ⟨hnone, rfl⟩⟩

def definitionCalledItems : Definition :=
  .mk none none (some "rows") none
    (some (.node (.array (.plain .null []) [(.enum, .arr [])]))) none

def definitionCalledProperties : Definition :=
  .mk none none none none none (some [("properties",
    .mk none none none none none (some [("items", definitionCalledItems)]))])

theorem definitionCalledItems_refines_lookup :
    segments? "#/definitions/properties/definitions/%69tems" =
        some ["definitions", "properties", "definitions", "items"] ∧
      takesShortcut (.definition definitionCalledProperties)
        ["definitions", "properties", "definitions", "items"] = false ∧
      walk (.definition definitionCalledProperties)
          "#/definitions/properties/definitions/%69tems" =
        .ok (.property (.node (.array (.plain .null []) [(.enum, .arr [])]))) ∧
      (Schema.definition definitionCalledProperties).encode.membersAt?
          ["definitions", "properties", "definitions", "items"] =
        some (.obj definitionCalledItems.encode) := by
  have hsegments : segments? "#/definitions/properties/definitions/%69tems" =
      some ["definitions", "properties", "definitions", "items"] := by rfl
  have hplain : takesShortcut (.definition definitionCalledProperties)
      ["definitions", "properties", "definitions", "items"] = false := by rfl
  have hwalk : walk (.definition definitionCalledProperties)
      "#/definitions/properties/definitions/%69tems" =
      .ok (.property (.node (.array (.plain .null []) [(.enum, .arr [])]))) := by rfl
  have hends : steps (.definition definitionCalledProperties)
      ["definitions", "properties", "definitions", "items"] =
      .ok (.definition definitionCalledItems) := by rfl
  refine ⟨hsegments, hplain, hwalk, ?_⟩
  obtain ⟨position, v, hsteps, hv, hcases⟩ := walk_refines_lookup hsegments hplain hwalk
  obtain rfl : .definition definitionCalledItems = position := by simpa [hends] using hsteps
  rcases hcases with ⟨p, hposition, -, -⟩ | ⟨e, hposition, rfl, -⟩
  · cases hposition
  · cases hposition
    exact hv

end Reference

end StructuralSchema
