import Mathlib.Tactic.SplitIfs
import StructuralSchema.Reference.Walk

/-!
# How a walk goes

What one segment does is said once, as a relation with a rule for each thing a segment
can mean. A walk is such steps one after the other, and whatever is shown of walks is
shown of the rules.
-/

namespace StructuralSchema.Reference

/-- One segment leads from a position to the next. -/
inductive Step : Position → String → Position → Prop
  | entry {entries : List (String × Definition)} {name : String} {d : Definition}
      (h : entries.lookup name = some d) : Step (.definitionMap entries) name (.definition d)
  | definitions {d : Definition} {entries : List (String × Definition)}
      (h : d.definitions = some entries) :
      Step (.definition d) "definitions" (.definitionMap entries)
  | properties {position : Position} {entries : List (String × Property)}
      {required : Option (List String)} {unsupported : Annotations}
      (h : position.property? = some (.node (.object entries required unsupported))) :
      Step position "properties" (.propertyMap entries)
  | shortcut {entries inner : List (String × Property)} {required : Option (List String)}
      {unsupported : Annotations}
      (h : entries.lookup "properties" = some (.node (.object inner required unsupported))) :
      Step (.propertyMap entries) "properties" (.propertyMap inner)
  | items {position : Position} {items : Node} {unsupported : Annotations}
      (h : position.property? = some (.node (.array items unsupported))) :
      Step position "items" (.property (.node items))
  | property {entries : List (String × Property)} {name : String} {p : Property}
      (hproperties : name ≠ "properties") (hitems : name ≠ "items")
      (h : entries.lookup name = some p) : Step (.propertyMap entries) name (.property p)

variable {position next last : Position} {segment : String}

theorem exists_object_of_propertyMapOf? {p : Option Property} (h : propertyMapOf? p = some next) :
    ∃ entries required unsupported,
      p = some (.node (.object entries required unsupported)) ∧ next = .propertyMap entries := by
  unfold propertyMapOf? at h
  split at h
  · exact ⟨_, _, _, rfl, by simpa using h.symm⟩
  · simp at h

theorem step_items_of_stepItems (h : stepItems position = some next) :
    Step position "items" next := by
  unfold stepItems at h
  split at h
  · rename_i items unsupported hitems
    obtain rfl : .property (.node items) = next := by simpa using h
    exact .items hitems
  · simp at h

theorem Step.of_step_eq_some (h : step position segment = some next) :
    Step position segment next := by
  cases position with
  | definitionMap entries =>
      obtain ⟨d, hd, rfl⟩ := Option.map_eq_some_iff.mp h
      exact .entry hd
  | definition d =>
      simp only [step] at h
      split_ifs at h with hproperties hitems hdefinitions
      · subst hproperties
        obtain ⟨entries, required, unsupported, hnode, rfl⟩ := exists_object_of_propertyMapOf? h
        exact .properties hnode
      · subst hitems
        exact step_items_of_stepItems h
      · subst hdefinitions
        obtain ⟨entries, hentries, rfl⟩ := Option.map_eq_some_iff.mp h
        exact .definitions hentries
  | propertyMap entries =>
      simp only [step] at h
      split_ifs at h with hproperties hitems
      · subst hproperties
        obtain ⟨inner, required, unsupported, hnode, rfl⟩ := exists_object_of_propertyMapOf? h
        exact .shortcut hnode
      · subst hitems
        exact step_items_of_stepItems h
      · obtain ⟨p, hp, rfl⟩ := Option.map_eq_some_iff.mp h
        exact .property hproperties hitems hp
  | property p =>
      simp only [step] at h
      split_ifs at h with hproperties hitems
      · subst hproperties
        obtain ⟨entries, required, unsupported, hnode, rfl⟩ := exists_object_of_propertyMapOf? h
        exact .properties hnode
      · subst hitems
        exact step_items_of_stepItems h

theorem Step.step_eq_some (h : Step position segment next) :
    step position segment = some next := by
  cases h with
  | entry h => simp [step, h]
  | definitions h => simp [step, h]
  | properties h =>
      cases position with
      | definition d => simp [step, stepProperties, propertyMapOf?, h]
      | property p => simp [step, stepProperties, propertyMapOf?, h]
      | propertyMap entries => simp [Position.property?] at h
      | definitionMap entries => simp [Position.property?] at h
  | shortcut h => simp [step, stepProperties, propertyMapOf?, h]
  | items h =>
      cases position with
      | definition d => simp [step, stepItems, h]
      | property p => simp [step, stepItems, h]
      | propertyMap entries => simp [Position.property?] at h
      | definitionMap entries => simp [Position.property?] at h
  | property hproperties hitems h => simp [step, hproperties, hitems, h]

theorem step_eq_some_iff : step position segment = some next ↔ Step position segment next :=
  ⟨.of_step_eq_some, Step.step_eq_some⟩

/-! ## Several steps -/

theorem steps_cons_eq_ok_iff {rest : List String} :
    steps position (segment :: rest) = .ok last ↔
      ∃ next, Step position segment next ∧ steps next rest = .ok last := by
  simp only [steps, ← step_eq_some_iff]
  cases step position segment with
  | none => simp
  | some next => simp

theorem steps_cons_of_step (h : Step position segment next) (rest : List String) :
    steps position (segment :: rest) = steps next rest := by
  rw [steps, step_eq_some_iff.mpr h]

/-- What every step preserves, a whole walk preserves. -/
theorem steps_preserve {P : Position → Prop}
    (hstep : ∀ position segment next, Step position segment next → P position → P next)
    {segments : List String} (h : steps position segments = .ok last) (hstart : P position) :
    P last := by
  induction segments generalizing position with
  | nil =>
      obtain rfl : position = last := by simpa [steps] using h
      exact hstart
  | cons segment rest ih =>
      obtain ⟨next, hnext, hrest⟩ := steps_cons_eq_ok_iff.mp h
      exact ih hrest (hstep position segment next hnext hstart)

theorem exists_segment_of_steps_eq_error {segments : List String} {reason : Reason}
    (h : steps position segments = .error reason) :
    ∃ segment ∈ segments, reason = .segmentDoesNotApply segment := by
  induction segments generalizing position with
  | nil => simp [steps] at h
  | cons segment rest ih =>
      rw [steps] at h
      cases hstep : step position segment with
      | none =>
          rw [hstep] at h
          exact ⟨segment, List.mem_cons_self, by simpa using h.symm⟩
      | some next =>
          rw [hstep] at h
          obtain ⟨later, hlater, hreason⟩ := ih h
          exact ⟨later, List.mem_cons_of_mem segment hlater, hreason⟩

/-! ## Walks -/

theorem target?_eq_property_iff {p : Property} :
    target? position = some (.property p) ↔ position.property? = some p := by
  cases position with
  | definition d => cases hd : d.specification <;> simp [target?, Position.property?, hd]
  | property q => simp [target?, Position.property?]
  | propertyMap entries => simp [target?, Position.property?]
  | definitionMap entries => simp [target?, Position.property?]

theorem target?_eq_definition_iff {d : Definition} :
    target? position = some (.definition d) ↔
      position = .definition d ∧ d.specification = none := by
  cases position with
  | definition e =>
      cases he : e.specification with
      | none =>
          simp only [target?, he, Option.some.injEq, Target.definition.injEq,
            Position.definition.injEq]
          exact ⟨fun h => ⟨h, h ▸ he⟩, And.left⟩
      | some p =>
          simp only [target?, he, Option.some.injEq, reduceCtorEq, Position.definition.injEq,
            false_iff, not_and]
          rintro rfl
          simp [he]
  | property q => simp [target?]
  | propertyMap entries => simp [target?]
  | definitionMap entries => simp [target?]

/-- A reference designates what its segments end on. -/
theorem walk_eq_ok_iff {d : Definition} {reference : String} {target : Target} :
    walk (.definition d) reference = .ok target ↔
      ∃ segments position, segments? reference = some segments ∧
        steps (.definition d) segments = .ok position ∧ target? position = some target := by
  unfold walk
  cases segments? reference with
  | none => simp
  | some segments =>
      cases hsteps : steps (.definition d) segments with
      | error reason => simp [hsteps]
      | ok position =>
          cases htarget : target? position with
          | none => simp [hsteps, htarget]
          | some found => simp [hsteps, htarget]

/-- A single walk follows no second reference, so it does not fail by the length of a
chain. -/
theorem ne_chainTooLong_of_walk_eq_error {document : Schema} {reference : String}
    {reason : Reason} (h : walk document reference = .error reason) (limit : Int) :
    reason ≠ .chainTooLong limit := by
  rintro rfl
  unfold walk at h
  cases hsegments : segments? reference with
  | none => simp [hsegments] at h
  | some segments =>
      cases document with
      | boolean b => simp [hsegments] at h
      | definition d =>
          cases hsteps : steps (.definition d) segments with
          | error reason =>
              obtain ⟨segment, -, rfl⟩ := exists_segment_of_steps_eq_error hsteps
              simp [hsegments, hsteps] at h
          | ok position => cases htarget : target? position <;> simp [hsegments, hsteps, htarget] at h

end StructuralSchema.Reference
