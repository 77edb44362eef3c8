import Mathlib.Data.List.Dedup
import StructuralSchema.Proofs.Walk
import StructuralSchema.Reference.Chain

/-!
# Chains of references

A longer limit changes the outcome of a chain only where the shorter one cut it off. The
links of a chain after the first are references of the document, and no reference is
followed twice, so a limit above their number cuts nothing off.
-/

namespace StructuralSchema

/-! ## The references of a document -/

mutual

def Node.references : Node → List String
  | .plain _ _ => []
  | .numeric _ _ _ => []
  | .array items _ => items.references
  | .object properties _ _ => propertyReferences properties

def Property.references : Property → List String
  | .node n => n.references
  | .reference text => [text]

def propertyReferences : List (String × Property) → List String
  | [] => []
  | (_, property) :: rest => property.references ++ propertyReferences rest

end

def specificationReferences : Option Property → List String
  | none => []
  | some property => property.references

mutual

def Definition.references : Definition → List String
  | .mk _ _ _ _ specification definitions =>
    specificationReferences specification ++ optionalDefinitionReferences definitions

def optionalDefinitionReferences : Option (List (String × Definition)) → List String
  | none => []
  | some definitions => definitionReferences definitions

def definitionReferences : List (String × Definition) → List String
  | [] => []
  | (_, definition) :: rest => definition.references ++ definitionReferences rest

end

def Schema.references : Schema → List String
  | .boolean _ => []
  | .definition d => d.references

theorem propertyReferences_eq_flatMap (entries : List (String × Property)) :
    propertyReferences entries = entries.flatMap fun entry => entry.2.references := by
  induction entries with
  | nil => rfl
  | cons entry rest ih => rw [propertyReferences, ih, List.flatMap_cons]

theorem definitionReferences_eq_flatMap (entries : List (String × Definition)) :
    definitionReferences entries = entries.flatMap fun entry => entry.2.references := by
  induction entries with
  | nil => rfl
  | cons entry rest ih => rw [definitionReferences, ih, List.flatMap_cons]

theorem subset_flatMap_of_lookup {α : Type} (references : α → List String)
    {entries : List (String × α)} {name : String} {a : α} (h : entries.lookup name = some a) :
    references a ⊆ entries.flatMap fun entry => references entry.2 := by
  obtain ⟨before, after, rfl, -⟩ := List.lookup_eq_some_iff.mp h
  intro reference hreference
  exact List.mem_flatMap.mpr ⟨(name, a), by simp, hreference⟩

theorem references_subset_propertyReferences {entries : List (String × Property)}
    {name : String} {p : Property} (h : entries.lookup name = some p) :
    p.references ⊆ propertyReferences entries := by
  rw [propertyReferences_eq_flatMap]
  exact subset_flatMap_of_lookup Property.references h

theorem references_subset_definitionReferences {entries : List (String × Definition)}
    {name : String} {d : Definition} (h : entries.lookup name = some d) :
    d.references ⊆ definitionReferences entries := by
  rw [definitionReferences_eq_flatMap]
  exact subset_flatMap_of_lookup Definition.references h

namespace Reference

def Position.references : Position → List String
  | .definition d => d.references
  | .propertyMap entries => propertyReferences entries
  | .definitionMap entries => definitionReferences entries
  | .property p => p.references

theorem references_subset_of_property? {position : Position} {p : Property}
    (h : position.property? = some p) : p.references ⊆ position.references := by
  cases position with
  | definition d =>
      obtain ⟨id, dialect, description, dependencies, specification, definitions⟩ := d
      obtain rfl : specification = some p := h
      exact List.subset_append_left _ _
  | property q =>
      obtain rfl : q = p := by simpa [Position.property?] using h
      exact List.Subset.refl _
  | propertyMap entries => simp [Position.property?] at h
  | definitionMap entries => simp [Position.property?] at h

theorem Step.references_subset {position next : Position} {segment : String}
    (h : Step position segment next) : next.references ⊆ position.references := by
  cases h with
  | entry h => exact references_subset_definitionReferences h
  | @definitions d entries h =>
      obtain ⟨id, dialect, description, dependencies, specification, definitions⟩ := d
      obtain rfl : definitions = some entries := h
      exact List.subset_append_right _ _
  | properties h => exact references_subset_of_property? h
  | shortcut h => exact references_subset_propertyReferences h
  | @items position items unsupported h =>
      have hsub : (Property.node (.array items unsupported)).references ⊆ position.references :=
        references_subset_of_property? h
      exact hsub
  | property _ _ h => exact references_subset_propertyReferences h

/-- A reference that another one designates stands in the document. -/
theorem mem_references_of_walk {document : Schema} {reference next : String}
    (h : walk document reference = .ok (.property (.reference next))) :
    next ∈ document.references := by
  cases document with
  | boolean b =>
      unfold walk at h
      cases hsegments : segments? reference <;> simp [hsegments] at h
  | definition d =>
      obtain ⟨segments, position, -, hsteps, htarget⟩ := walk_eq_ok_iff.mp h
      have hbelow : position.references ⊆ d.references := by
        refine steps_preserve (P := fun p => p.references ⊆ d.references) ?_ hsteps
          (List.Subset.refl _)
        exact fun _ _ _ hstep hsub => List.Subset.trans hstep.references_subset hsub
      have hproperty : position.property? = some (.reference next) :=
        target?_eq_property_iff.mp htarget
      exact hbelow (references_subset_of_property? hproperty List.mem_cons_self)

/-! ## Following -/

/-- The outcome of a chain that has more references than the limit. -/
def IsCutOff (limit : Int) (outcome : Except Error (Option Node)) : Prop :=
  ∃ reference, outcome = .error ⟨reference, .chainTooLong limit⟩

section Follow

variable {document : Schema} {limit limit' : Int} {remaining remaining' : ℕ}
  {start current : String} {visited : List String}

theorem follow_of_mem (h : current ∈ visited) :
    follow document limit remaining visited current =
      .error ⟨current, .cycle (visited ++ [current])⟩ := by
  unfold follow
  rw [if_pos h]

theorem follow_zero (h : current ∉ visited) :
    follow document limit 0 visited current = .error ⟨current, .chainTooLong limit⟩ := by
  unfold follow
  rw [if_neg h]

theorem follow_succ (h : current ∉ visited) :
    follow document limit (remaining + 1) visited current =
      match walk document current with
      | .error reason => .error ⟨current, reason⟩
      | .ok (.property (.reference next)) =>
          follow document limit remaining (visited ++ [current]) next
      | .ok (.property (.node n)) => .ok (some n)
      | .ok (.definition _) => .ok none := by
  rw [follow]
  exact if_neg h

theorem follow_eq_of_le (hle : remaining ≤ remaining')
    (h : ¬ IsCutOff limit (follow document limit remaining visited current)) :
    follow document limit' remaining' visited current =
      follow document limit remaining visited current := by
  induction remaining generalizing remaining' visited current with
  | zero =>
      by_cases hmem : current ∈ visited
      · rw [follow_of_mem hmem, follow_of_mem hmem]
      · exact absurd ⟨current, follow_zero hmem⟩ h
  | succ remaining ih =>
      by_cases hmem : current ∈ visited
      · rw [follow_of_mem hmem, follow_of_mem hmem]
      obtain ⟨more, rfl⟩ : ∃ more, remaining' = more + 1 := ⟨remaining' - 1, by omega⟩
      rw [follow_succ hmem] at h
      rw [follow_succ hmem, follow_succ hmem]
      split
      · rfl
      · rename_i next hwalk
        rw [hwalk] at h
        exact ih (by omega) h
      · rfl
      · rfl

/-- The references followed before `current` in a chain that begins with `start`. -/
structure Visits (document : Schema) (start : String) (visited : List String)
    (current : String) : Prop where
  distinct : visited.Nodup
  known : ∀ reference ∈ visited, reference ∈ start :: document.references.dedup
  next : current ∈ start :: document.references.dedup

theorem visits_start (document : Schema) (start : String) : Visits document start [] start :=
  ⟨List.nodup_nil, by simp, List.mem_cons_self⟩

theorem Visits.distinct_append (h : Visits document start visited current)
    (hnew : current ∉ visited) : (visited ++ [current]).Nodup := by
  simpa using h.distinct.concat hnew

theorem Visits.known_append (h : Visits document start visited current) :
    ∀ reference ∈ visited ++ [current], reference ∈ start :: document.references.dedup := by
  intro reference hreference
  rcases List.mem_append.mp hreference with hvisited | hcurrent
  · exact h.known reference hvisited
  · obtain rfl : reference = current := by simpa using hcurrent
    exact h.next

theorem Visits.follow {next : String} (h : Visits document start visited current)
    (hnew : current ∉ visited)
    (hwalk : walk document current = .ok (.property (.reference next))) :
    Visits document start (visited ++ [current]) next where
  distinct := h.distinct_append hnew
  known := h.known_append
  next := List.mem_cons_of_mem start (List.mem_dedup.mpr (mem_references_of_walk hwalk))

/-- A chain has at most one link more than the document has references. -/
theorem Visits.length_le (h : Visits document start visited current) (hnew : current ∉ visited) :
    visited.length ≤ document.references.dedup.length := by
  have hle : (visited ++ [current]).length ≤ (start :: document.references.dedup).length :=
    (h.distinct_append hnew).length_le_of_subset h.known_append
  simp only [List.length_append, List.length_cons, List.length_nil] at hle
  omega

theorem not_isCutOff_follow (h : Visits document start visited current)
    (hroom : document.references.dedup.length < visited.length + remaining) :
    ¬ IsCutOff limit' (Reference.follow document limit remaining visited current) := by
  induction remaining generalizing visited current with
  | zero =>
      by_cases hmem : current ∈ visited
      · rw [follow_of_mem hmem]
        simp [IsCutOff]
      · have hle := h.length_le hmem
        omega
  | succ remaining ih =>
      by_cases hmem : current ∈ visited
      · rw [follow_of_mem hmem]
        simp [IsCutOff]
      rw [follow_succ hmem]
      split
      · rename_i reason hwalk
        rintro ⟨reference, hcut⟩
        obtain ⟨-, rfl⟩ : current = reference ∧ reason = .chainTooLong limit' := by
          simpa using hcut
        exact ne_chainTooLong_of_walk_eq_error hwalk limit' rfl
      · rename_i next hwalk
        refine ih (h.follow hmem hwalk) ?_
        rw [List.length_append, List.length_singleton]
        omega
      · simp [IsCutOff]
      · simp [IsCutOff]

end Follow

/-! ## Limits -/

theorem dereference_eq_of_le {document : Schema} {reference : String} {limit limit' : Int}
    (hle : limit ≤ limit') (h : ¬ IsCutOff limit (dereference document limit reference)) :
    dereference document limit' reference = dereference document limit reference :=
  follow_eq_of_le (Int.toNat_le_toNat hle) h

theorem not_isCutOff_dereference {document : Schema} {limit : Int}
    (h : document.references.dedup.length < limit) (limit' : Int) (reference : String) :
    ¬ IsCutOff limit' (dereference document limit reference) := by
  refine not_isCutOff_follow (visits_start document reference) ?_
  rw [List.length_nil]
  omega

/-- A chain that closes a cycle under one limit ends on no node under any other. -/
theorem exists_error_of_cycle {document : Schema} {reference last : String} {limit : Int}
    {chain : List String}
    (h : dereference document limit reference = .error ⟨last, .cycle chain⟩) (limit' : Int) :
    ∃ e, dereference document limit' reference = .error e := by
  rcases Int.le_total limit limit' with hle | hle
  · have hcycle : ¬ IsCutOff limit (dereference document limit reference) := by
      rw [h]
      simp [IsCutOff]
    exact ⟨⟨last, .cycle chain⟩, (dereference_eq_of_le hle hcycle).trans h⟩
  · by_cases hcut : IsCutOff limit' (dereference document limit' reference)
    · obtain ⟨cut, hcut⟩ := hcut
      exact ⟨_, hcut⟩
    · exact ⟨_, (dereference_eq_of_le hle hcut).symm.trans h⟩

/-- The outcome of a reference stays the same under every greater limit unless it was cut
off, and nothing is cut off once the limit is greater than the number of different
references in the document. So a cycle is reported only of references that resolve under no
limit, and all limits above that number agree. -/
theorem dereference_stabilises (document : Schema) (reference : String) :
    (∀ limit limit' : Int, limit ≤ limit' →
        ¬ IsCutOff limit (dereference document limit reference) →
        dereference document limit' reference = dereference document limit reference) ∧
      (∀ limit : Int, document.references.dedup.length < limit →
        ∀ limit', ¬ IsCutOff limit' (dereference document limit reference)) ∧
      (∀ limit last chain,
        dereference document limit reference = .error ⟨last, .cycle chain⟩ →
        ∀ limit', ∃ e, dereference document limit' reference = .error e) ∧
      ∀ limit limit' : Int, document.references.dedup.length < limit →
        document.references.dedup.length < limit' →
        dereference document limit reference = dereference document limit' reference := by
  refine ⟨fun _ _ hle h => dereference_eq_of_le hle h, fun _ h limit' =>
    not_isCutOff_dereference h limit' reference, fun _ _ _ h => exists_error_of_cycle h, ?_⟩
  intro limit limit' h h'
  rcases Int.le_total limit limit' with hle | hle
  · exact (dereference_eq_of_le hle (not_isCutOff_dereference h limit reference)).symm
  · exact dereference_eq_of_le hle (not_isCutOff_dereference h' limit' reference)

def circularDefinitions : Schema :=
  .definition (.mk none none none none none (some [
    ("way in", .mk none none none none (some (.reference "#/definitions/b")) none),
    ("b", .mk none none none none (some (.reference "#/definitions/c")) none),
    ("c", .mk none none none none (some (.reference "#/definitions/b")) none)]))

theorem circularDefinitions_stabilise :
    circularDefinitions.references.dedup.length < (3 : Int) ∧
      dereference circularDefinitions 3 "#/definitions/way%20in" =
        .error ⟨"#/definitions/b", .cycle ["#/definitions/way%20in", "#/definitions/b",
          "#/definitions/c", "#/definitions/b"]⟩ ∧
      IsCutOff 2 (dereference circularDefinitions 2 "#/definitions/way%20in") ∧
      dereference circularDefinitions 100 "#/definitions/way%20in" =
        dereference circularDefinitions 3 "#/definitions/way%20in" ∧
      ∃ e, dereference circularDefinitions (-1) "#/definitions/way%20in" = .error e := by
  have hcount : circularDefinitions.references.dedup.length < (3 : Int) := by decide +kernel
  have hcycle : dereference circularDefinitions 3 "#/definitions/way%20in" =
      .error ⟨"#/definitions/b", .cycle ["#/definitions/way%20in", "#/definitions/b",
        "#/definitions/c", "#/definitions/b"]⟩ := by rfl
  obtain ⟨hstable, hwhole, hnever, -⟩ :=
    dereference_stabilises circularDefinitions "#/definitions/way%20in"
  exact ⟨hcount, hcycle, ⟨"#/definitions/c", by rfl⟩,
    hstable 3 100 (by decide) (hwhole 3 hcount 3), hnever 3 _ _ hcycle (-1)⟩

end Reference

end StructuralSchema
