import StructuralSchema.Proofs.Conformance
import StructuralSchema.Validation.Check

/-!
# What a check finds

The check of a JSON value goes one of four ways: the value is of another type than the
node gives, or the node has no parts, or the elements of an array are checked, or the
members that the properties of a node name. Each way has its equation here, and nothing
else about the check is used later on.
-/

namespace StructuralSchema.Validation

variable {c : Context} {n : Node} {place : Pointer} {site : String}

namespace Findings

@[simp] theorem mismatches_empty : Findings.empty.mismatches = [] := rfl

@[simp] theorem mismatches_mismatch (place : Pointer) (cause : Cause) :
    (Findings.mismatch place cause).mismatches = [⟨place, cause⟩] := rfl

@[simp] theorem mismatches_append (f g : Findings) :
    (f ++ g).mismatches = f.mismatches ++ g.mismatches := rfl

@[simp] theorem mismatches_join (fs : List Findings) :
    (join fs).mismatches = fs.flatMap Findings.mismatches := by
  induction fs with
  | nil => rfl
  | cons f rest ih => simp [join, ih]

@[simp] theorem mismatches_report (f : Findings) : f.report.mismatches = f.mismatches := rfl

end Findings

/-- What a value at a place has wrong in view of a demand. -/
def Context.meet (c : Context) (place : Pointer) (v : Value) : Demand → Findings
  | .node n site => checkNode c n place site v
  | .anything => .empty
  | .failed reference e => .mismatch place (.unresolvedReference reference e v)

theorem checkProperty_eq_meet (p : Property) (v : Value) :
    checkProperty c p v = c.meet .root v (c.demand "#" p) := by
  unfold checkProperty Context.meet
  cases c.demand "#" p <;> rfl

/-- A property looks at the first member of its name, and misses none unless it is required. -/
theorem checkMember_eq_meet (name : String) (p : Property) (required : Bool)
    (members : Members) :
    checkMember c name p required place site members =
      match lookup name members with
      | some v => c.meet (place.child name) v (c.demand (propertySite site name) p)
      | none => if required then .mismatch place (.missingRequired name) else .empty := by
  induction members with
  | nil => rfl
  | cons m rest ih =>
      obtain ⟨k, v⟩ := m
      unfold checkMember lookup
      by_cases hk : k = .str name
      · unfold Context.meet
        cases c.demand (propertySite site name) p <;> simp [hk]
      · simp only [if_neg hk, ih]

example : checkMember c "a" (.node n) true place site [(.str "b", .null)] =
    .mismatch place (.missingRequired "a") := by
  cbv

theorem checkElements_eq_join (items : Node) (index : ℕ) (elements : List Value) :
    checkElements c items place site index elements =
      .join ((elements.zipIdx index).map fun entry =>
        checkNode c items (place.child (toString entry.2)) site entry.1) := by
  induction elements generalizing index with
  | nil => simp [checkElements, Findings.join]
  | cons v rest ih => simp [checkElements, Findings.join, ih]

example : (checkElements ⟨none, {}⟩ (.plain .null []) .root "#" 0 [.null, .bool true]).mismatches =
    [⟨Pointer.root.child "1", .wrongType .null (.bool true)⟩] := by
  cbv

theorem validate_untyped {d : Definition} (hd : d.specification = none) (settings : Settings)
    (v : Value) : validate (.definition d) settings v = ⟨[], [], []⟩ := by
  simp [validate, hd]

theorem validate_typed {d : Definition} {p : Property} (hd : d.specification = some p)
    (settings : Settings) (v : Value) :
    validate (.definition d) settings v =
      (Context.meet ⟨some (.definition d), settings⟩ .root v
        (Context.demand ⟨some (.definition d), settings⟩ "#" p)).report := by
  simp [validate, hd, checkProperty_eq_meet]

/-! ## The four ways of a check -/

theorem matchesScalar_iff {s : Scalar} :
    matchesScalar n s = true ↔ (Value.scalar s).HasType n.typeName := by
  constructor
  · intro h
    unfold matchesScalar at h
    split at h
    · exact .null
    · exact .boolean _
    · exact .string _
    · rename_i type _ _ i
      cases type with
      | integer => exact .integerInt i
      | number => exact .numberInt i
    · exact .numberFloat _
    · exact .integerFloat _ (Binary64.isWhole_iff.mp h)
    · simp at h
  · intro h
    cases n with
    | plain type unsupported => cases type <;> cases h <;> rfl
    | numeric type bound unsupported =>
        cases type with
        | integer =>
            cases h with
            | integerInt i => rfl
            | integerFloat x hx => exact Binary64.isWhole_iff.mpr hx
        | number => cases h <;> rfl
    | array items unsupported => cases h
    | object properties required unsupported => cases h

theorem mismatches_of_not_hasType {v : Value} (hv : v.IsJson)
    (h : ¬ v.HasType n.typeName) :
    (checkNode c n place site v).mismatches = [⟨place, .wrongType n.typeName v⟩] := by
  cases hv with
  | @scalar s hs =>
      have hmatch : matchesScalar n s = false :=
        Bool.eq_false_iff.mpr fun hm => h (matchesScalar_iff.mp hm)
      simp [checkNode, hmatch]
  | @arr elements each =>
      unfold checkNode
      split
      · exact (h (.array elements)).elim
      · rfl
  | @obj members keys each =>
      unfold checkNode
      split
      · exact (h (.object members)).elim
      · rfl

theorem mismatches_scalar {s : Scalar} (h : (Value.scalar s).HasType n.typeName) :
    (checkNode c n place site (.scalar s)).mismatches = [] := by
  simp [checkNode, matchesScalar_iff.mpr h]

theorem mismatches_array (items : Node) (unsupported : Annotations) (elements : List Value) :
    (checkNode c (.array items unsupported) place site (.arr elements)).mismatches =
      elements.zipIdx.flatMap fun entry =>
        (checkNode c items (place.child (toString entry.2)) (site ++ "/items")
          entry.1).mismatches := by
  simp [checkNode, checkElements_eq_join, List.flatMap_map]

theorem mismatches_object (properties : List (String × Property))
    (required : Option (List String)) (unsupported : Annotations) (members : Members) :
    (checkNode c (.object properties required unsupported) place site
        (.obj members)).mismatches =
      properties.flatMap fun entry =>
        (checkMember c entry.1 entry.2 ((required.getD []).contains entry.1) place site
          members).mismatches := by
  simp [checkNode, List.flatMap_map]

end StructuralSchema.Validation
