import StructuralSchema.Proofs.Check
import StructuralSchema.Proofs.PointerText

/-!
# Mismatches of parts

What a check finds in a part of a value is what the check of that part alone finds, put
below the place of the part. So the mismatches of an array or of an object are those of
its parts one after the other, with nothing lost and nothing added.
-/

namespace StructuralSchema

namespace Pointer

theorem toText_append (a b : List String) :
    toText ⟨a ++ b⟩ = toText ⟨a⟩ ++ toText ⟨b⟩ := by
  simp [toText]

theorem toText_child_root (token : String) : (root.child token).toText = "/" ++ escape token := by
  have hslash : "/" = String.ofList ['/'] := rfl
  rw [hslash, escape, ← String.ofList_append]
  simp [toText, child, root]

theorem escapeChars_eq_self {token : List Char} (htilde : '~' ∉ token) (hslash : '/' ∉ token) :
    escapeChars token = token := by
  induction token with
  | nil => rfl
  | cons c rest ih =>
      obtain ⟨hc, hrest⟩ : '~' ≠ c ∧ '~' ∉ rest := by simpa using htilde
      obtain ⟨hd, hrest'⟩ : '/' ≠ c ∧ '/' ∉ rest := by simpa using hslash
      rw [escapeChars_cons, if_neg hc.symm, if_neg hd.symm, ih hrest hrest']
      rfl

theorem escape_toString (i : ℕ) : escape (toString i) = toString i := by
  have hdigits : (toString i).toList = Nat.toDigits 10 i := by
    rw [Nat.toString_eq_repr, Nat.toList_repr]
  have hdigit : ∀ c ∈ Nat.toDigits 10 i, c.isDigit = true :=
    fun c hc => Nat.isDigit_of_mem_toDigits (by decide) (by decide) hc
  have htilde : '~' ∉ Nat.toDigits 10 i := fun h => absurd (hdigit '~' h) (by decide)
  have hslash : '/' ∉ Nat.toDigits 10 i := fun h => absurd (hdigit '/' h) (by decide)
  rw [escape, hdigits, escapeChars_eq_self htilde hslash, ← hdigits, String.ofList_toList]

end Pointer

namespace Validation

def Mismatch.below (place : Pointer) (m : Mismatch) : Mismatch :=
  ⟨⟨place.tokens ++ m.place.tokens⟩, m.cause⟩

namespace Mismatch

theorem below_below (a b : Pointer) (m : Mismatch) :
    (m.below a).below b = m.below ⟨b.tokens ++ a.tokens⟩ := by
  simp [below]

theorem below_root (place : Pointer) (cause : Cause) :
    Mismatch.below place ⟨.root, cause⟩ = ⟨place, cause⟩ := by
  simp [below, Pointer.root]

theorem map_below_map_below_child (place : Pointer) (token : String) (ms : List Mismatch) :
    (ms.map (below (Pointer.root.child token))).map (below place) =
      ms.map (below (place.child token)) := by
  rw [List.map_map]
  refine List.map_congr_left fun m _ => ?_
  exact below_below (Pointer.root.child token) place m

theorem toText_below (place : Pointer) (m : Mismatch) :
    (m.below place).place.toText = place.toText ++ m.place.toText :=
  Pointer.toText_append place.tokens m.place.tokens

end Mismatch

/-- What a property has wrong about a value that stands alone. A reference has what the node
has that it leads to, and a single mismatch of its own if it cannot be followed. -/
def propertyMismatches (document : Option Schema) (settings : Settings) (v : Value) :
    Property → List Mismatch
  | .node n => (validateNode document settings n v).mismatches
  | .reference reference =>
    match document with
    | none => [⟨.root, .unresolvedReference reference ⟨reference, .noDocument⟩ v⟩]
    | some s =>
      match Reference.dereference s settings.maxReferenceDepth reference with
      | .ok (some n) => (validateNode document settings n v).mismatches
      | .ok none => []
      | .error e => [⟨.root, .unresolvedReference reference e v⟩]

/-- The check of the value finds the same wherever the value stands. -/
def Relocates (document : Option Schema) (settings : Settings) (v : Value) : Prop :=
  ∀ (n : Node) (place : Pointer) (site : String),
    (checkNode ⟨document, settings⟩ n place site v).mismatches =
      (validateNode document settings n v).mismatches.map (Mismatch.below place)

variable {document : Option Schema} {settings : Settings} {place : Pointer} {site : String}

theorem mismatches_validateNode (n : Node) (v : Value) :
    (validateNode document settings n v).mismatches =
      (checkNode ⟨document, settings⟩ n .root "#" v).mismatches := rfl

theorem mismatches_meet_demand {v : Value} (hv : Relocates document settings v) (p : Property) :
    (Context.meet ⟨document, settings⟩ place v
        (Context.demand ⟨document, settings⟩ site p)).mismatches =
      (propertyMismatches document settings v p).map (Mismatch.below place) := by
  cases p with
  | node n => exact hv n place site
  | reference reference =>
      simp only [Context.demand, Context.dereference, propertyMismatches]
      cases document with
      | none => exact congrArg ([·]) (Mismatch.below_root place _).symm
      | some s =>
          simp only
          cases Reference.dereference s settings.maxReferenceDepth reference with
          | error e => exact congrArg ([·]) (Mismatch.below_root place _).symm
          | ok target =>
              cases target with
              | none => rfl
              | some n => exact hv n place reference

/-! ## Arrays and objects -/

theorem mismatches_array_of_relocates {items : Node} {unsupported : Annotations}
    {elements : List Value} (each : ∀ v ∈ elements, Relocates document settings v) :
    (checkNode ⟨document, settings⟩ (.array items unsupported) place site
        (.arr elements)).mismatches =
      elements.zipIdx.flatMap fun entry =>
        (validateNode document settings items entry.1).mismatches.map
          (Mismatch.below (place.child (toString entry.2))) := by
  rw [mismatches_array]
  refine List.flatMap_congr fun entry hentry => ?_
  exact each entry.1 (List.fst_mem_of_mem_zipIdx hentry) items _ _

theorem mismatches_object_of_relocates {properties : List (String × Property)}
    {required : Option (List String)} {unsupported : Annotations} {members : Members}
    (each : ∀ m ∈ members, Relocates document settings m.2) :
    (checkNode ⟨document, settings⟩ (.object properties required unsupported) place site
        (.obj members)).mismatches =
      properties.flatMap fun entry =>
        match lookup entry.1 members with
        | some v =>
          (propertyMismatches document settings v entry.2).map
            (Mismatch.below (place.child entry.1))
        | none =>
          if entry.1 ∈ required.getD [] then [⟨place, .missingRequired entry.1⟩] else [] := by
  rw [mismatches_object]
  refine List.flatMap_congr fun entry _ => ?_
  rw [checkMember_eq_meet]
  cases hlookup : lookup entry.1 members with
  | some v => exact mismatches_meet_demand (each _ (mem_of_lookup hlookup)) entry.2
  | none =>
      by_cases hrequired : entry.1 ∈ required.getD []
      · simp [hrequired]
      · simp [hrequired]

theorem relocates_arr {elements : List Value}
    (each : ∀ v ∈ elements, Relocates document settings v) :
    Relocates document settings (.arr elements) := by
  intro n place site
  cases n with
  | array items unsupported =>
      rw [mismatches_validateNode, mismatches_array_of_relocates each,
        mismatches_array_of_relocates each, List.map_flatMap]
      exact List.flatMap_congr fun entry _ =>
        (Mismatch.map_below_map_below_child place _ _).symm
  | _ => simp [checkNode, mismatches_validateNode, Mismatch.below_root]

theorem relocates_obj {members : Members}
    (each : ∀ m ∈ members, Relocates document settings m.2) :
    Relocates document settings (.obj members) := by
  intro n place site
  cases n with
  | object properties required unsupported =>
      rw [mismatches_validateNode, mismatches_object_of_relocates each,
        mismatches_object_of_relocates each, List.map_flatMap]
      refine List.flatMap_congr fun entry _ => ?_
      cases lookup entry.1 members with
      | some v => exact (Mismatch.map_below_map_below_child place _ _).symm
      | none =>
          by_cases hrequired : entry.1 ∈ required.getD []
          · simp [hrequired, Mismatch.below_root]
          · simp [hrequired]
  | _ => simp [checkNode, mismatches_validateNode, Mismatch.below_root]

theorem mismatches_pair (items : Node) (unsupported : Annotations) (v w : Value) :
    (checkNode ⟨document, settings⟩ (.array items unsupported) place site
        (.pair v w)).mismatches =
      (checkNode ⟨document, settings⟩ (.array items unsupported) place site
        (.arr [v, w])).mismatches := by
  have hzero : toString 0 = "0" := rfl
  have hone : toString (0 + 1) = "1" := rfl
  simp [checkNode, checkElements, hzero, hone]

theorem relocates_pair {v w : Value} (hv : Relocates document settings v)
    (hw : Relocates document settings w) : Relocates document settings (.pair v w) := by
  intro n place site
  cases n with
  | array items unsupported =>
      have harr : Relocates document settings (.arr [v, w]) :=
        relocates_arr (List.forall_mem_cons.mpr ⟨hv, List.forall_mem_singleton.mpr hw⟩)
      rw [mismatches_validateNode, mismatches_pair, mismatches_pair]
      exact harr _ place site
  | _ => simp [checkNode, mismatches_validateNode, Mismatch.below_root]

theorem relocates (v : Value) : Relocates document settings v := by
  -- Node, place and site stay free: a part has its own, and a reference changes the site.
  induction v using Value.partsInduction with
  | scalar s =>
      intro n place site
      simp only [mismatches_validateNode, checkNode]
      split_ifs
      · rfl
      · simp [Mismatch.below_root]
  | arr elements ih => exact relocates_arr ih
  | obj members ih => exact relocates_obj ih
  | pair v w hv hw => exact relocates_pair hv hw
  | set elements =>
      intro n place site
      simp [checkNode, mismatches_validateNode, Mismatch.below_root]
  | loop number v ih =>
      intro n place site
      simpa [checkNode, mismatches_validateNode] using ih n place site
  | endless =>
      intro n place site
      simp [checkNode, mismatches_validateNode, Mismatch.below_root]

/-- The mismatches of an array are those of its elements, in order, each put below its index;
those of an object are, in the order of the properties, those of the members put below their
names and one for each required name without a member. Being put below a token changes
nothing about a mismatch but the front of its place. -/
theorem mismatches_compositional (document : Option Schema) (settings : Settings) :
    (∀ items unsupported elements,
        (validateNode document settings (.array items unsupported) (.arr elements)).mismatches =
          elements.zipIdx.flatMap fun entry =>
            (validateNode document settings items entry.1).mismatches.map
              (Mismatch.below (Pointer.root.child (toString entry.2)))) ∧
      (∀ properties required unsupported members,
        (validateNode document settings (.object properties required unsupported)
            (.obj members)).mismatches =
          properties.flatMap fun entry =>
            match lookup entry.1 members with
            | some v =>
              (propertyMismatches document settings v entry.2).map
                (Mismatch.below (Pointer.root.child entry.1))
            | none =>
              if entry.1 ∈ required.getD [] then [⟨.root, .missingRequired entry.1⟩] else []) ∧
      (∀ (token : String) (m : Mismatch),
        (m.below (Pointer.root.child token)).place.toText =
            "/" ++ Pointer.escape token ++ m.place.toText ∧
          (m.below (Pointer.root.child token)).kind = m.kind ∧
          (m.below (Pointer.root.child token)).message = m.message ∧
          (m.below (Pointer.root.child token)).expected? = m.expected? ∧
          (m.below (Pointer.root.child token)).actual? = m.actual?) ∧
      ∀ i : ℕ, Pointer.escape (toString i) = toString i := by
  refine ⟨?_, ?_, ?_, Pointer.escape_toString⟩
  · intro items unsupported elements
    exact mismatches_array_of_relocates fun v _ => relocates v
  · intro properties required unsupported members
    exact mismatches_object_of_relocates fun m _ => relocates m.2
  · intro token m
    refine ⟨?_, rfl, rfl, rfl, rfl⟩
    rw [Mismatch.toText_below, Pointer.toText_child_root]

end Validation

end StructuralSchema
