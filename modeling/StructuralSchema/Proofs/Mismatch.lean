import StructuralSchema.Proofs.Check
import StructuralSchema.Proofs.PointerText

/-!
# Mismatches

Every mismatch of a report is about a part of the value: its place reads back as a
pointer to that part, and what it says is true of the part. A check passes the place of
a part down, so a mismatch that is genuine in a part is genuine in the whole.
-/

namespace StructuralSchema.Validation

variable {document : Schema} {settings : Settings} {place : Pointer}

def Cause.IsTrueOf (document : Schema) (limit : Int) (w : Value) : Cause → Prop
  | .wrongType expected actual => actual = w ∧ ¬ w.HasType expected
  | .missingRequired name => ∃ members, w = .obj members ∧ ¬ HasKey name members
  | .falseSchema _ => False
  | .unresolvedReference reference e actual =>
      actual = w ∧ Reference.dereference document limit reference = .error e

/-- Its place leads from the place of a value to a part of which its cause is true. -/
def Mismatch.IsGenuine (document : Schema) (limit : Int) (place : Pointer) (v : Value)
    (m : Mismatch) : Prop :=
  ∃ tokens w, m.place.tokens = place.tokens ++ tokens ∧ v.descend? tokens = some w ∧
    m.cause.IsTrueOf document limit w

namespace Mismatch.IsGenuine

theorem here {limit : Int} {v : Value} {cause : Cause} (h : cause.IsTrueOf document limit v) :
    Mismatch.IsGenuine document limit place v ⟨place, cause⟩ :=
  ⟨[], v, (List.append_nil _).symm, rfl, h⟩

theorem of_part {limit : Int} {v w : Value} {token : String} {m : Mismatch}
    (hw : v.part? token = some w)
    (h : Mismatch.IsGenuine document limit (place.child token) w m) :
    Mismatch.IsGenuine document limit place v m := by
  obtain ⟨tokens, u, hplace, hu, htrue⟩ := h
  refine ⟨token :: tokens, u, ?_, ?_, htrue⟩
  · rw [hplace, Pointer.child, List.append_assoc, List.singleton_append]
  · simpa [Value.descend?, hw] using hu

end Mismatch.IsGenuine

def OnlyGenuine (document : Schema) (settings : Settings) (v : Value) : Prop :=
  ∀ (n : Node) (place : Pointer) (site : String),
    ∀ m ∈ (checkNode ⟨some document, settings⟩ n place site v).mismatches,
      m.IsGenuine document settings.maxReferenceDepth place v

theorem genuine_of_mem_meet {v : Value} (hv : OnlyGenuine document settings v) (p : Property)
    (site : String) {m : Mismatch}
    (hm : m ∈ (Context.meet ⟨some document, settings⟩ place v
      (Context.demand ⟨some document, settings⟩ site p)).mismatches) :
    m.IsGenuine document settings.maxReferenceDepth place v := by
  cases p with
  | node n => exact hv n place site m hm
  | reference reference =>
      simp only [Context.demand, Context.dereference] at hm
      cases hends : Reference.dereference document settings.maxReferenceDepth reference with
      | error e =>
          obtain rfl : m = ⟨place, .unresolvedReference reference e v⟩ := by
            simpa [hends, Context.meet] using hm
          exact .here ⟨rfl, hends⟩
      | ok target =>
          cases target with
          | none => simp [hends, Context.meet] at hm
          | some n => exact hv n place reference m (by simpa [hends, Context.meet] using hm)

theorem genuine_of_mem_member {members : Members}
    (each : ∀ m ∈ members, OnlyGenuine document settings m.2) {name : String} {p : Property}
    {required : Bool} {site : String} {m : Mismatch}
    (hm : m ∈ (checkMember ⟨some document, settings⟩ name p required place site
      members).mismatches) :
    m.IsGenuine document settings.maxReferenceDepth place (.obj members) := by
  rw [checkMember_eq_meet] at hm
  cases hlookup : lookup name members with
  | some v =>
      rw [hlookup] at hm
      exact .of_part hlookup (genuine_of_mem_meet (each _ (mem_of_lookup hlookup)) p _ hm)
  | none =>
      rw [hlookup] at hm
      cases required with
      | false => simp at hm
      | true =>
          obtain rfl : m = ⟨place, .missingRequired name⟩ := by simpa using hm
          exact .here ⟨members, rfl, lookup_eq_none_iff.mp hlookup⟩

theorem genuine_of_not_hasType {n : Node} {v : Value} (hv : v.IsJson) {site : String}
    (h : ¬ v.HasType n.typeName) {m : Mismatch}
    (hm : m ∈ (checkNode ⟨some document, settings⟩ n place site v).mismatches) :
    m.IsGenuine document settings.maxReferenceDepth place v := by
  rw [mismatches_of_not_hasType hv h] at hm
  obtain rfl : m = ⟨place, .wrongType n.typeName v⟩ := by simpa using hm
  exact .here ⟨rfl, h⟩

theorem onlyGenuine_of_isJson {v : Value} (hv : v.IsJson) : OnlyGenuine document settings v := by
  induction hv with
  | @scalar s hs =>
      intro n place site m hm
      by_cases htype : (Value.scalar s).HasType n.typeName
      · simp [mismatches_scalar htype] at hm
      · exact genuine_of_not_hasType (.scalar hs) htype hm
  | @arr elements each ih =>
      intro n place site m hm
      by_cases htype : (Value.arr elements).HasType n.typeName
      · obtain ⟨items, unsupported, rfl⟩ := exists_array_of_hasType htype
        rw [mismatches_array, List.mem_flatMap] at hm
        obtain ⟨entry, hentry, hm⟩ := hm
        have hpart : (Value.arr elements).part? (toString entry.2) = some entry.1 :=
          Value.part?_toString.trans (List.mem_zipIdx_iff_getElem?.mp hentry)
        exact .of_part hpart (ih entry.1 (List.fst_mem_of_mem_zipIdx hentry) items _ _ m hm)
      · exact genuine_of_not_hasType (.arr each) htype hm
  | @obj members keys each ih =>
      intro n place site m hm
      by_cases htype : (Value.obj members).HasType n.typeName
      · obtain ⟨properties, required, unsupported, rfl⟩ := exists_object_of_hasType htype
        rw [mismatches_object, List.mem_flatMap] at hm
        obtain ⟨entry, -, hm⟩ := hm
        exact genuine_of_mem_member ih hm
      · exact genuine_of_not_hasType (.obj keys each) htype hm

/-- Every mismatch of a JSON value with a schema in object form stands at the pointer to a
part of the value that has what it says wrong: the part is of another type, lacks a
required name, or meets a reference that cannot be followed. -/
theorem mismatch_genuine (d : Definition) (settings : Settings) {v : Value} (hv : v.IsJson)
    {m : Mismatch} (hm : m ∈ (validate (.definition d) settings v).mismatches) :
    Pointer.IsPointer m.place.toText.toList ∧
      ∃ w, v.at? m.place.toText = some w ∧
        ((m.kind = .typeMismatch ∧ m.actual? = some w ∧
            ∃ type : TypeName, m.expected? = some type.text ∧ ¬ w.HasType type) ∨
          (m.kind = .missingRequired ∧
            ∃ name members, m.expected? = some name ∧ w = .obj members ∧
              ¬ HasKey name members) ∨
          (m.kind = .unresolvedReference ∧ m.actual? = some w ∧
            ∃ reference e, m.expected? = some reference ∧
              Reference.dereference (.definition d) settings.maxReferenceDepth reference =
                .error e ∧ m.message = e.message)) := by
  refine ⟨Pointer.isPointer_toText m.place, ?_⟩
  obtain ⟨tokens, w, hplace, hw, htrue⟩ :
      m.IsGenuine (.definition d) settings.maxReferenceDepth .root v := by
    cases hd : d.specification with
    | none => simp [validate_untyped hd] at hm
    | some p =>
        rw [validate_typed hd, Findings.mismatches_report] at hm
        exact genuine_of_mem_meet (onlyGenuine_of_isJson hv) p _ hm
  have htokens : m.place.tokens = tokens := hplace
  refine ⟨w, by rw [Value.at?_toText, htokens, hw], ?_⟩
  obtain ⟨place, cause⟩ := m
  cases cause with
  | wrongType expected actual =>
      obtain ⟨rfl, htype⟩ := htrue
      exact .inl ⟨rfl, rfl, expected, rfl, htype⟩
  | missingRequired name =>
      obtain ⟨members, hobj, hkey⟩ := htrue
      exact .inr (.inl ⟨rfl, name, members, rfl, hobj, hkey⟩)
  | falseSchema actual => exact htrue.elim
  | unresolvedReference reference e actual =>
      obtain ⟨rfl, hends⟩ := htrue
      exact .inr (.inr ⟨rfl, rfl, reference, e, rfl, hends, rfl⟩)

theorem dangling_reference_genuine :
    ∃ d v m, v.IsJson ∧ m ∈ (validate (.definition d) ⟨5, .ignore⟩ v).mismatches ∧
      m.place.toText = "/a~1b/0/~01" ∧ m.kind = .unresolvedReference ∧
        ∃ w, v.at? m.place.toText = some w ∧ m.actual? = some w := by
  have hjson : (Value.obj [(.str "a/b", .arr [.obj [(.str "~1", .bool true)]])]).IsJson := by
    simp [Scalar.IsJson]
  have hm : ⟨⟨["a/b", "0", "~1"]⟩, .unresolvedReference "#/x"
      ⟨"#/x", .segmentDoesNotApply "x"⟩ (.bool true)⟩ ∈
      (validate (.definition (.mk none none none none
        (some (.node (.object [("a/b", .node (.array (.object [("~1", .reference "#/x")]
          none []) []))] none []))) none)) ⟨5, .ignore⟩
        (.obj [(.str "a/b", .arr [.obj [(.str "~1", .bool true)]])])).mismatches := .head _
  obtain ⟨-, w, hw, hcases⟩ := mismatch_genuine _ ⟨5, .ignore⟩ hjson hm
  refine ⟨_, _, _, hjson, hm, by decide +kernel, rfl, ?_⟩
  rcases hcases with ⟨hkind, -⟩ | ⟨hkind, -⟩ | ⟨-, hactual, -⟩
  · cases hkind
  · cases hkind
  · exact ⟨w, hw, hactual⟩

end StructuralSchema.Validation
