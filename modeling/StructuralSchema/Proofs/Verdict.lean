import StructuralSchema.Proofs.Check

/-!
# Verdicts

A report without mismatches says that the value conforms to the schema, and one with
mismatches that it does not. Every check inside another is on a part of the value, so
the induction is on the value and passes through references without a measure of them.
-/

namespace StructuralSchema.Validation

variable {document : Schema} {settings : Settings} {place : Pointer}

def DecidesNodes (document : Schema) (settings : Settings) (v : Value) : Prop :=
  ∀ (n : Node) (place : Pointer) (site : String),
    (checkNode ⟨some document, settings⟩ n place site v).mismatches = [] ↔
      n.Accepts document settings.maxReferenceDepth v

/-- A property is met as soon as nodes are decided, whatever its reference leads to. -/
theorem meet_demand_eq_nil_iff {v : Value} (hv : DecidesNodes document settings v)
    (p : Property) (site : String) :
    (Context.meet ⟨some document, settings⟩ place v
        (Context.demand ⟨some document, settings⟩ site p)).mismatches = [] ↔
      p.Accepts document settings.maxReferenceDepth v := by
  cases p with
  | node n =>
      refine (hv n place site).trans ⟨.node, ?_⟩
      intro h
      cases h with
      | node h => exact h
  | reference reference =>
      simp only [Context.demand, Context.dereference]
      cases hends : Reference.dereference document settings.maxReferenceDepth reference with
      | error e =>
          simp only [Context.meet, Findings.mismatches_mismatch, List.cons_ne_self, false_iff]
          intro h
          cases h with
          | target hends' _ | anything hends' => simp [hends] at hends'
      | ok target =>
          cases target with
          | none => simpa [Context.meet] using Property.Accepts.anything hends
          | some n =>
              refine (hv n place reference).trans ⟨.target hends, ?_⟩
              intro h
              cases h with
              | target hends' h' =>
                  obtain rfl : n = _ := by simpa [hends] using hends'
                  exact h'
              | anything hends' => simp [hends] at hends'

theorem mismatches_object_eq_nil_iff {properties : List (String × Property)}
    {required : Option (List String)} {unsupported : Annotations} {members : Members}
    {site : String} (keys : HasTextKeys members)
    (each : ∀ m ∈ members, DecidesNodes document settings m.2) :
    (checkNode ⟨some document, settings⟩ (.object properties required unsupported) place site
        (.obj members)).mismatches = [] ↔
      (Node.object properties required unsupported).Accepts document
        settings.maxReferenceDepth (.obj members) := by
  rw [mismatches_object, List.flatMap_eq_nil_iff]
  constructor
  · intro h
    refine .object ?_ ?_
    · intro entry hentry v hv
      have hlookup := (lookup_eq_some_iff keys).mpr hv
      have hmeet := h entry hentry
      simp only [checkMember_eq_meet, hlookup] at hmeet
      exact (meet_demand_eq_nil_iff (each _ hv) entry.2 _).mp hmeet
    · intro entry hentry hneeded
      by_contra hkey
      have hmissing := h entry hentry
      simp [checkMember_eq_meet, lookup_eq_none_iff.mpr hkey, hneeded] at hmissing
  · intro h entry hentry
    cases h with
    | object present needed =>
        rw [checkMember_eq_meet]
        cases hlookup : lookup entry.1 members with
        | some v =>
            have hv := mem_of_lookup hlookup
            exact (meet_demand_eq_nil_iff (each _ hv) entry.2 _).mpr
              (present entry hentry v hv)
        | none =>
            have hfree : entry.1 ∉ required.getD [] := fun hneeded =>
              lookup_eq_none_iff.mp hlookup (needed entry hentry hneeded)
            simp [hfree]

theorem mismatches_array_eq_nil_iff {items : Node} {unsupported : Annotations}
    {elements : List Value} {site : String}
    (each : ∀ v ∈ elements, DecidesNodes document settings v) :
    (checkNode ⟨some document, settings⟩ (.array items unsupported) place site
        (.arr elements)).mismatches = [] ↔
      (Node.array items unsupported).Accepts document settings.maxReferenceDepth
        (.arr elements) := by
  rw [mismatches_array, List.flatMap_eq_nil_iff]
  constructor
  · intro h
    refine .array fun v hv => ?_
    obtain ⟨i, hi⟩ := List.mem_iff_getElem?.mp hv
    exact (each v hv items _ _).mp (h _ (List.mk_mem_zipIdx_iff_getElem?.mpr hi))
  · intro h entry hentry
    have hv := List.fst_mem_of_mem_zipIdx hentry
    cases h with
    | array hall => exact (each _ hv items _ _).mpr (hall _ hv)

/-- A value of another type is neither accepted nor let through. -/
theorem mismatches_eq_nil_iff_of_not_hasType {n : Node} {v : Value} {site : String}
    (hv : v.IsJson) (h : ¬ v.HasType n.typeName) :
    (checkNode ⟨some document, settings⟩ n place site v).mismatches = [] ↔
      n.Accepts document settings.maxReferenceDepth v := by
  rw [mismatches_of_not_hasType hv h]
  exact ⟨fun hnil => absurd hnil (List.cons_ne_nil _ _), fun haccepts =>
    absurd haccepts.hasType h⟩

theorem decidesNodes_of_isJson {v : Value} (hv : v.IsJson) :
    DecidesNodes document settings v := by
  -- The node stays free: a reference on a part may lead back to any node of the document.
  induction hv with
  | @scalar s hs =>
      intro n place site
      by_cases htype : (Value.scalar s).HasType n.typeName
      · exact iff_of_true (mismatches_scalar htype) (.of_scalar htype)
      · exact mismatches_eq_nil_iff_of_not_hasType (.scalar hs) htype
  | @arr elements each ih =>
      intro n place site
      by_cases htype : (Value.arr elements).HasType n.typeName
      · obtain ⟨items, unsupported, rfl⟩ := exists_array_of_hasType htype
        exact mismatches_array_eq_nil_iff ih
      · exact mismatches_eq_nil_iff_of_not_hasType (.arr each) htype
  | @obj members keys each ih =>
      intro n place site
      by_cases htype : (Value.obj members).HasType n.typeName
      · obtain ⟨properties, required, unsupported, rfl⟩ := exists_object_of_hasType htype
        exact mismatches_object_eq_nil_iff keys ih
      · exact mismatches_eq_nil_iff_of_not_hasType (.obj keys each) htype

theorem Report.isOk_iff {r : Report} : r.isOk = true ↔ r.mismatches = [] :=
  List.isEmpty_iff

/-- A JSON value conforms to a schema exactly if its validation finds nothing wrong. -/
theorem validate_isOk_iff_accepts (s : Schema) (settings : Settings) {v : Value}
    (hv : v.IsJson) :
    (validate s settings v).isOk = true ↔ s.Accepts settings.maxReferenceDepth v := by
  rw [Report.isOk_iff]
  cases s with
  | boolean b =>
      cases b with
      | true => exact iff_of_true rfl (.everything v)
      | false => exact iff_of_false (List.cons_ne_nil _ _) (by rintro ⟨⟩)
  | definition d =>
      cases hd : d.specification with
      | none => exact iff_of_true (by rw [validate_untyped hd]) (.untyped hd v)
      | some p =>
          rw [validate_typed hd, Findings.mismatches_report,
            meet_demand_eq_nil_iff (decidesNodes_of_isJson hv)]
          refine ⟨.typed hd, ?_⟩
          intro h
          cases h with
          | untyped hd' => simp [hd] at hd'
          | typed hd' hp =>
              obtain rfl : p = _ := by simpa [hd] using hd'
              exact hp

theorem two_links_accepted :
    (Value.obj [(.str "next", .obj [(.str "load", .float (.ofInt 3))])]).IsJson ∧
      (Schema.definition (.mk none none none none
        (some (.node (.object [("next", .reference "#/definitions/link"),
          ("load", .node (.numeric .integer none []))] (some ["title"]) [])))
        (some [("link", .mk none none none none
          (some (.node (.object [("next", .reference "#/definitions/link"),
            ("load", .node (.numeric .integer none []))] (some ["load"]) []))) none)]))).Accepts
        1 (.obj [(.str "next", .obj [(.str "load", .float (.ofInt 3))])]) := by
  have hjson : (Value.obj [(.str "next", .obj [(.str "load", .float (.ofInt 3))])]).IsJson := by
    simp [Scalar.IsJson]
  exact ⟨hjson, (validate_isOk_iff_accepts _ ⟨1, .report⟩ hjson).mp (by decide +kernel)⟩

end StructuralSchema.Validation
