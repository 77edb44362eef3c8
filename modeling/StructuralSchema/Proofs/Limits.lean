import StructuralSchema.Proofs.Chain
import StructuralSchema.Proofs.Mismatch
import StructuralSchema.Proofs.Verdict

/-!
# Limits of validation

Under a greater limit on chains of references a value is validated as under the smaller one,
unless the smaller one cut a chain off that the check came to. Two checks are kept in step: where
no chain was cut off, every property demands the same under both limits.
-/

namespace StructuralSchema.Validation

def Mismatch.IsCutOff (limit : Int) (m : Mismatch) : Prop :=
  ∃ reference last actual,
    m.cause = .unresolvedReference reference ⟨last, .chainTooLong limit⟩ actual

def Findings.IsUncut (limit : Int) (f : Findings) : Prop :=
  ∀ m ∈ f.mismatches, ¬ m.IsCutOff limit

section Uncut

variable {limit : Int}

theorem Findings.IsUncut.left {f g : Findings} (h : (f ++ g).IsUncut limit) : f.IsUncut limit :=
  fun m hm => h m (List.mem_append_left _ hm)

theorem Findings.IsUncut.of_mem_join {f : Findings} {fs : List Findings}
    (h : (Findings.join fs).IsUncut limit) (hf : f ∈ fs) : f.IsUncut limit := by
  intro m hm
  apply h m
  rw [Findings.mismatches_join]
  exact List.mem_flatMap.mpr ⟨f, hf, hm⟩

end Uncut

/-! ## Two checks in step -/

section Step

variable {document : Schema} {limit limit' : Int} {policy : Policy} {place : Pointer}
  {site : String}

/-- What the check of the value finds under the first limit without cutting a chain off, it finds
under the second. -/
def KeepsFindings (document : Schema) (limit limit' : Int) (policy : Policy) (v : Value) : Prop :=
  ∀ (n : Node) (place : Pointer) (site : String),
    (checkNode ⟨some document, limit, policy⟩ n place site v).IsUncut limit →
      checkNode ⟨some document, limit', policy⟩ n place site v =
        checkNode ⟨some document, limit, policy⟩ n place site v

theorem demand_eq_of_le (hle : limit ≤ limit') (p : Property) {v : Value}
    (h : (Context.meet ⟨some document, limit, policy⟩ place v
      (Context.demand ⟨some document, limit, policy⟩ site p)).IsUncut limit) :
    Context.demand ⟨some document, limit', policy⟩ site p =
      Context.demand ⟨some document, limit, policy⟩ site p := by
  cases p with
  | node n => rfl
  | reference reference =>
      have huncut :
          ¬ Reference.IsCutOff limit (Reference.dereference document limit reference) := by
        rintro ⟨last, hends⟩
        have hm : ⟨place, .unresolvedReference reference ⟨last, .chainTooLong limit⟩ v⟩ ∈
            (Context.meet ⟨some document, limit, policy⟩ place v
              (Context.demand ⟨some document, limit, policy⟩ site
                (.reference reference))).mismatches := by
          simp [Context.demand, Context.dereference, hends, Context.meet]
        exact h _ hm ⟨reference, last, v, rfl⟩
      have hsame : Reference.dereference document limit' reference =
          Reference.dereference document limit reference :=
        Reference.dereference_eq_of_le hle huncut
      simp only [Context.demand, Context.dereference, hsame]

theorem meet_eq_of_le (hle : limit ≤ limit') {v : Value}
    (hv : KeepsFindings document limit limit' policy v) (p : Property)
    (h : (Context.meet ⟨some document, limit, policy⟩ place v
      (Context.demand ⟨some document, limit, policy⟩ site p)).IsUncut limit) :
    Context.meet ⟨some document, limit', policy⟩ place v
        (Context.demand ⟨some document, limit', policy⟩ site p) =
      Context.meet ⟨some document, limit, policy⟩ place v
        (Context.demand ⟨some document, limit, policy⟩ site p) := by
  rw [demand_eq_of_le hle p h]
  generalize Context.demand ⟨some document, limit, policy⟩ site p = demand at h ⊢
  cases demand with
  | node n spot => exact hv n place spot h
  | anything => rfl
  | failed reference e => rfl

theorem keepsFindings_arr {elements : List Value}
    (each : ∀ v ∈ elements, KeepsFindings document limit limit' policy v) :
    KeepsFindings document limit limit' policy (.arr elements) := by
  intro n place site h
  cases n with
  | array items unsupported =>
      simp only [checkNode, checkElements_eq_join] at h ⊢
      have hjoin := h.left
      congr 2
      refine List.map_congr_left fun entry hentry => ?_
      have hv : entry.1 ∈ elements := List.fst_mem_of_mem_zipIdx hentry
      apply each entry.1 hv
      exact hjoin.of_mem_join (List.mem_map_of_mem hentry)
  | _ => rfl

theorem keepsFindings_obj (hle : limit ≤ limit') {members : Members}
    (each : ∀ m ∈ members, KeepsFindings document limit limit' policy m.2) :
    KeepsFindings document limit limit' policy (.obj members) := by
  intro n place site h
  cases n with
  | object properties required unsupported =>
      simp only [checkNode] at h ⊢
      have hjoin := h.left
      congr 2
      refine List.map_congr_left fun entry hentry => ?_
      have hmember := hjoin.of_mem_join (List.mem_map_of_mem hentry)
      rw [checkMember_eq_meet] at hmember
      rw [checkMember_eq_meet, checkMember_eq_meet]
      cases hlookup : lookup entry.1 members with
      | none => rfl
      | some v =>
          rw [hlookup] at hmember
          have hv : KeepsFindings document limit limit' policy v :=
            each _ (mem_of_lookup hlookup)
          exact meet_eq_of_le hle hv entry.2 hmember
  | _ => rfl

theorem keepsFindings (hle : limit ≤ limit') {v : Value} (hv : v.IsJson) :
    KeepsFindings document limit limit' policy v := by
  induction hv with
  | scalar hs =>
      intro n place site _
      rfl
  | arr _ ih => exact keepsFindings_arr ih
  | obj _ _ ih => exact keepsFindings_obj hle ih

end Step

/-! ## Reports -/

theorem validate_eq_of_le (s : Schema) {limit limit' : Int} (policy : Policy) {v : Value}
    (hv : v.IsJson) (hle : limit ≤ limit')
    (h : ∀ m ∈ (validate s ⟨limit, policy⟩ v).mismatches, ¬ m.IsCutOff limit) :
    validate s ⟨limit', policy⟩ v = validate s ⟨limit, policy⟩ v := by
  cases s with
  | boolean b => cases b <;> rfl
  | definition d =>
      cases hd : d.specification with
      | none => rw [validate_untyped hd, validate_untyped hd]
      | some p =>
          rw [validate_typed hd] at h
          rw [validate_typed hd, validate_typed hd, meet_eq_of_le hle (keepsFindings hle hv) p h]

/-- A limit above the number of different references cuts nothing off that a value comes to. -/
theorem not_isCutOff_of_mem_validate {s : Schema} {limit : Int} {policy : Policy} {v : Value}
    (hv : v.IsJson) (hlimit : s.references.dedup.length < limit) {m : Mismatch}
    (hm : m ∈ (validate s ⟨limit, policy⟩ v).mismatches) : ¬ m.IsCutOff limit := by
  rintro ⟨reference, last, actual, hcause⟩
  cases s with
  | boolean b =>
      cases b with
      | true => simp [validate] at hm
      | false =>
          obtain rfl : m = ⟨.root, .falseSchema v⟩ := by simpa [validate] using hm
          cases hcause
  | definition d =>
      cases hd : d.specification with
      | none => simp [validate_untyped hd] at hm
      | some p =>
          rw [validate_typed hd, Findings.mismatches_report] at hm
          obtain ⟨tokens, w, -, -, htrue⟩ :=
            genuine_of_mem_meet (onlyGenuine_of_isJson hv) p _ hm
          rw [hcause] at htrue
          obtain ⟨-, hends⟩ := htrue
          exact Reference.not_isCutOff_dereference hlimit limit reference ⟨last, hends⟩

/-- A report in which no reference failed for the length of its chain is the report under every
greater limit as well. So a value that is valid stays valid when the limit is raised, and all
limits above the number of different references in the document give one report. -/
theorem validation_stabilises (s : Schema) (policy : Policy) {v : Value} (hv : v.IsJson) :
    (∀ limit limit' : Int, limit ≤ limit' →
        (∀ m ∈ (validate s ⟨limit, policy⟩ v).mismatches, ¬ m.IsCutOff limit) →
        validate s ⟨limit', policy⟩ v = validate s ⟨limit, policy⟩ v) ∧
      (∀ limit limit' : Int, limit ≤ limit' → (validate s ⟨limit, policy⟩ v).isOk = true →
        (validate s ⟨limit', policy⟩ v).isOk = true) ∧
      ∀ limit limit' : Int, s.references.dedup.length < limit →
        s.references.dedup.length < limit' →
        validate s ⟨limit, policy⟩ v = validate s ⟨limit', policy⟩ v := by
  refine ⟨fun limit limit' hle h => validate_eq_of_le s policy hv hle h, ?_, ?_⟩
  · intro limit limit' hle hok
    have hnone : (validate s ⟨limit, policy⟩ v).mismatches = [] := Report.isOk_iff.mp hok
    have hsame : validate s ⟨limit', policy⟩ v = validate s ⟨limit, policy⟩ v := by
      apply validate_eq_of_le s policy hv hle
      simp [hnone]
    rw [hsame]
    exact hok
  · intro limit limit' h h'
    rcases Int.le_total limit limit' with hle | hle
    · exact (validate_eq_of_le s policy hv hle fun m hm =>
        not_isCutOff_of_mem_validate hv h hm).symm
    · exact validate_eq_of_le s policy hv hle fun m hm =>
        not_isCutOff_of_mem_validate hv h' hm

def relayedText : Schema :=
  .definition (.mk none none none none
    (some (.node (.object [("a", .reference "#/properties/b"), ("b", .reference "#/properties/c"),
      ("c", .node (.plain .string [(.format, .str "date")]))] none []))) none)

theorem relayedText_stabilises :
    relayedText.references.dedup.length < (3 : Int) ∧
      (validate relayedText ⟨1, .report⟩ (.obj [(.str "a", .int 5)])).mismatches =
        [⟨⟨["a"]⟩, .unresolvedReference "#/properties/b" ⟨"#/properties/c", .chainTooLong 1⟩
          (.int 5)⟩] ∧
      (validate relayedText ⟨2, .report⟩ (.obj [(.str "a", .int 5)])).mismatches =
        [⟨⟨["a"]⟩, .wrongType .string (.int 5)⟩] ∧
      validate relayedText ⟨7, .report⟩ (.obj [(.str "a", .int 5)]) =
        validate relayedText ⟨2, .report⟩ (.obj [(.str "a", .int 5)]) ∧
      (validate relayedText ⟨7, .ignore⟩ (.obj [(.str "a", .str "x")])).isOk = true ∧
      validate relayedText ⟨3, .report⟩ (.obj [(.str "b", .null)]) =
        validate relayedText ⟨100, .report⟩ (.obj [(.str "b", .null)]) := by
  have hcount : relayedText.references.dedup.length < (3 : Int) := by decide
  have hnumber : (Value.obj [(.str "a", .int 5)]).IsJson := by simp [Scalar.IsJson]
  have htext : (Value.obj [(.str "a", .str "x")]).IsJson := by simp [Scalar.IsJson]
  have hnull : (Value.obj [(.str "b", .null)]).IsJson := by simp [Scalar.IsJson]
  have htwo : (validate relayedText ⟨2, .report⟩ (.obj [(.str "a", .int 5)])).mismatches =
      [⟨⟨["a"]⟩, .wrongType .string (.int 5)⟩] := by rfl
  have huncut : ∀ m ∈ (validate relayedText ⟨2, .report⟩ (.obj [(.str "a", .int 5)])).mismatches,
      ¬ m.IsCutOff 2 := by
    rw [htwo]
    rintro m hm ⟨reference, last, actual, hcause⟩
    obtain rfl := List.mem_singleton.mp hm
    cases hcause
  obtain ⟨hgreater, -, -⟩ := validation_stabilises relayedText .report hnumber
  obtain ⟨-, hvalid, -⟩ := validation_stabilises relayedText .ignore htext
  obtain ⟨-, -, hall⟩ := validation_stabilises relayedText .report hnull
  exact ⟨hcount, by rfl, htwo, hgreater 2 7 (by decide) huncut,
    hvalid 2 7 (by decide) (by rfl), hall 3 100 hcount (by omega)⟩

end StructuralSchema.Validation
