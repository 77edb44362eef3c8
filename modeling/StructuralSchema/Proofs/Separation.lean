import StructuralSchema.Proofs.Mismatch
import StructuralSchema.Proofs.Parts

/-!
# Mismatches are told apart

What a check finds in a part of a value stands below the place of that part, and places below
different tokens differ. Two mismatches can only meet at one place where an object lacks two
names. So no violation is reported twice, and the texts of places tell all others apart.
-/

namespace StructuralSchema

namespace Pointer

/-- The place is the other one or lies below it. -/
def Covers (place below : Pointer) : Prop :=
  ∃ tokens, below.tokens = place.tokens ++ tokens

theorem covers_self (place : Pointer) : place.Covers place :=
  ⟨[], (List.append_nil _).symm⟩

theorem Covers.of_child {place below : Pointer} {token : String}
    (h : (place.child token).Covers below) : place.Covers below := by
  obtain ⟨tokens, htokens⟩ := h
  refine ⟨token :: tokens, ?_⟩
  rw [htokens, child, List.append_assoc, List.singleton_append]

theorem Covers.ne_of_child {place below : Pointer} {token : String}
    (h : (place.child token).Covers below) : below ≠ place := by
  rintro rfl
  obtain ⟨tokens, htokens⟩ := h
  have hlength := congrArg List.length htokens
  simp only [child, List.length_append, List.length_singleton] at hlength
  omega

theorem Covers.ne_of_ne {place p q : Pointer} {s t : String} (hp : (place.child s).Covers p)
    (hq : (place.child t).Covers q) (hst : s ≠ t) : p ≠ q := by
  rintro rfl
  obtain ⟨tokens, htokens⟩ := hp
  obtain ⟨others, hothers⟩ := hq
  have hsame : place.tokens ++ s :: tokens = place.tokens ++ t :: others := by
    simpa [child] using htokens.symm.trans hothers
  exact hst (List.cons.inj (List.append_cancel_left hsame)).1

theorem toString_injective : Function.Injective (toString : ℕ → String) := by
  intro i j h
  have hindex : some i = some j := by
    rw [← index?_toString i, ← index?_toString j, h]
  exact Option.some_inj.mp hindex

theorem toText_injective : Function.Injective toText := by
  intro p q h
  rw [← ofText_toText p, ← ofText_toText q, h]

end Pointer

namespace Validation

variable {d : Definition} {settings : Settings} {place : Pointer} {site : String}

/-- If the mismatches stand at one place, both are about missing names, and not about the
same one. -/
def Mismatch.Apart (a b : Mismatch) : Prop :=
  a.place = b.place →
    ∃ name other, a.cause = .missingRequired name ∧ b.cause = .missingRequired other ∧ name ≠ other

theorem Mismatch.apart_of_ne {a b : Mismatch} (h : a.place ≠ b.place) : a.Apart b :=
  fun hplace => absurd hplace h

theorem Mismatch.IsGenuine.covers {document : Schema} {limit : Int} {v : Value} {m : Mismatch}
    (h : m.IsGenuine document limit place v) : place.Covers m.place := by
  obtain ⟨tokens, -, hplace, -⟩ := h
  exact ⟨tokens, hplace⟩

def KeepsApart (d : Definition) (settings : Settings) (v : Value) : Prop :=
  ∀ (n : Node) (place : Pointer) (site : String), (Property.node n).OnlyTidy →
    (checkNode ⟨some (.definition d), settings⟩ n place site v).mismatches.Pairwise Mismatch.Apart

theorem pairwise_apart_meet {v : Value} (hd : d.OnlyTidy) (hv : KeepsApart d settings v)
    {p : Property} (hp : p.OnlyTidy) :
    (Context.meet ⟨some (.definition d), settings⟩ place v
      (Context.demand ⟨some (.definition d), settings⟩ site p)).mismatches.Pairwise
        Mismatch.Apart := by
  cases p with
  | node n => exact hv n place site hp
  | reference reference =>
      simp only [Context.demand, Context.dereference]
      cases hends : Reference.dereference (.definition d) settings.maxReferenceDepth reference with
      | error e => exact List.pairwise_singleton _ _
      | ok target =>
          cases target with
          | none => exact .nil
          | some n =>
              have hpart : d.HasPart (.node n) := Reference.hasPart_of_dereference hends
              exact hv n place reference fun m hm => hd.nodes m (hpart.of_isPart hm)

/-! ## Arrays and objects -/

section Elements

variable {items : Node} {unsupported : Annotations} {elements : List Value}

theorem covers_of_mem_element (json : ∀ v ∈ elements, v.IsJson) {entry : Value × ℕ}
    (hentry : entry ∈ elements.zipIdx) {m : Mismatch}
    (hm : m ∈ (checkNode ⟨some (.definition d), settings⟩ items
      (place.child (toString entry.2)) site entry.1).mismatches) :
    (place.child (toString entry.2)).Covers m.place := by
  have hv := json entry.1 (List.fst_mem_of_mem_zipIdx hentry)
  exact (onlyGenuine_of_isJson hv items _ _ m hm).covers

theorem pairwise_index_ne (elements : List Value) :
    elements.zipIdx.Pairwise fun a b => toString a.2 ≠ toString b.2 := by
  have hindexes : elements.zipIdx.Pairwise fun a b => a.2 ≠ b.2 := by
    rw [← List.pairwise_map, ← List.nodup_iff_pairwise_ne, List.zipIdx_map_snd]
    exact List.nodup_range'
  exact hindexes.imp fun hab heq => hab (Pointer.toString_injective heq)

theorem pairwise_apart_array (json : ∀ v ∈ elements, v.IsJson)
    (each : ∀ v ∈ elements, KeepsApart d settings v) (hitems : (Property.node items).OnlyTidy) :
    (checkNode ⟨some (.definition d), settings⟩ (.array items unsupported) place site
      (.arr elements)).mismatches.Pairwise Mismatch.Apart := by
  rw [mismatches_array, List.pairwise_flatMap]
  constructor
  · intro entry hentry
    exact each entry.1 (List.fst_mem_of_mem_zipIdx hentry) items _ _ hitems
  · refine (pairwise_index_ne elements).imp_of_mem ?_
    intro a b ha hb hab m hm m' hm'
    apply Mismatch.apart_of_ne
    exact (covers_of_mem_element json ha hm).ne_of_ne (covers_of_mem_element json hb hm') hab

end Elements

section Members

variable {members : Members} {name : String} {p : Property} {required : Bool}

/-- A mismatch that a property finds lies below the member of its name, or is about the name
itself, which is missing. -/
theorem covers_or_missing_of_mem_member (json : ∀ m ∈ members, m.2.IsJson) {m : Mismatch}
    (hm : m ∈ (checkMember ⟨some (.definition d), settings⟩ name p required place site
      members).mismatches) :
    (place.child name).Covers m.place ∨ m = ⟨place, .missingRequired name⟩ := by
  rw [checkMember_eq_meet] at hm
  cases hlookup : lookup name members with
  | some v =>
      rw [hlookup] at hm
      have hv := json _ (mem_of_lookup hlookup)
      exact .inl (genuine_of_mem_meet (onlyGenuine_of_isJson hv) p _ hm).covers
  | none =>
      rw [hlookup] at hm
      cases required with
      | false => simp at hm
      | true => exact .inr (by simpa using hm)

theorem apart_of_mem_members (json : ∀ m ∈ members, m.2.IsJson) {other : String} {q : Property}
    {needed : Bool} (hname : name ≠ other) {a b : Mismatch}
    (ha : a ∈ (checkMember ⟨some (.definition d), settings⟩ name p required place site
      members).mismatches)
    (hb : b ∈ (checkMember ⟨some (.definition d), settings⟩ other q needed place site
      members).mismatches) : a.Apart b := by
  -- Only two missing names share a place, that of the object; all other places differ.
  rcases covers_or_missing_of_mem_member json ha with hbelow | rfl
  · apply Mismatch.apart_of_ne
    rcases covers_or_missing_of_mem_member json hb with hbelow' | rfl
    · exact hbelow.ne_of_ne hbelow' hname
    · exact hbelow.ne_of_child
  · rcases covers_or_missing_of_mem_member json hb with hbelow' | rfl
    · exact Mismatch.apart_of_ne hbelow'.ne_of_child.symm
    · exact fun _ => ⟨name, other, rfl, rfl, hname⟩

theorem pairwise_apart_member (hd : d.OnlyTidy)
    (each : ∀ m ∈ members, KeepsApart d settings m.2) (hp : p.OnlyTidy) :
    (checkMember ⟨some (.definition d), settings⟩ name p required place site
      members).mismatches.Pairwise Mismatch.Apart := by
  rw [checkMember_eq_meet]
  cases hlookup : lookup name members with
  | some v => exact pairwise_apart_meet hd (each _ (mem_of_lookup hlookup)) hp
  | none =>
      cases required with
      | false => exact .nil
      | true => exact List.pairwise_singleton _ _

theorem pairwise_apart_object (hd : d.OnlyTidy) (json : ∀ m ∈ members, m.2.IsJson)
    (each : ∀ m ∈ members, KeepsApart d settings m.2) {properties : List (String × Property)}
    {required : Option (List String)} {unsupported : Annotations}
    (hn : (Property.node (.object properties required unsupported)).OnlyTidy) :
    (checkNode ⟨some (.definition d), settings⟩ (.object properties required unsupported) place
      site (.obj members)).mismatches.Pairwise Mismatch.Apart := by
  rw [mismatches_object, List.pairwise_flatMap]
  constructor
  · intro entry hentry
    have hentryTidy : entry.2.OnlyTidy := fun m hm =>
      hn m (hm.trans (Property.isPart_of_mem hentry required unsupported))
    exact pairwise_apart_member hd each hentryTidy
  · have hnames : properties.Pairwise fun a b => a.1 ≠ b.1 :=
      List.pairwise_map.mp (hn _ .self).names
    refine hnames.imp ?_
    intro a b hab m hm m' hm'
    exact apart_of_mem_members json hab hm hm'

end Members

theorem keepsApart_of_isJson (hd : d.OnlyTidy) {v : Value} (hv : v.IsJson) :
    KeepsApart d settings v := by
  -- The node stays free: below a property the check goes on with any node of the document.
  induction hv with
  | @scalar s hs =>
      intro n place site hn
      by_cases htype : (Value.scalar s).HasType n.typeName
      · rw [mismatches_scalar htype]
        exact .nil
      · rw [mismatches_of_not_hasType (.scalar hs) htype]
        exact List.pairwise_singleton _ _
  | @arr elements json ih =>
      intro n place site hn
      by_cases htype : (Value.arr elements).HasType n.typeName
      · obtain ⟨items, unsupported, rfl⟩ := exists_array_of_hasType htype
        have hitems : (Property.node items).OnlyTidy := fun m hm =>
          hn m (hm.trans (Property.isPart_items items unsupported))
        exact pairwise_apart_array json ih hitems
      · rw [mismatches_of_not_hasType (.arr json) htype]
        exact List.pairwise_singleton _ _
  | @obj members keys json ih =>
      intro n place site hn
      by_cases htype : (Value.obj members).HasType n.typeName
      · obtain ⟨properties, required, unsupported, rfl⟩ := exists_object_of_hasType htype
        exact pairwise_apart_object hd json ih hn
      · rw [mismatches_of_not_hasType (.obj keys json) htype]
        exact List.pairwise_singleton _ _

/-! ## Reports -/

theorem pairwise_apart_validate (settings : Settings) (hd : d.OnlyTidy) {v : Value}
    (hv : v.IsJson) :
    (validate (.definition d) settings v).mismatches.Pairwise Mismatch.Apart := by
  cases hspecification : d.specification with
  | none =>
      rw [validate_untyped hspecification]
      exact .nil
  | some p =>
      rw [validate_typed hspecification, Findings.mismatches_report]
      exact pairwise_apart_meet hd (keepsApart_of_isJson hd hv) (hd.specification hspecification)

theorem kind_of_mem_validate {v : Value} (hv : v.IsJson) {m : Mismatch}
    (hm : m ∈ (validate (.definition d) settings v).mismatches) :
    m.kind = .typeMismatch ∨ m.kind = .missingRequired ∨ m.kind = .unresolvedReference := by
  cases hspecification : d.specification with
  | none => simp [validate_untyped hspecification] at hm
  | some p =>
      rw [validate_typed hspecification, Findings.mismatches_report] at hm
      obtain ⟨tokens, w, hplace, hw, htrue⟩ :=
        genuine_of_mem_meet (onlyGenuine_of_isJson hv) p _ hm
      obtain ⟨place, cause⟩ := m
      cases cause with
      | wrongType expected actual => exact .inl rfl
      | missingRequired name => exact .inr (.inl rfl)
      | falseSchema actual => exact htrue.elim
      | unresolvedReference reference e actual => exact .inr (.inr rfl)

theorem Mismatch.expected?_missingRequired {m : Mismatch} {name : String}
    (h : m.cause = .missingRequired name) : m.expected? = some name := by
  simp [Mismatch.expected?, h]

theorem Mismatch.kind_missingRequired {m : Mismatch} {name : String}
    (h : m.cause = .missingRequired name) : m.kind = .missingRequired := by
  simp [Mismatch.kind, h]

/-- Mismatches that are told apart and stand at one place are a single one, or all of them are
about missing names, each about another one. -/
theorem single_or_missing_of_pairwise_apart {ms : List Mismatch} (h : ms.Pairwise Mismatch.Apart)
    (hplace : ∀ a ∈ ms, ∀ b ∈ ms, a.place = b.place) :
    (∃ m, ms = [m]) ∨
      (∀ m ∈ ms, m.kind = .missingRequired) ∧ (ms.map Mismatch.expected?).Nodup := by
  cases ms with
  | nil => exact .inr ⟨by simp, by simp⟩
  | cons first rest =>
      cases rest with
      | nil => exact .inl ⟨first, rfl⟩
      | cons second rest =>
          right
          -- With a second mismatch at its place the first one is about a missing name, and then
          -- so is every other one.
          obtain ⟨hfirst, -⟩ := List.pairwise_cons.mp h
          have hmissing : ∀ b ∈ second :: rest, ∃ name other,
              first.cause = .missingRequired name ∧ b.cause = .missingRequired other ∧
                name ≠ other := fun b hb =>
            hfirst b hb (hplace first List.mem_cons_self b (List.mem_cons_of_mem first hb))
          constructor
          · intro m hm
            rcases List.mem_cons.mp hm with rfl | hm
            · obtain ⟨name, -, hname, -⟩ := hmissing second List.mem_cons_self
              exact Mismatch.kind_missingRequired hname
            · obtain ⟨-, other, -, hother, -⟩ := hmissing m hm
              exact Mismatch.kind_missingRequired hother
          · rw [List.nodup_iff_pairwise_ne, List.pairwise_map]
            refine h.imp_of_mem ?_
            intro a b ha hb hab
            obtain ⟨name, other, hname, hother, hne⟩ := hab (hplace a ha b hb)
            rw [Mismatch.expected?_missingRequired hname,
              Mismatch.expected?_missingRequired hother]
            exact fun heq => hne (Option.some_inj.mp heq)

/-- Two mismatches of a report differ in the text of their place, in their kind or in what was
expected. What is reported at one place is a single value of a wrong type, or a single reference
that cannot be followed, or names that are missing, all of them different. -/
theorem mismatches_told_apart {document : Value} (hdocument : document.IsJson)
    (hd : Schema.decode document = .ok (.definition d)) (settings : Settings) {v : Value}
    (hv : v.IsJson) :
    ((validate (.definition d) settings v).mismatches.Pairwise fun a b =>
        ¬ (a.place.toText = b.place.toText ∧ a.kind = b.kind ∧ a.expected? = b.expected?)) ∧
      ∀ text here,
        (validate (.definition d) settings v).mismatches.filter
            (fun m => m.place.toText = text) = here →
          (∃ m, here = [m] ∧ m.kind = .typeMismatch) ∨
          (∃ m, here = [m] ∧ m.kind = .unresolvedReference) ∨
          ((∀ m ∈ here, m.kind = .missingRequired) ∧
            (here.map Mismatch.expected?).Nodup) := by
  have hapart := pairwise_apart_validate settings
    (onlyTidy_of_decode hdocument hd) hv
  constructor
  · refine hapart.imp ?_
    rintro a b hab ⟨htext, -, hexpected⟩
    obtain ⟨name, other, hname, hother, hne⟩ := hab (Pointer.toText_injective htext)
    rw [Mismatch.expected?_missingRequired hname, Mismatch.expected?_missingRequired hother]
      at hexpected
    exact hne (Option.some_inj.mp hexpected)
  · rintro text here rfl
    have hplace : ∀ m ∈ (validate (.definition d) settings v).mismatches.filter
        (fun m => m.place.toText = text), m.place.toText = text := fun m hm => by
      simpa using (List.mem_filter.mp hm).2
    rcases single_or_missing_of_pairwise_apart (hapart.filter _) (fun a ha b hb =>
      Pointer.toText_injective ((hplace a ha).trans (hplace b hb).symm)) with ⟨m, hm⟩ | hmissing
    · have hmem := List.mem_of_mem_filter (hm ▸ List.mem_singleton_self m)
      rw [hm]
      rcases kind_of_mem_validate hv hmem with hkind | hkind | hkind
      · exact .inl ⟨m, rfl, hkind⟩
      · exact .inr (.inr ⟨by simpa using hkind, by simp⟩)
      · exact .inr (.inl ⟨m, rfl, hkind⟩)
    · exact .inr (.inr hmissing)

def tableDocument : Value :=
  .obj [
    (.str "type", .str "object"),
    (.str "properties", .obj [
      (.str "a/b", .obj [
        (.str "type", .str "array"),
        (.str "items", .obj [
          (.str "type", .str "object"),
          (.str "properties", .obj [
            (.str "x", .obj [(.str "type", .str "null")]),
            (.str "", .obj [(.str "type", .str "null")])]),
          (.str "required", .arr [.str "", .str "x", .str "x"])])]),
      (.str "a", .obj [(.str "$ref", .str "#/definitions/b")])])]

def tableInstance : Value :=
  .obj [(.str "a", .null), (.str "a/b", .arr [.obj [], .bool true, .obj [(.str "x", .int 0)]])]

theorem tableInstance_mismatches_told_apart :
    tableDocument.IsJson ∧ tableInstance.IsJson ∧
      ∃ d, Schema.decode tableDocument = .ok (.definition d) ∧
        ((validate (.definition d) {} tableInstance).mismatches.map fun m =>
            (m.place.toText, m.kind, m.expected?)) =
          [("/a~1b/0", .missingRequired, some "x"), ("/a~1b/0", .missingRequired, some ""),
            ("/a~1b/1", .typeMismatch, some "object"), ("/a~1b/2/x", .typeMismatch, some "null"),
            ("/a~1b/2", .missingRequired, some ""),
            ("/a", .unresolvedReference, some "#/definitions/b")] ∧
        (validate (.definition d) {} tableInstance).mismatches.Pairwise fun a b =>
          ¬ (a.place.toText = b.place.toText ∧ a.kind = b.kind ∧ a.expected? = b.expected?) := by
  have hdocument : tableDocument.IsJson := by simp [tableDocument, Scalar.IsJson]
  have hinstance : tableInstance.IsJson := by simp [tableInstance, Scalar.IsJson]
  obtain ⟨d, hd, hreport⟩ : ∃ d, Schema.decode tableDocument = .ok (.definition d) ∧
      ((validate (.definition d) {} tableInstance).mismatches.map fun m =>
          (m.place.toText, m.kind, m.expected?)) =
        [("/a~1b/0", .missingRequired, some "x"), ("/a~1b/0", .missingRequired, some ""),
          ("/a~1b/1", .typeMismatch, some "object"), ("/a~1b/2/x", .typeMismatch, some "null"),
          ("/a~1b/2", .missingRequired, some ""),
          ("/a", .unresolvedReference, some "#/definitions/b")] :=
    ⟨_, rfl, by decide +kernel⟩
  exact ⟨hdocument, hinstance, d, hd, hreport,
    (mismatches_told_apart hdocument hd {} hinstance).1⟩

end Validation

end StructuralSchema
