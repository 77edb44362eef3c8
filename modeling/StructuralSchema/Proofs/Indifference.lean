import StructuralSchema.Proofs.Inert
import StructuralSchema.Proofs.Visits

/-!
# What validation does not depend on

Against two schemas with the same skeleton a value has the same wrong and the same noted, up to
the order in which it is listed. The checks go through both schemas at once: they come to nodes
with the same skeleton at every part of the value, also where references lead.
-/

namespace StructuralSchema.Validation

structure Findings.Perm (f g : Findings) : Prop where
  mismatches : f.mismatches.Perm g.mismatches
  notices : f.notices.Perm g.notices

namespace Findings.Perm

theorem refl (f : Findings) : f.Perm f :=
  ⟨.refl _, .refl _⟩

theorem append {f f' g g' : Findings} (hf : f.Perm f') (hg : g.Perm g') :
    (f ++ g).Perm (f' ++ g') :=
  ⟨hf.mismatches.append hg.mismatches, hf.notices.append hg.notices⟩

theorem join_map {α : Type} {r : α → α → Prop} {xs ys : List (String × α)}
    (h : MapsRelate r xs ys) (hxs : (xs.map Prod.fst).Nodup) (hys : (ys.map Prod.fst).Nodup)
    {f g : String × α → Findings}
    (each : ∀ name a b, (name, a) ∈ xs → (name, b) ∈ ys → (f (name, a)).Perm (g (name, b))) :
    (join (xs.map f)).Perm (join (ys.map g)) := by
  constructor
  · rw [mismatches_join, mismatches_join, List.flatMap_map, List.flatMap_map]
    exact h.flatMap_perm hxs hys fun name a b ha hb => (each name a b ha hb).mismatches
  · rw [notices_join, notices_join, List.flatMap_map, List.flatMap_map]
    exact h.flatMap_perm hxs hys fun name a b ha hb => (each name a b ha hb).notices

end Findings.Perm

/-! ## One node -/

section Nodes

variable {n m : Node}

theorem matchesScalar_eq_of_sameSkeleton (h : n.SameSkeleton m) (s : Scalar) :
    matchesScalar n s = matchesScalar m s := by
  cases h with
  | @plain type _ _ _ => cases type <;> cases s <;> rfl
  | @numeric type _ _ _ _ _ => cases type <;> cases s <;> rfl
  | array _ _ => rfl
  | object _ _ _ _ => rfl

theorem notices_perm (h : n.SameSkeleton m) (hn : n.IsTidy) (hm : m.IsTidy)
    (s t : Option Schema) (settings : Settings) (site : String) :
    (Context.notices ⟨s, settings⟩ n site).Perm (Context.notices ⟨t, settings⟩ m site) := by
  obtain ⟨limit, policy⟩ := settings
  cases policy with
  | ignore => exact .refl _
  | report =>
      have hkeywords : (n.unsupported.map Prod.fst).Perm (m.unsupported.map Prod.fst) :=
        (List.perm_ext_iff_of_nodup hn.keywords hm.keywords).mpr h.keywords
      have hnotices := hkeywords.map fun k => Notice.mk site k
      rw [List.map_map, List.map_map] at hnotices
      exact hnotices

end Nodes

/-! ## A check against both schemas -/

variable {d e : Definition} {settings : Settings}

/-- Checks of the value against nodes with the same skeleton find the same up to its order. -/
def FindsSame (d e : Definition) (settings : Settings) (v : Value) : Prop :=
  ∀ (n m : Node) (place : Pointer) (site : String), d.HasPart (.node n) → e.HasPart (.node m) →
    n.SameSkeleton m →
    (checkNode ⟨some (.definition d), settings⟩ n place site v).Perm
      (checkNode ⟨some (.definition e), settings⟩ m place site v)

theorem meet_demand_perm (h : d.SameSkeleton e) {v : Value} (hv : FindsSame d e settings v)
    {p q : Property} (hpart : d.HasPart p) (hpart' : e.HasPart q) (hpq : p.SameSkeleton q)
    (place : Pointer) (site : String) :
    (Context.meet ⟨some (.definition d), settings⟩ place v
        (Context.demand ⟨some (.definition d), settings⟩ site p)).Perm
      (Context.meet ⟨some (.definition e), settings⟩ place v
        (Context.demand ⟨some (.definition e), settings⟩ site q)) := by
  cases hpq with
  | node hnm => exact hv _ _ place site hpart hpart' hnm
  | reference reference =>
      have houtcome :=
        Reference.dereference_sameSkeleton h settings.maxReferenceDepth reference
      simp only [Context.demand, Context.dereference]
      generalize hx :
        Reference.dereference (.definition d) settings.maxReferenceDepth reference = x at houtcome
      generalize hy :
        Reference.dereference (.definition e) settings.maxReferenceDepth reference = y at houtcome
      cases houtcome with
      | error error => exact .refl _
      | ok htarget =>
          cases htarget with
          | none => exact .refl _
          | some hnm =>
              exact hv _ _ place reference (Reference.hasPart_of_dereference hx)
                (Reference.hasPart_of_dereference hy) hnm

theorem noted_perm (hd : d.OnlyTidy) (he : e.OnlyTidy) {n m : Node}
    (hpart : d.HasPart (.node n)) (hpart' : e.HasPart (.node m)) (h : n.SameSkeleton m)
    (settings : Settings) (site : String) (found : List Mismatch) :
    Findings.Perm ⟨found, Context.notices ⟨some (.definition d), settings⟩ n site⟩
      ⟨found, Context.notices ⟨some (.definition e), settings⟩ m site⟩ :=
  ⟨.refl found, notices_perm h (hd.nodes n hpart) (he.nodes m hpart') _ _ settings site⟩

theorem checkElements_perm {n m : Node} {elements : List Value}
    (each : ∀ v ∈ elements, FindsSame d e settings v) (hpart : d.HasPart (.node n))
    (hpart' : e.HasPart (.node m)) (h : n.SameSkeleton m) (place : Pointer) (site : String)
    (index : ℕ) :
    (checkElements ⟨some (.definition d), settings⟩ n place site index elements).Perm
      (checkElements ⟨some (.definition e), settings⟩ m place site index elements) := by
  induction elements generalizing index with
  | nil =>
      simp only [checkElements]
      exact .refl _
  | cons v rest ih =>
      obtain ⟨hv, hrest⟩ := List.forall_mem_cons.mp each
      simp only [checkElements]
      exact (hv n m _ _ hpart hpart' h).append (ih hrest (index + 1))

theorem checkMember_perm (h : d.SameSkeleton e) {members : Members}
    (each : ∀ v ∈ members, FindsSame d e settings v.2) {p q : Property} (hpart : d.HasPart p)
    (hpart' : e.HasPart q) (hpq : p.SameSkeleton q) (name : String) (required : Bool)
    (place : Pointer) (site : String) :
    (checkMember ⟨some (.definition d), settings⟩ name p required place site members).Perm
      (checkMember ⟨some (.definition e), settings⟩ name q required place site members) := by
  rw [checkMember_eq_meet, checkMember_eq_meet]
  cases hlookup : lookup name members with
  | none => exact .refl _
  | some v => exact meet_demand_perm h (each _ (mem_of_lookup hlookup)) hpart hpart' hpq _ _

theorem findsSame_arr (hd : d.OnlyTidy) (he : e.OnlyTidy) (elements : List Value)
    (each : ∀ v ∈ elements, FindsSame d e settings v) :
    FindsSame d e settings (.arr elements) := by
  intro n m place site hpart hpart' hnm
  have hnoted := noted_perm hd he hpart hpart' hnm settings site
  have htype := hnm.typeName_eq
  cases hnm with
  | @array items others u v hitems _ =>
      simp only [checkNode]
      have hbelow := hpart.of_isPart (Property.isPart_items items u)
      have hbelow' := hpart'.of_isPart (Property.isPart_items others v)
      exact (checkElements_perm each hbelow hbelow' hitems place _ 0).append (hnoted [])
  | _ =>
      simp only [checkNode, htype]
      exact hnoted _

theorem findsSame_obj (h : d.SameSkeleton e) (hd : d.OnlyTidy) (he : e.OnlyTidy)
    (members : Members) (each : ∀ m ∈ members, FindsSame d e settings m.2) :
    FindsSame d e settings (.obj members) := by
  intro n m place site hpart hpart' hnm
  have hnoted := noted_perm hd he hpart hpart' hnm settings site
  have htype := hnm.typeName_eq
  have hnames := (hd.nodes n hpart).names
  have hnames' := (he.nodes m hpart').names
  have hproperties := hnm.properties
  cases hnm with
  | @object ps qs a b u v _ _ hrequired _ =>
      simp only [checkNode]
      refine Findings.Perm.append ?_ (hnoted [])
      refine Findings.Perm.join_map hproperties hnames hnames' ?_
      intro name p q hp hq
      have hmissed : (a.getD []).contains name = (b.getD []).contains name := by
        rw [Bool.eq_iff_iff, List.contains_iff_mem, List.contains_iff_mem]
        exact hrequired name
      simp only [hmissed]
      have hbelow := hpart.of_isPart (Property.isPart_of_mem hp a u)
      have hbelow' := hpart'.of_isPart (Property.isPart_of_mem hq b v)
      exact checkMember_perm h each hbelow hbelow' (hproperties.entries name p q hp hq) name _
        place site
  | _ =>
      simp only [checkNode, htype]
      exact hnoted _

theorem findsSame (h : d.SameSkeleton e) (hd : d.OnlyTidy) (he : e.OnlyTidy) (v : Value) :
    FindsSame d e settings v := by
  induction v using Value.partsInduction with
  | arr elements ih => exact findsSame_arr hd he elements ih
  | obj members ih => exact findsSame_obj h hd he members ih
  | pair v w hv hw =>
      intro n m place site hpart hpart' hnm
      have hnoted := noted_perm hd he hpart hpart' hnm settings site
      have htype := hnm.typeName_eq
      cases hnm with
      | @array items others u u' hitems _ =>
          simp only [checkNode]
          have hbelow := hpart.of_isPart (Property.isPart_items items u)
          have hbelow' := hpart'.of_isPart (Property.isPart_items others u')
          have hfirst := hv items others (place.child "0") (site ++ "/items") hbelow hbelow' hitems
          have hsecond := hw items others (place.child "1") (site ++ "/items") hbelow hbelow' hitems
          exact (hfirst.append hsecond).append (hnoted [])
      | _ =>
          simp only [checkNode, htype]
          exact hnoted _
  | loop number v ih =>
      intro n m place site hpart hpart' hnm
      simpa only [checkNode] using ih n m place site hpart hpart' hnm
  | scalar s =>
      intro n m place site hpart hpart' hnm
      have hnoted := noted_perm hd he hpart hpart' hnm settings site
      simp only [checkNode, matchesScalar_eq_of_sameSkeleton hnm,
        hnm.typeName_eq]
      split_ifs
      · exact hnoted _
      · exact hnoted _
  | set | endless =>
      intro n m place site hpart hpart' hnm
      have hnoted := noted_perm hd he hpart hpart' hnm settings site
      simp only [checkNode, hnm.typeName_eq]
      exact hnoted _

/-! ## Reports -/

theorem eraseDups_perm {α : Type} [DecidableEq α] {xs ys : List α} (h : xs.Perm ys) :
    xs.eraseDups.Perm ys.eraseDups := by
  refine (List.perm_ext_iff_of_nodup (firstOccurrences_eraseDups xs).nodup
    (firstOccurrences_eraseDups ys).nodup).mpr ?_
  intro a
  rw [List.mem_eraseDups, List.mem_eraseDups, h.mem_iff]

theorem validate_perm (h : d.SameSkeleton e) (hd : d.OnlyTidy) (he : e.OnlyTidy)
    (settings : Settings) (v : Value) :
    (validate (.definition d) settings v).mismatches.Perm
        (validate (.definition e) settings v).mismatches ∧
      (validate (.definition d) settings v).notices.Perm
        (validate (.definition e) settings v).notices := by
  obtain ⟨hspecification, -⟩ := Definition.sameSkeleton_iff.mp h
  generalize hp : d.specification = x at hspecification
  generalize hq : e.specification = y at hspecification
  cases hspecification with
  | none =>
      rw [validate_untyped hp, validate_untyped hq]
      exact ⟨.refl _, .refl _⟩
  | some hpq =>
      rw [validate_typed hp, validate_typed hq]
      have hsame : FindsSame d e settings v := findsSame h hd he v
      have hfound := meet_demand_perm h hsame (.specification hp .self) (.specification hq .self)
        hpq .root "#"
      exact ⟨hfound.mismatches, eraseDups_perm hfound.notices⟩

theorem isOk_eq_of_perm {r s : Report} (h : r.mismatches.Perm s.mismatches) : r.isOk = s.isOk :=
  h.isEmpty_eq

/-- Validation depends on the skeleton of a schema only: where two documents are read as schemas
with the same skeleton, every value has the same mismatches and the same notices up to their
order, and so the same verdict. Schemas that are equal have the same skeleton, and so have those
of documents that differ in the order of members or in what is inert. -/
theorem validate_perm_of_sameSkeleton {u w : Value} (hu : u.IsJson) (hw : w.IsJson)
    (hd : Schema.decode u = .ok (.definition d)) (he : Schema.decode w = .ok (.definition e)) :
    (d.SameSkeleton e → ∀ settings v,
        (validate (.definition d) settings v).mismatches.Perm
            (validate (.definition e) settings v).mismatches ∧
          (validate (.definition d) settings v).notices.Perm
            (validate (.definition e) settings v).notices ∧
          (validate (.definition d) settings v).isOk =
            (validate (.definition e) settings v).isOk) ∧
      (d.same e = true → d.SameSkeleton e) ∧ (u.DefinitionsAlike w → d.SameSkeleton e) := by
  have htidy := onlyTidy_of_decode hu hd
  have htidy' := onlyTidy_of_decode hw he
  refine ⟨?_, ?_, ?_⟩
  · intro h settings v
    obtain ⟨hmismatches, hnotices⟩ := validate_perm h htidy htidy' settings v
    exact ⟨hmismatches, hnotices, isOk_eq_of_perm hmismatches⟩
  · intro hsame
    exact Definition.sameSkeleton_of_same hsame htidy htidy'
  · intro halike
    exact sameSkeleton_of_definitionsAlike halike hu hw (decodeDefinition_of_decode hu hd)
      (decodeDefinition_of_decode hw he)

def boundedDocument : Value :=
  .obj [
    (.str "type", .str "object"),
    (.str "properties", .obj [
      (.str "a", .obj [(.str "type", .str "null")]),
      (.str "b", .obj [
        (.str "type", .str "integer"),
        (.str "exclusiveMinimum", .int 3),
        (.str "format", .str "year")])]),
    (.str "required", .arr [.str "a"])]

def unboundedDocument : Value :=
  .obj [
    (.str "required", .arr [.str "a"]),
    (.str "description", .str "unbounded"),
    (.str "properties", .obj [
      (.str "b", .obj [(.str "format", .null), (.str "type", .str "integer")]),
      (.str "a", .obj [(.str "type", .str "null")])]),
    (.str "type", .str "object")]

theorem boundedDocument_definitionsAlike :
    boundedDocument.DefinitionsAlike unboundedDocument := by
  refine .mk ?_ ?_ ?_ ?_ ?_
  · simp [IsTyped, HasKey]
  · intro _
    refine .node rfl rfl rfl rfl ?_ ?_ ?_ ?_
    · intro k
      cases k <;> simp [HasKey, Keyword.text]
    · intro v w hv
      simp [lookup] at hv
    · intro name
      rw [hasKey_iff_mem_keys, hasKey_iff_mem_keys]
      simp [membersUnder, lookup, or_comm]
    · intro name v w hv hw
      have hkeywords : ∀ k : Keyword,
          HasKey k.text [(.str "type", .str "integer"), (.str "exclusiveMinimum", .int 3),
            (.str "format", .str "year")] ↔
          HasKey k.text [(.str "format", .null), (.str "type", .str "integer")] := by
        intro k
        cases k <;> simp [HasKey, Keyword.text]
      have hfirst : (name = "a" ∧ v = .obj [(.str "type", .str "null")]) ∨
          (name = "b" ∧ v = .obj [(.str "type", .str "integer"),
            (.str "exclusiveMinimum", .int 3), (.str "format", .str "year")]) := by
        simpa [membersUnder, lookup] using hv
      rcases hfirst with ⟨rfl, rfl⟩ | ⟨rfl, rfl⟩
      · obtain rfl : w = .obj [(.str "type", .str "null")] := by
          simpa [membersUnder, lookup] using hw
        exact nodesAlike_of_leaf rfl rfl rfl rfl (fun k => Iff.rfl) rfl rfl rfl
      · obtain rfl : w = .obj [(.str "format", .null), (.str "type", .str "integer")] := by
          simpa [membersUnder, lookup] using hw
        exact nodesAlike_of_leaf rfl rfl rfl rfl hkeywords rfl rfl rfl
  · simp [lookup]
  · simp [membersUnder, lookup]
  · simp [membersUnder, lookup]

def misfit : Value :=
  .obj [(.str "a", .int 1), (.str "b", .str "x")]

theorem boundedDocument_validates_alike :
    boundedDocument.IsJson ∧ unboundedDocument.IsJson ∧
      boundedDocument.DefinitionsAlike unboundedDocument ∧
      ∃ d e, Schema.decode boundedDocument = .ok (.definition d) ∧
        Schema.decode unboundedDocument = .ok (.definition e) ∧ d.SameSkeleton e ∧
        (validate (.definition d) {} misfit).mismatches =
          [⟨⟨["a"]⟩, .wrongType .null (.int 1)⟩, ⟨⟨["b"]⟩, .wrongType .integer (.str "x")⟩] ∧
        (validate (.definition e) {} misfit).mismatches =
          [⟨⟨["b"]⟩, .wrongType .integer (.str "x")⟩, ⟨⟨["a"]⟩, .wrongType .null (.int 1)⟩] ∧
        (validate (.definition d) {} misfit).mismatches.Perm
          (validate (.definition e) {} misfit).mismatches := by
  have hjson : boundedDocument.IsJson := by simp [boundedDocument, Scalar.IsJson]
  have hjson' : unboundedDocument.IsJson := by simp [unboundedDocument, Scalar.IsJson]
  refine ⟨hjson, hjson', boundedDocument_definitionsAlike, _, _, rfl, rfl, ?_⟩
  obtain ⟨hreports, -, halike⟩ := validate_perm_of_sameSkeleton hjson hjson' rfl rfl
  have hskeleton := halike boundedDocument_definitionsAlike
  obtain ⟨hmismatches, -, -⟩ := hreports hskeleton {} misfit
  exact ⟨hskeleton, rfl, rfl, hmismatches⟩

end StructuralSchema.Validation
