import StructuralSchema.Proofs.Address
import StructuralSchema.Proofs.Lookup
import StructuralSchema.Proofs.Parts
import StructuralSchema.Proofs.PointerText
import StructuralSchema.Proofs.Visits

/-!
# Where notices point

The site of a node is read like a reference. It designates the node in the written schema as
long as every reference designates a node at once, no reference takes a shortcut past a property
called `properties`, and no name of a property reads as a percent escape. Past a chain of
references the site goes on from the first link, which holds nothing but the next reference.
-/

namespace StructuralSchema

theorem Text.eq_append_of_after? {lead text rest : List Char} (h : after? lead text = some rest) :
    text = lead ++ rest := by
  induction lead generalizing text with
  | nil => simpa [after?] using h
  | cons c lead ih =>
      cases text with
      | nil => simp [after?] at h
      | cons d text =>
          rw [after?] at h
          split_ifs at h with hc
          rw [hc, ih h, List.cons_append]

theorem Value.descend?_of_membersAt? {keys : List String} {v w : Value}
    (h : v.membersAt? keys = some w) : v.descend? keys = some w := by
  induction keys generalizing v with
  | nil => exact h
  | cons key rest ih =>
      obtain ⟨next, hnext, hrest⟩ := Option.bind_eq_some_iff.mp h
      have hpart : v.part? key = some next := by
        cases v <;> simp_all [Value.member?, Value.part?]
      rw [Value.descend?, hpart, Option.bind_some]
      exact ih hrest

theorem Value.membersAt?_append (front back : List String) (v : Value) :
    v.membersAt? (front ++ back) = (v.membersAt? front).bind (membersAt? back) := by
  induction front generalizing v with
  | nil => rfl
  | cons key rest ih =>
      rw [List.cons_append, Value.membersAt?, Value.membersAt?, Option.bind_assoc]
      cases v.member? key with
      | none => rfl
      | some next => exact ih next

namespace Validation

/-! ## Sites as text -/

/-- The segments of a site. The whole document has none. -/
def siteSegments? (site : String) : Option (List String) :=
  if site = "#" then some [] else Reference.segments? site

def readSegment (token : List Char) : String :=
  String.ofList (Pointer.unescapeChars (Text.Percent.decode token))

theorem siteSegments?_append {site : String} {segments : List String}
    (h : siteSegments? site = some segments) {token : List Char} (htoken : '/' ∉ token) :
    siteSegments? (site ++ String.ofList ('/' :: token)) =
      some (segments ++ [readSegment token]) := by
  have hlonger : site ++ String.ofList ('/' :: token) ≠ "#" := by
    intro heq
    have hchars := congrArg String.toList heq
    rw [String.toList_append, String.toList_ofList] at hchars
    have hslash : '/' ∈ "#".toList := hchars ▸ by simp
    exact absurd hslash (by decide)
  rw [siteSegments?, if_neg hlonger, Reference.segments?, String.toList_append,
    String.toList_ofList]
  unfold siteSegments? at h
  split_ifs at h with hsite
  · obtain rfl : [] = segments := by simpa using h
    rw [hsite]
    show some ((Text.pieces '/' token).map readSegment) = _
    rw [Pointer.pieces_of_notMem htoken]
    rfl
  · unfold Reference.segments? at h
    split at h
    · simp at h
    · rename_i path hpath
      obtain rfl : (Text.pieces '/' path).map readSegment = segments := Option.some_inj.mp h
      rw [Text.eq_append_of_after? hpath]
      show some ((Text.pieces '/' (path ++ '/' :: token)).map readSegment) = _
      rw [Pointer.pieces_append, Pointer.pieces_of_notMem htoken, List.map_append]
      rfl

/-- Reading the escapes of the name makes no more of it than its writing did. -/
def ReadsAsWritten (name : String) : Prop :=
  Text.Percent.decode (Pointer.escapeChars name.toList) = Pointer.escapeChars name.toList

theorem ReadsAsWritten.readSegment_eq {name : String} (h : ReadsAsWritten name) :
    readSegment (Pointer.escapeChars name.toList) = name := by
  rw [readSegment, h, Pointer.unescapeChars_escapeChars, String.ofList_toList]

theorem escapePercents_of_notMem {text : List Char} (h : '%' ∉ text) :
    Reference.escapePercents text = text := by
  induction text with
  | nil => rfl
  | cons c rest ih =>
      obtain ⟨hc, hrest⟩ : '%' ≠ c ∧ '%' ∉ rest := by simpa using h
      rw [Reference.escapePercents_cons, if_neg (Ne.symm hc), ih hrest, List.singleton_append]

theorem percent_notMem_escapeChars {name : List Char} (h : '%' ∉ name) :
    '%' ∉ Pointer.escapeChars name := by
  intro hmem
  obtain ⟨c, hc, hpercent⟩ := List.mem_flatMap.mp hmem
  split_ifs at hpercent
  · simp at hpercent
  · simp at hpercent
  · obtain rfl : '%' = c := by simpa using hpercent
    exact h hc

theorem readsAsWritten_of_notMem {name : String} (h : '%' ∉ name.toList) :
    ReadsAsWritten name := by
  have hplain := escapePercents_of_notMem (percent_notMem_escapeChars h)
  have hread := Reference.decode_escapePercents (Pointer.escapeChars name.toList)
  rwa [hplain] at hread

/-! ## Sites that hold -/

/-- Read as a way into the written schema, the site leads to an object that has the keyword. -/
def PointsAtKeyword (s : Schema) (n : Notice) : Prop :=
  ∃ segments members, siteSegments? n.place = some segments ∧
    s.encode.descend? segments = some (.obj members) ∧ HasKey n.keyword.text members

/-- The site leads to where the node is written. -/
def Stands (d : Definition) (site : String) (n : Node) : Prop :=
  ∃ segments position, siteSegments? site = some segments ∧
    (Schema.definition d).encode.membersAt? segments = some (Reference.Position.encode position) ∧
    position.property? = some (.node n)

variable {d : Definition} {site : String} {n : Node}

theorem stands_root (hd : d.specification = some (.node n)) : Stands d "#" n :=
  ⟨[], .definition d, rfl, rfl, hd⟩

theorem Stands.exists_encode (h : Stands d site n) {name : String} {v : Value}
    (hv : lookup name n.encode = some v) :
    ∃ segments members, siteSegments? site = some segments ∧
      (Schema.definition d).encode.membersAt? segments = some (.obj members) ∧
      lookup name members = some v := by
  obtain ⟨segments, position, hsegments, hat, hnode⟩ := h
  have hmember := Reference.member?_encode_of_property? hnode hv
  cases position with
  | definition e => exact ⟨segments, _, hsegments, hat, hmember⟩
  | property p => exact ⟨segments, _, hsegments, hat, hmember⟩
  | propertyMap entries => simp [Reference.Position.property?] at hnode
  | definitionMap entries => simp [Reference.Position.property?] at hnode

theorem Stands.items {items : Node} {unsupported : Annotations}
    (h : Stands d site (.array items unsupported)) : Stands d (site ++ "/items") items := by
  have hitems : lookup "items" (Node.array items unsupported).encode =
      some (.obj items.encode) := by simp [Node.encode]
  obtain ⟨segments, members, hsegments, hat, hmember⟩ := h.exists_encode hitems
  refine ⟨segments ++ ["items"], .property (.node items), ?_, ?_, rfl⟩
  · have hslash : '/' ∉ "items".toList := by decide
    exact siteSegments?_append hsegments hslash
  · rw [Value.membersAt?_append, hat]
    simp [Value.membersAt?, hmember, Reference.Position.encode, Property.encode]

theorem Stands.property {properties : List (String × Property)} {required : Option (List String)}
    {unsupported : Annotations} {name : String}
    (h : Stands d site (.object properties required unsupported))
    (hname : ReadsAsWritten name) (hlookup : properties.lookup name = some (.node n)) :
    Stands d (site ++ "/properties/" ++ Pointer.escape name) n := by
  have hproperties : lookup "properties" (Node.object properties required unsupported).encode =
      some (.obj (encodeProperties properties)) := by simp [Node.encode]
  obtain ⟨segments, members, hsegments, hat, hmember⟩ := h.exists_encode hproperties
  have hsite : site ++ "/properties/" ++ Pointer.escape name =
      site ++ String.ofList ('/' :: "properties".toList) ++
        String.ofList ('/' :: Pointer.escapeChars name.toList) := by
    apply String.toList_inj.mp
    simp [Pointer.escape]
  refine ⟨segments ++ ["properties"] ++ [name], .property (.node n), ?_, ?_, rfl⟩
  · have hslash : '/' ∉ "properties".toList := by decide
    have hentry := siteSegments?_append (siteSegments?_append hsegments hslash)
      (Pointer.isToken_escapeChars name.toList).slash_notMem
    rw [hsite, hentry, hname.readSegment_eq]
    rfl
  · rw [Value.membersAt?_append, Value.membersAt?_append, hat]
    simp [Value.membersAt?, hmember, lookup_encodeProperties, hlookup,
      Reference.Position.encode, Property.encode]

theorem stands_of_walk {reference : String}
    (h : Reference.walk (.definition d) reference = .ok (.property (.node n)))
    (hplain : ∀ segments, Reference.segments? reference = some segments →
      Reference.takesShortcut (.definition d) segments = false) : Stands d reference n := by
  obtain ⟨segments, position, hsegments, hsteps, htarget⟩ := Reference.walk_eq_ok_iff.mp h
  have hsite : siteSegments? reference = some segments := by
    have hreference : reference ≠ "#" := by
      rintro rfl
      have hnone : Reference.segments? "#" = none := rfl
      simp [hnone] at hsegments
    rw [siteSegments?, if_neg hreference, hsegments]
  exact ⟨segments, position, hsite,
    Reference.membersAt?_encode_of_steps hsteps (hplain segments hsegments),
    Reference.target?_eq_property_iff.mp htarget⟩

theorem Stands.pointsAtKeyword (h : Stands d site n) {entry : Keyword × Value}
    (hentry : entry ∈ n.unsupported) : PointsAtKeyword (.definition d) ⟨site, entry.1⟩ := by
  obtain ⟨v, hv⟩ : ∃ v, lookup entry.1.text n.encode = some v := by
    rw [lookup_text_encode, ← Option.isSome_iff_exists, ← Option.ne_none_iff_isSome]
    intro hnone
    have hother := List.lookup_eq_none_iff.mp hnone entry hentry
    simp at hother
  obtain ⟨segments, members, hsegments, hat, hmember⟩ := h.exists_encode hv
  exact ⟨segments, members, hsegments, Value.descend?_of_membersAt? hat, v,
    mem_of_lookup hmember⟩

/-! ## The sites of a check -/

/-- Every reference in the definition designates a node at once and by keys, and every name of a
property reads as it is written. -/
structure HasPlainSites (d : Definition) : Prop where
  direct : ∀ reference, d.HasPart (.reference reference) →
    ∀ next, Reference.walk (.definition d) reference ≠ .ok (.property (.reference next))
  spelled : ∀ reference, d.HasPart (.reference reference) →
    ∀ segments, Reference.segments? reference = some segments →
      Reference.takesShortcut (.definition d) segments = false
  names : ∀ n, d.HasPart (.node n) → ∀ entry ∈ n.properties, ReadsAsWritten entry.1

def KeepsSites (d : Definition) (limit : Int) (v : Value) : Prop :=
  ∀ (n : Node) (site : String), d.HasPart (.node n) → Stands d site n →
    ∀ visit ∈ nodeVisits (.definition d) limit n site v, Stands d visit.site visit.node

variable {limit : Int}

theorem stands_of_mem_propertyVisits (hplain : HasPlainSites d) {v : Value}
    (hv : KeepsSites d limit v) {p : Property} (hpart : d.HasPart p)
    (hsite : ∀ n, p = .node n → Stands d site n) {visit : Visit}
    (hvisit : visit ∈ propertyVisits (.definition d) limit p site v) :
    Stands d visit.site visit.node := by
  cases p with
  | node n => exact hv n site hpart (hsite n rfl) visit hvisit
  | reference reference =>
      simp only [propertyVisits] at hvisit
      split at hvisit
      · rename_i m hm
        have hwalk := Reference.walk_of_dereference hm (hplain.direct reference hpart)
        have hstands := stands_of_walk hwalk (hplain.spelled reference hpart)
        exact hv m reference (Reference.hasPart_of_dereference hm) hstands visit hvisit
      · simp at hvisit

theorem keepsSites_arr (elements : List Value) (each : ∀ v ∈ elements, KeepsSites d limit v) :
    KeepsSites d limit (.arr elements) := by
  intro n site hpart hstands visit hvisit
  cases n with
  | array items unsupported =>
      rw [nodeVisits, elementVisits_eq_flatMap] at hvisit
      rcases List.mem_append.mp hvisit with hbelow | hself
      · obtain ⟨v, hv, hvisit⟩ := List.mem_flatMap.mp hbelow
        have hitems := hpart.of_isPart (Property.isPart_items items unsupported)
        exact each v hv items _ hitems hstands.items visit hvisit
      · obtain rfl := List.mem_singleton.mp hself
        exact hstands
  | _ =>
      obtain rfl : visit = ⟨_, site⟩ := by simpa [nodeVisits] using hvisit
      exact hstands

theorem keepsSites_obj (htidy : d.OnlyTidy) (hplain : HasPlainSites d) (members : Members)
    (each : ∀ m ∈ members, KeepsSites d limit m.2) : KeepsSites d limit (.obj members) := by
  intro n site hpart hstands visit hvisit
  cases n with
  | object properties required unsupported =>
      rw [nodeVisits] at hvisit
      rcases List.mem_append.mp hvisit with hbelow | hself
      · obtain ⟨entry, hentry, hvisit⟩ := List.mem_flatMap.mp hbelow
        rw [memberVisits_eq_lookup] at hvisit
        cases hlookup : lookup entry.1 members with
        | none => simp [hlookup] at hvisit
        | some v =>
            rw [hlookup] at hvisit
            have hentered := hpart.of_isPart (Property.isPart_of_mem hentry required unsupported)
            refine stands_of_mem_propertyVisits hplain (each _ (mem_of_lookup hlookup)) hentered
              ?_ hvisit
            intro m hm
            have hfound := lookup_of_mem (htidy.nodes _ hpart).names hentry
            exact hstands.property (hplain.names _ hpart entry hentry) (hm ▸ hfound)
      · obtain rfl := List.mem_singleton.mp hself
        exact hstands
  | _ =>
      obtain rfl : visit = ⟨_, site⟩ := by simpa [nodeVisits] using hvisit
      exact hstands

theorem keepsSites (htidy : d.OnlyTidy) (hplain : HasPlainSites d) (v : Value) :
    KeepsSites d limit v := by
  induction v using Value.partsInduction with
  | arr elements ih => exact keepsSites_arr elements ih
  | obj members ih => exact keepsSites_obj htidy hplain members ih
  | pair v w hv hw =>
      -- A pair is looked at like an array of its two values.
      have hpair := keepsSites_arr [v, w] (by simpa using ⟨hv, hw⟩)
      intro n site hpart hstands visit hvisit
      refine hpair n site hpart hstands visit ?_
      cases n <;> simpa [nodeVisits, elementVisits] using hvisit
  | loop number v ih =>
      intro n site hpart hstands visit hvisit
      exact ih n site hpart hstands visit (by simpa only [nodeVisits] using hvisit)
  | scalar | set | endless =>
      intro n site hpart hstands visit hvisit
      obtain rfl : visit = ⟨n, site⟩ := by simpa [nodeVisits] using hvisit
      exact hstands

/-- In a document with plain sites every notice points at an object of the written schema that
has the keyword. -/
theorem notices_pointAtKeyword {u : Value} (hu : u.IsJson)
    (h : Schema.decode u = .ok (.definition d)) (hplain : HasPlainSites d) (settings : Settings)
    (v : Value) :
    ∀ notice ∈ (validate (.definition d) settings v).notices,
      PointsAtKeyword (.definition d) notice := by
  intro notice hnotice
  rw [notices_validate, List.mem_eraseDups] at hnotice
  obtain ⟨visit, hvisit, hnotice⟩ := List.mem_flatMap.mp hnotice
  have hstands : Stands d visit.site visit.node := by
    cases hd : d.specification with
    | none => simp [visits, Schema.rootNode?, Schema.definition?, hd] at hvisit
    | some p =>
        rw [visits, Schema.rootNode?, Schema.definition?, Option.bind_some, hd] at hvisit
        refine stands_of_mem_propertyVisits hplain (keepsSites (onlyTidy_of_decode hu h) hplain v)
          (.specification hd .self) ?_ hvisit
        rintro n rfl
        exact stands_root hd
  obtain ⟨limit, policy⟩ := settings
  cases policy with
  | ignore => simp [Visit.notices, Context.notices] at hnotice
  | report =>
      obtain ⟨entry, hentry, rfl⟩ := List.mem_map.mp hnotice
      exact hstands.pointsAtKeyword hentry

def rowsDocument : Definition :=
  .mk none none none none (some (.node (.object [("a/b", .reference "#/definitions/row")] none [])))
    (some [("row", .mk none none none none (some (.node (.object [("at", .node (.array
      (.plain .string [(.format, .str "date")]) []))] none []))) none)])

theorem hasPart_rowsDocument_iff {q : Property} :
    rowsDocument.HasPart q ↔
      q = .node (.object [("a/b", .reference "#/definitions/row")] none []) ∨
      q = .reference "#/definitions/row" ∨
      q = .node (.object [("at", .node (.array (.plain .string [(.format, .str "date")]) []))]
        none []) ∨
      q = .node (.array (.plain .string [(.format, .str "date")]) []) ∨
      q = .node (.plain .string [(.format, .str "date")]) := by
  simp [rowsDocument, or_assoc]

theorem hasPlainSites_rowsDocument : HasPlainSites rowsDocument := by
  have hreference : ∀ reference, rowsDocument.HasPart (.reference reference) →
      reference = "#/definitions/row" := by
    intro reference h
    simpa using hasPart_rowsDocument_iff.mp h
  constructor
  · intro reference h next hnext
    obtain rfl := hreference reference h
    cases hnext
  · intro reference h segments hsegments
    obtain rfl := hreference reference h
    obtain rfl : ["definitions", "row"] = segments := Option.some_inj.mp hsegments
    rfl
  · intro n h entry hentry
    have hname : entry.1 = "a/b" ∨ entry.1 = "at" := by
      rcases hasPart_rowsDocument_iff.mp h with h | h | h | h | h <;> cases h <;>
        simp_all [Node.properties]
    rcases hname with hname | hname
    · rw [hname]
      exact readsAsWritten_of_notMem (by decide)
    · rw [hname]
      exact readsAsWritten_of_notMem (by decide)

theorem rowsDocument_notice_points_at_format :
    (Schema.definition rowsDocument).encode.IsJson ∧ HasPlainSites rowsDocument ∧
      (validate (.definition rowsDocument) {}
          (.obj [(.str "a/b", .obj [(.str "at", .arr [.str "x", .str "y"])])])).notices =
        [⟨"#/definitions/row/properties/at/items", .format⟩] ∧
      PointsAtKeyword (.definition rowsDocument)
        ⟨"#/definitions/row/properties/at/items", .format⟩ := by
  have hjson : (Schema.definition rowsDocument).encode.IsJson := by
    simp [rowsDocument, Schema.encode, Definition.encode, encodeSpecification, Property.encode,
      Node.encode, encodeProperties, encodeDefinitions?, encodeDefinitions, optionalField, field,
      encodeUnsupported, Keyword.text, Scalar.IsJson]
  have hdecode : Schema.decode (Schema.definition rowsDocument).encode =
      .ok (.definition rowsDocument) := by rfl
  have hnotices : (validate (.definition rowsDocument) {}
      (.obj [(.str "a/b", .obj [(.str "at", .arr [.str "x", .str "y"])])])).notices =
      [⟨"#/definitions/row/properties/at/items", .format⟩] := by decide +kernel
  refine ⟨hjson, hasPlainSites_rowsDocument, hnotices, ?_⟩
  apply notices_pointAtKeyword hjson hdecode hasPlainSites_rowsDocument {}
    (.obj [(.str "a/b", .obj [(.str "at", .arr [.str "x", .str "y"])])])
  rw [hnotices]
  exact List.mem_singleton_self _

theorem not_pointsAtKeyword {s : Schema} {site : String} {segments : List String} (k : Keyword)
    (hsegments : siteSegments? site = some segments) (hnone : s.encode.descend? segments = none) :
    ¬ PointsAtKeyword s ⟨site, k⟩ := by
  rintro ⟨others, members, hothers, hat, -⟩
  obtain rfl : others = segments := by simpa [hothers] using hsegments
  simp [hnone] at hat

def linkedDocument : Definition :=
  .mk none none none none (some (.node (.object [("a", .reference "#/definitions/b")] none [])))
    (some [("b", .mk none none none none (some (.reference "#/definitions/c")) none),
      ("c", .mk none none none none
        (some (.node (.object [("x", .node (.plain .string [(.format, .str "date")]))] none [])))
        none)])

def percentDocument : Definition :=
  .mk none none none none
    (some (.node (.object [("%20", .node (.plain .string [(.format, .str "date")]))] none [])))
    none

def shortcutDocument : Definition :=
  .mk none none none none (some (.node (.object
    [("properties", .node (.object [("z", .node (.plain .string [(.format, .str "date")]))]
      none [])), ("b", .reference "#/properties/properties/z")] none []))) none

/-- Where one of the conditions fails, a notice points nowhere. -/
theorem notices_point_nowhere :
    (Schema.decode (Schema.definition linkedDocument).encode = .ok (.definition linkedDocument) ∧
        (validate (.definition linkedDocument) {}
            (.obj [(.str "a", .obj [(.str "x", .str "y")])])).notices =
          [⟨"#/definitions/b/properties/x", .format⟩] ∧
        ¬ PointsAtKeyword (.definition linkedDocument)
          ⟨"#/definitions/b/properties/x", .format⟩) ∧
      (Schema.decode (Schema.definition percentDocument).encode =
          .ok (.definition percentDocument) ∧
        (validate (.definition percentDocument) {} (.obj [(.str "%20", .str "y")])).notices =
          [⟨"#/properties/%20", .format⟩] ∧
        ¬ PointsAtKeyword (.definition percentDocument) ⟨"#/properties/%20", .format⟩) ∧
      (Schema.decode (Schema.definition shortcutDocument).encode =
          .ok (.definition shortcutDocument) ∧
        (validate (.definition shortcutDocument) {} (.obj [(.str "b", .str "y")])).notices =
          [⟨"#/properties/properties/z", .format⟩] ∧
        ¬ PointsAtKeyword (.definition shortcutDocument)
          ⟨"#/properties/properties/z", .format⟩) := by
  refine ⟨⟨rfl, by decide +kernel, ?_⟩, ⟨rfl, by decide +kernel, ?_⟩, rfl, by decide +kernel, ?_⟩
  · have hsegments : siteSegments? "#/definitions/b/properties/x" =
        some ["definitions", "b", "properties", "x"] := by rfl
    exact not_pointsAtKeyword .format hsegments rfl
  · have hsegments : siteSegments? "#/properties/%20" = some ["properties", " "] := by rfl
    exact not_pointsAtKeyword .format hsegments rfl
  · have hsegments : siteSegments? "#/properties/properties/z" =
        some ["properties", "properties", "z"] := by rfl
    exact not_pointsAtKeyword .format hsegments rfl

end Validation

end StructuralSchema
