import Mathlib.Tactic.SplitIfs
import StructuralSchema.Proofs.Segments
import StructuralSchema.Proofs.Walk
import StructuralSchema.Schema.Decode

/-!
# Addresses of nodes

The parts of a schema are found by moves: into a definition, into a property, into the
items of an array. A path of moves is written as a reference, and the walk of that
reference ends where the moves do. Names may hold any characters; only a property that is
called like one of the keywords `properties` and `items` stands in the way, since within a
map of properties these keep their meaning.
-/

namespace StructuralSchema.Reference

/-! ## References as text -/

def escapePercents (text : List Char) : List Char :=
  text.flatMap fun c => if c = '%' then ['%', '2', '5'] else [c]

def writeSegment (segment : String) : List Char :=
  escapePercents (Pointer.escapeChars segment.toList)

def writeSegments (segments : List String) : String :=
  String.ofList ('#' :: '/' :: Text.joinPieces '/' (segments.map writeSegment))

theorem escapePercents_cons (c : Char) (text : List Char) :
    escapePercents (c :: text) =
      (if c = '%' then ['%', '2', '5'] else [c]) ++ escapePercents text := rfl

theorem writes_escapePercents (text : List Char) :
    Text.Percent.Writes text (escapePercents text) := by
  induction text with
  | nil => exact .nil
  | cons c text ih =>
      rw [escapePercents_cons]
      split_ifs with hc
      · subst hc
        exact .escaped (.cons (.inl rfl) (.inl rfl) .nil) ih
      · exact .plain hc ih

theorem decode_escapePercents (text : List Char) :
    Text.Percent.decode (escapePercents text) = text :=
  Text.Percent.decode_of_writes (writes_escapePercents text)

theorem writesSegment_writeSegment (segment : String) :
    WritesSegment segment (writeSegment segment) := by
  rw [WritesSegment, Pointer.escape, String.toList_ofList]
  exact writes_escapePercents (Pointer.escapeChars segment.toList)

/-- The segments of a reference are read as they were written. -/
theorem segments?_writeSegments {segments : List String} (hne : segments ≠ []) :
    segments? (writeSegments segments) = some segments := by
  have hwrites : List.Forall₂ WritesSegment segments (segments.map writeSegment) :=
    List.forall₂_map_right_iff.mpr
      (List.forall₂_same.mpr fun segment _ => writesSegment_writeSegment segment)
  obtain ⟨hslash, hread⟩ := read_of_writesSegments hwrites
  rw [writeSegments, segments?_joinPieces (by simpa using hne) hslash, hread]

example : writeSegments ["definitions", "a/b", "properties", "~1%"] =
    "#/definitions/a~1b/properties/~01%25" := by decide +kernel

/-! ## Paths of moves -/

inductive Move
  | definition (name : String)
  | property (name : String)
  | items
  deriving DecidableEq, Repr

/-- The moves lead from one part of a schema to another. A definition that gives the type of
objects or of arrays has the properties or the items of that type. -/
inductive Leads : Position → List Move → Position → Prop
  | here (position : Position) : Leads position [] position
  | definition {d e : Definition} {entries : List (String × Definition)} {name : String}
      {moves : List Move} {last : Position} (hentries : d.definitions = some entries)
      (h : entries.lookup name = some e) (hrest : Leads (.definition e) moves last) :
      Leads (.definition d) (.definition name :: moves) last
  | property {position last : Position} {entries : List (String × Property)}
      {required : Option (List String)} {unsupported : Annotations} {name : String}
      {p : Property} {moves : List Move}
      (hnode : position.property? = some (.node (.object entries required unsupported)))
      (h : entries.lookup name = some p) (hrest : Leads (.property p) moves last) :
      Leads position (.property name :: moves) last
  | items {position last : Position} {items : Node} {unsupported : Annotations}
      {moves : List Move} (hnode : position.property? = some (.node (.array items unsupported)))
      (hrest : Leads (.property (.node items)) moves last) :
      Leads position (.items :: moves) last

def Move.segments : Move → List String
  | .definition name => ["definitions", name]
  | .property name => ["properties", name]
  | .items => ["items"]

/-- A move as a walk takes it: past a property called `properties` leads the keyword alone. -/
def Move.shortSegments : Move → List String
  | .property name => if name = "properties" then ["properties"] else ["properties", name]
  | move => move.segments

theorem Move.shortSegments_eq_segments {move : Move} (h : move ≠ .property "properties") :
    move.shortSegments = move.segments := by
  cases move with
  | property name => exact if_neg fun hname : name = "properties" => h (by rw [hname])
  | definition name => rfl
  | items => rfl

theorem Move.exists_shortSegments_property (name : String) :
    ∃ more, (Move.property name).shortSegments = "properties" :: more := by
  by_cases hname : name = "properties"
  · exact ⟨[], if_pos hname⟩
  · exact ⟨[name], if_neg hname⟩

theorem flatMap_shortSegments_ne_nil {moves : List Move} (h : moves ≠ []) :
    moves.flatMap Move.shortSegments ≠ [] := by
  cases moves with
  | nil => exact absurd rfl h
  | cons move rest =>
      cases move with
      | property name =>
          obtain ⟨more, hmore⟩ := Move.exists_shortSegments_property name
          simp [hmore]
      | definition name => simp [Move.shortSegments, Move.segments]
      | items => simp [Move.shortSegments, Move.segments]

/-- No property on the path is called `items`, and one called `properties` is passed only on
the way to one of its own properties. -/
def IsPassable : List Move → Prop
  | [] => True
  | .property name :: moves =>
    name ≠ "items" ∧
      (name = "properties" → ∃ next others, moves = .property next :: others) ∧
      IsPassable moves
  | _ :: moves => IsPassable moves

theorem steps_shortSegments {position last : Position} {moves : List Move}
    (h : Leads position moves last) (hpass : IsPassable moves) :
    steps position (moves.flatMap Move.shortSegments) = .ok last := by
  induction h with
  | here position => rfl
  | definition hentries h hrest ih =>
      show steps _ ("definitions" :: _ :: _) = _
      rw [steps_cons_of_step (.definitions hentries), steps_cons_of_step (.entry h)]
      exact ih hpass
  | @property position last entries required unsupported name p moves hnode h hrest ih =>
      obtain ⟨hitems, hthrough, hpass⟩ := hpass
      rw [List.flatMap_cons]
      by_cases hname : name = "properties"
      · -- The map of properties is left by the shortcut, just as the property of that name
        -- would be left by the next move.
        subst hname
        obtain ⟨next, others, rfl⟩ := hthrough rfl
        obtain ⟨more, hmore⟩ := Move.exists_shortSegments_property next
        have hlater := ih hpass
        rw [List.flatMap_cons, hmore, List.cons_append] at hlater
        rw [List.flatMap_cons, hmore, List.cons_append]
        cases hrest with
        | @property _ _ inner _ _ _ _ _ hp _ _ =>
            obtain rfl : p = .node (.object inner _ _) := by simpa [Position.property?] using hp
            rw [steps_cons_of_step (.properties hp)] at hlater
            show steps position ("properties" :: "properties" :: _) = _
            rw [steps_cons_of_step (.properties hnode), steps_cons_of_step (.shortcut h)]
            exact hlater
      · have hshort : (Move.property name).shortSegments = ["properties", name] := if_neg hname
        rw [hshort]
        show steps position ("properties" :: name :: _) = _
        rw [steps_cons_of_step (.properties hnode),
          steps_cons_of_step (.property hname hitems h)]
        exact ih hpass
  | items hnode hrest ih =>
      show steps _ ("items" :: _) = _
      rw [steps_cons_of_step (.items hnode)]
      exact ih hpass

theorem walk_of_leads {d : Definition} {moves : List Move} {last : Position} {target : Target}
    (h : Leads (.definition d) moves last) (hne : moves ≠ []) (hpass : IsPassable moves)
    (htarget : target? last = some target) :
    walk (.definition d) (writeSegments (moves.flatMap Move.shortSegments)) = .ok target :=
  walk_eq_ok_iff.mpr ⟨moves.flatMap Move.shortSegments, last,
    segments?_writeSegments (flatMap_shortSegments_ne_nil hne), steps_shortSegments h hpass,
    htarget⟩

/-- The reference that spells a path of moves designates the part that the moves lead to: the
property, or the type that the definition gives, or the definition if it gives none. It
spells every move by keyword and name unless a property called `properties` is passed. -/
theorem walk_writeSegments_of_leads {d : Definition} {moves : List Move} (hne : moves ≠ [])
    (hpass : IsPassable moves) :
    (.property "properties" ∉ moves →
        moves.flatMap Move.shortSegments = moves.flatMap Move.segments) ∧
      (∀ p, Leads (.definition d) moves (.property p) →
        walk (.definition d) (writeSegments (moves.flatMap Move.shortSegments)) =
          .ok (.property p)) ∧
      ∀ e, Leads (.definition d) moves (.definition e) →
        walk (.definition d) (writeSegments (moves.flatMap Move.shortSegments)) =
          .ok (match e.specification with
            | some p => .property p
            | none => .definition e) := by
  refine ⟨?_, ?_, ?_⟩
  · intro hplain
    refine List.flatMap_congr fun move hmove => Move.shortSegments_eq_segments ?_
    rintro rfl
    exact hplain hmove
  · intro p h
    exact walk_of_leads h hne hpass rfl
  · intro e h
    cases he : e.specification with
    | some p => exact walk_of_leads h hne hpass (target?_eq_property_iff.mpr he)
    | none => exact walk_of_leads h hne hpass (target?_eq_definition_iff.mpr ⟨rfl, he⟩)

/-- A definition whose parts have the names of keywords, or names that have to be escaped. -/
def awkwardNames : Definition :=
  .mk none none none none none (some [("items", .mk none none none none
    (some (.node (.object [("properties", .node (.object [("%2F~",
      .node (.array (.object [("definitions", .reference "#/x")] none []) []))] none []))]
      none []))) none)])

theorem awkwardNames_addressable :
    IsPassable [.definition "items", .property "properties", .property "%2F~", .items,
        .property "definitions"] ∧
      Leads (.definition awkwardNames) [.definition "items", .property "properties",
        .property "%2F~", .items, .property "definitions"] (.property (.reference "#/x")) ∧
      walk (.definition awkwardNames)
          "#/definitions/items/properties/properties/%252F~0/items/properties/definitions" =
        .ok (.property (.reference "#/x")) := by
  have hpass : IsPassable [.definition "items", .property "properties", .property "%2F~",
      .items, .property "definitions"] := by simp [IsPassable]
  have hleads : Leads (.definition awkwardNames) [.definition "items", .property "properties",
      .property "%2F~", .items, .property "definitions"] (.property (.reference "#/x")) :=
    .definition rfl rfl (.property rfl rfl (.property rfl rfl (.items rfl
      (.property rfl rfl (.here _)))))
  obtain ⟨-, hproperty, -⟩ :=
    walk_writeSegments_of_leads (d := awkwardNames) (by simp) hpass
  exact ⟨hpass, hleads, hproperty _ hleads⟩

def keywordNames : Definition :=
  .mk none none none none (some (.node (.object [("items", .node (.plain .null [])),
    ("properties", .node (.plain .null []))] none []))) none

theorem keywordNames_not_addressed :
    Schema.decode (.obj [(.str "type", .str "object"), (.str "properties", .obj [
        (.str "items", .obj [(.str "type", .str "null")]),
        (.str "properties", .obj [(.str "type", .str "null")])])]) =
        .ok (.definition keywordNames) ∧
      Leads (.definition keywordNames) [.property "properties"]
        (.property (.node (.plain .null []))) ∧
      walk (.definition keywordNames) (writeSegments (Move.property "properties").segments) =
        .error (.segmentDoesNotApply "properties") ∧
      Leads (.definition keywordNames) [.property "items"]
        (.property (.node (.plain .null []))) ∧
      walk (.definition keywordNames) (writeSegments (Move.property "items").segments) =
        .error (.segmentDoesNotApply "items") :=
  ⟨rfl, .property rfl rfl (.here _), rfl, .property rfl rfl (.here _), rfl⟩

end StructuralSchema.Reference
