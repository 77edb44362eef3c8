import Mathlib.Data.List.Induction
import StructuralSchema.Proofs.Check
import StructuralSchema.Proofs.Encoding

/-!
# Notices

A check comes to a node for each part of the value that it looks at, and is done with the
parts before it is done with the whole. The notices of a report are the unsupported keywords
of these nodes in that order, without those that were noted before, and whether they are asked
for makes no difference to the mismatches.
-/

namespace StructuralSchema.Validation

/-! ## First occurrences -/

/-- The elements of `xs`, each once, in the order in which they come first. -/
structure FirstOccurrences {α : Type} [DecidableEq α] (xs ys : List α) : Prop where
  mem_iff : ∀ a, a ∈ ys ↔ a ∈ xs
  ordered : ys.Pairwise fun a b => xs.idxOf a < xs.idxOf b

namespace FirstOccurrences

variable {α β : Type} [DecidableEq α] [DecidableEq β] {xs ys : List α}

theorem nodup (h : FirstOccurrences xs ys) : ys.Nodup := by
  refine h.ordered.imp ?_
  rintro a b hlt rfl
  exact Nat.lt_irrefl _ hlt

theorem concat_of_mem {a : α} (h : FirstOccurrences xs ys) (ha : a ∈ xs) :
    FirstOccurrences (xs ++ [a]) ys := by
  constructor
  · intro b
    rw [h.mem_iff, List.mem_append, List.mem_singleton]
    exact ⟨.inl, fun hb => hb.elim id fun heq => heq ▸ ha⟩
  · refine h.ordered.imp_of_mem ?_
    intro b c hb hc hlt
    rwa [List.idxOf_append_of_mem ((h.mem_iff b).mp hb),
      List.idxOf_append_of_mem ((h.mem_iff c).mp hc)]

theorem concat_of_notMem {a : α} (h : FirstOccurrences xs ys) (ha : a ∉ xs) :
    FirstOccurrences (xs ++ [a]) (ys ++ [a]) := by
  constructor
  · intro b
    rw [List.mem_append, List.mem_append, h.mem_iff]
  · have hold : ∀ b ∈ ys, (xs ++ [a]).idxOf b = xs.idxOf b := fun b hb =>
      List.idxOf_append_of_mem ((h.mem_iff b).mp hb)
    have hnew : (xs ++ [a]).idxOf a = xs.length := by
      simp [List.idxOf_append_of_notMem ha]
    rw [List.pairwise_append]
    refine ⟨?_, List.pairwise_singleton _ _, ?_⟩
    · refine h.ordered.imp_of_mem ?_
      intro b c hb hc hlt
      rwa [hold b hb, hold c hc]
    · intro b hb c hc
      obtain rfl : c = a := List.mem_singleton.mp hc
      rw [hold b hb, hnew]
      exact List.idxOf_lt_length_of_mem ((h.mem_iff b).mp hb)

theorem idxOf_map_of_injective {f : α → β} (hf : Function.Injective f) (xs : List α) (a : α) :
    (xs.map f).idxOf (f a) = xs.idxOf a := by
  induction xs with
  | nil => rfl
  | cons x rest ih =>
      by_cases hx : x = a
      · simp [hx]
      · have hfx : f x ≠ f a := fun heq => hx (hf heq)
        rw [List.map_cons, List.idxOf_cons_ne _ hfx, List.idxOf_cons_ne _ hx, ih]

theorem map {f : α → β} (hf : Function.Injective f) (h : FirstOccurrences xs ys) :
    FirstOccurrences (xs.map f) (ys.map f) := by
  constructor
  · intro b
    simp only [List.mem_map, h.mem_iff]
  · rw [List.pairwise_map]
    refine h.ordered.imp ?_
    intro a b hlt
    rwa [idxOf_map_of_injective hf, idxOf_map_of_injective hf]

end FirstOccurrences

theorem firstOccurrences_eraseDups {α : Type} [DecidableEq α] (xs : List α) :
    FirstOccurrences xs xs.eraseDups := by
  induction xs using List.reverseRecOn with
  | nil => exact ⟨fun _ => Iff.rfl, .nil⟩
  | append_singleton xs a ih =>
      rw [List.eraseDups_append]
      by_cases ha : a ∈ xs
      · simpa [List.removeAll, ha] using ih.concat_of_mem ha
      · simpa [List.removeAll, ha, List.eraseDups_cons] using ih.concat_of_notMem ha

/-! ## Visits -/

/-- A node that a check comes to, and the site in the schema under which it does. -/
structure Visit where
  node : Node
  site : String

def Visit.keywords (visit : Visit) : List (String × String) :=
  visit.node.unsupported.map fun entry => (visit.site, entry.1.text)

section Visits

variable (document : Schema) (limit : Int)

mutual

/-- The nodes that the check of a value against a node comes to, in the order in which it is
done with them. -/
def nodeVisits (n : Node) (site : String) : Value → List Visit
  | .arr elements =>
    (match n with
      | .array items _ => elementVisits items (site ++ "/items") elements
      | _ => []) ++ [⟨n, site⟩]
  | .obj members =>
    (match n with
      | .object properties _ _ =>
        properties.flatMap fun entry => memberVisits entry.1 entry.2 site members
      | _ => []) ++ [⟨n, site⟩]
  | .pair v w =>
    (match n with
      | .array items _ =>
        nodeVisits items (site ++ "/items") v ++ nodeVisits items (site ++ "/items") w
      | _ => []) ++ [⟨n, site⟩]
  | .loop _ v => nodeVisits n site v
  | _ => [⟨n, site⟩]

def elementVisits (items : Node) (site : String) : List Value → List Visit
  | [] => []
  | v :: rest => nodeVisits items site v ++ elementVisits items site rest

/-- The visits for the member that a property names. A reference is the site of the node that
it leads to. -/
def memberVisits (name : String) (p : Property) (site : String) :
    List (Scalar × Value) → List Visit
  | [] => []
  | (k, v) :: rest =>
    if k = .str name then
      match p with
      | .node n => nodeVisits n (site ++ "/properties/" ++ Pointer.escape name) v
      | .reference reference =>
        match Reference.dereference document limit reference with
        | .ok (some n) => nodeVisits n reference v
        | _ => []
    else memberVisits name p site rest

end

def propertyVisits (p : Property) (site : String) (v : Value) : List Visit :=
  match p with
  | .node n => nodeVisits document limit n site v
  | .reference reference =>
    match Reference.dereference document limit reference with
    | .ok (some n) => nodeVisits document limit n reference v
    | _ => []

end Visits

def visits (s : Schema) (limit : Int) (v : Value) : List Visit :=
  match s.rootNode? with
  | some p => propertyVisits s limit p "#" v
  | none => []

section Equations

variable {document : Schema} {limit : Int} {site : String}

theorem elementVisits_eq_flatMap (items : Node) (elements : List Value) :
    elementVisits document limit items site elements =
      elements.flatMap (nodeVisits document limit items site) := by
  induction elements with
  | nil => simp [elementVisits]
  | cons v rest ih => simp [elementVisits, ih]

theorem memberVisits_eq_lookup (name : String) (p : Property) (members : Members) :
    memberVisits document limit name p site members =
      match lookup name members with
      | some v =>
        propertyVisits document limit p (site ++ "/properties/" ++ Pointer.escape name) v
      | none => [] := by
  induction members with
  | nil => simp [memberVisits, lookup]
  | cons m rest ih =>
      obtain ⟨k, v⟩ := m
      unfold memberVisits lookup
      by_cases hk : k = .str name
      · cases p <;> simp only [if_pos hk, propertyVisits]
      · simp only [if_neg hk, ih]

end Equations

/-! ## What a check notes -/

namespace Findings

@[simp] theorem notices_empty : Findings.empty.notices = [] := rfl

@[simp] theorem notices_append (f g : Findings) : (f ++ g).notices = f.notices ++ g.notices := rfl

@[simp] theorem notices_join (fs : List Findings) :
    (join fs).notices = fs.flatMap Findings.notices := by
  induction fs with
  | nil => rfl
  | cons f rest ih => simp [join, ih]

@[simp] theorem notices_report (f : Findings) : f.report.notices = f.notices.eraseDups := rfl

end Findings

variable {document : Schema} {settings : Settings} {place : Pointer} {site : String}

def Visit.notices (document : Schema) (settings : Settings) (visit : Visit) : List Notice :=
  Context.notices ⟨some document, settings⟩ visit.node visit.site

def NotesVisits (document : Schema) (settings : Settings) (v : Value) : Prop :=
  ∀ (n : Node) (place : Pointer) (site : String),
    (checkNode ⟨some document, settings⟩ n place site v).notices =
      (nodeVisits document settings.maxReferenceDepth n site v).flatMap
        (Visit.notices document settings)

theorem notices_meet_demand {v : Value} (hv : NotesVisits document settings v) (p : Property) :
    (Context.meet ⟨some document, settings⟩ place v
        (Context.demand ⟨some document, settings⟩ site p)).notices =
      (propertyVisits document settings.maxReferenceDepth p site v).flatMap
        (Visit.notices document settings) := by
  cases p with
  | node n => exact hv n place site
  | reference reference =>
      simp only [Context.demand, Context.dereference, propertyVisits]
      cases Reference.dereference document settings.maxReferenceDepth reference with
      | error e => rfl
      | ok target =>
          cases target with
          | none => rfl
          | some n => exact hv n place reference

theorem notices_checkMember {members : Members}
    (each : ∀ m ∈ members, NotesVisits document settings m.2) (name : String) (p : Property)
    (required : Bool) :
    (checkMember ⟨some document, settings⟩ name p required place site members).notices =
      (memberVisits document settings.maxReferenceDepth name p site members).flatMap
        (Visit.notices document settings) := by
  rw [checkMember_eq_meet, memberVisits_eq_lookup]
  cases hlookup : lookup name members with
  | some v => exact notices_meet_demand (each _ (mem_of_lookup hlookup)) p
  | none => cases required <;> rfl

theorem notices_checkElements {elements : List Value}
    (each : ∀ v ∈ elements, NotesVisits document settings v) (items : Node) (index : ℕ) :
    (checkElements ⟨some document, settings⟩ items place site index elements).notices =
      (elementVisits document settings.maxReferenceDepth items site elements).flatMap
        (Visit.notices document settings) := by
  induction elements generalizing index with
  | nil => simp [checkElements, elementVisits]
  | cons v rest ih =>
      obtain ⟨hv, hrest⟩ := List.forall_mem_cons.mp each
      simp [checkElements, elementVisits, hv items, ih hrest]

theorem notesVisits (v : Value) : NotesVisits document settings v := by
  -- Node and site stay free: the parts of a node have their own, and a reference sets both.
  induction v using Value.partsInduction with
  | scalar s =>
      intro n place site
      simp only [checkNode, nodeVisits]
      split_ifs <;> simp [Visit.notices]
  | arr elements ih =>
      intro n place site
      cases n with
      | array items unsupported =>
          simp [checkNode, nodeVisits, notices_checkElements ih, Visit.notices]
      | _ => simp [checkNode, nodeVisits, Visit.notices]
  | obj members ih =>
      intro n place site
      cases n with
      | object properties required unsupported =>
          simp [checkNode, nodeVisits, List.flatMap_map, List.flatMap_assoc,
            notices_checkMember ih, Visit.notices]
      | _ => simp [checkNode, nodeVisits, Visit.notices]
  | pair v w hv hw =>
      intro n place site
      cases n with
      | array items unsupported =>
          simp [checkNode, nodeVisits, hv items, hw items, Visit.notices]
      | _ => simp [checkNode, nodeVisits, Visit.notices]
  | loop number v ih =>
      intro n place site
      simpa only [checkNode, nodeVisits] using ih n place site
  | set | endless =>
      intro n place site
      simp [checkNode, nodeVisits, Visit.notices]

/-! ## What becomes of unsupported keywords -/

/-- The mismatches of the value do not depend on what becomes of unsupported keywords. -/
def IgnoresPolicy (document : Schema) (limit : Int) (v : Value) : Prop :=
  ∀ (policy policy' : Policy) (n : Node) (place : Pointer) (site : String),
    (checkNode ⟨some document, limit, policy⟩ n place site v).mismatches =
      (checkNode ⟨some document, limit, policy'⟩ n place site v).mismatches

variable {limit : Int}

theorem IgnoresPolicy.meet_demand {v : Value} (hv : IgnoresPolicy document limit v)
    (policy policy' : Policy) (p : Property) :
    (Context.meet ⟨some document, limit, policy⟩ place v
        (Context.demand ⟨some document, limit, policy⟩ site p)).mismatches =
      (Context.meet ⟨some document, limit, policy'⟩ place v
        (Context.demand ⟨some document, limit, policy'⟩ site p)).mismatches := by
  cases p with
  | node n => exact hv policy policy' n place site
  | reference reference =>
      simp only [Context.demand, Context.dereference]
      cases Reference.dereference document limit reference with
      | error e => rfl
      | ok target =>
          cases target with
          | none => rfl
          | some n => exact hv policy policy' n place reference

theorem ignoresPolicy (v : Value) : IgnoresPolicy document limit v := by
  induction v using Value.partsInduction with
  | scalar s =>
      intro policy policy' n place site
      simp only [checkNode]
      split_ifs <;> rfl
  | arr elements ih =>
      intro policy policy' n place site
      cases n with
      | array items unsupported =>
          rw [mismatches_array, mismatches_array]
          exact List.flatMap_congr fun entry hentry =>
            ih entry.1 (List.fst_mem_of_mem_zipIdx hentry) policy policy' items _ _
      | _ => simp [checkNode]
  | obj members ih =>
      intro policy policy' n place site
      cases n with
      | object properties required unsupported =>
          rw [mismatches_object, mismatches_object]
          refine List.flatMap_congr fun entry _ => ?_
          rw [checkMember_eq_meet, checkMember_eq_meet]
          cases hlookup : lookup entry.1 members with
          | some v => exact (ih _ (mem_of_lookup hlookup)).meet_demand policy policy' entry.2
          | none => rfl
      | _ => simp [checkNode]
  | pair v w hv hw =>
      intro policy policy' n place site
      cases n with
      | array items unsupported =>
          simp [checkNode, hv policy policy' items, hw policy policy' items]
      | _ => simp [checkNode]
  | loop number v ih =>
      intro policy policy' n place site
      simpa only [checkNode] using ih policy policy' n place site
  | set | endless =>
      intro policy policy' n place site
      simp [checkNode]

theorem mismatches_validate_policy (s : Schema) (v : Value) (policy policy' : Policy) :
    (validate s ⟨limit, policy⟩ v).mismatches = (validate s ⟨limit, policy'⟩ v).mismatches := by
  cases s with
  | boolean b => cases b <;> rfl
  | definition d =>
      cases hd : d.specification with
      | none => rw [validate_untyped hd, validate_untyped hd]
      | some p =>
          rw [validate_typed hd, validate_typed hd]
          exact (ignoresPolicy v).meet_demand policy policy' p

/-- The notices of a report, before those that repeat others are left out. -/
theorem notices_validate (s : Schema) (settings : Settings) (v : Value) :
    (validate s settings v).notices =
      ((visits s settings.maxReferenceDepth v).flatMap (Visit.notices s settings)).eraseDups := by
  cases s with
  | boolean b => cases b <;> rfl
  | definition d =>
      cases hd : d.specification with
      | none => simp [validate_untyped hd, visits, Schema.rootNode?, Schema.definition?, hd]
      | some p =>
          rw [validate_typed hd, Findings.notices_report, notices_meet_demand (notesVisits v)]
          simp [visits, Schema.rootNode?, Schema.definition?, hd]

theorem flatMap_keywords_eq_map (s : Schema) (limit : Int) (vs : List Visit) :
    vs.flatMap Visit.keywords =
      (vs.flatMap (Visit.notices s ⟨limit, .report⟩)).map fun n => (n.place, n.keyword.text) := by
  rw [List.map_flatMap]
  refine List.flatMap_congr fun visit _ => ?_
  simp [Visit.keywords, Visit.notices, Context.notices]

theorem noticeText_injective :
    Function.Injective fun n : Notice => (n.place, n.keyword.text) := by
  intro a b h
  obtain ⟨hplace, hkeyword⟩ := Prod.mk.inj h
  cases a
  cases b
  simp_all [Keyword.text_injective.eq_iff]

/-- Unsupported keywords never count against a value: the mismatches are the same whether they
are reported or ignored. Where they are reported, the notices are the keywords of the nodes that
validation comes to, each with the site of its node, in the order in which they come first. -/
theorem notices_firstOccurrences (s : Schema) (limit : Int) (v : Value) :
    (validate s ⟨limit, .report⟩ v).mismatches = (validate s ⟨limit, .ignore⟩ v).mismatches ∧
      (validate s ⟨limit, .ignore⟩ v).notices = [] ∧
      FirstOccurrences ((visits s limit v).flatMap Visit.keywords)
        ((validate s ⟨limit, .report⟩ v).notices.map fun n => (n.place, n.keyword.text)) := by
  refine ⟨mismatches_validate_policy s v .report .ignore, ?_, ?_⟩
  · have hnone : ∀ vs : List Visit, vs.flatMap (Visit.notices s ⟨limit, .ignore⟩) = [] := by
      intro vs
      exact List.flatMap_eq_nil_iff.mpr fun _ _ => rfl
    rw [notices_validate, hnone]
    rfl
  · rw [notices_validate, flatMap_keywords_eq_map s limit]
    exact (firstOccurrences_eraseDups _).map noticeText_injective

/-- Two members lead to one node, which is come to twice and before the whole. -/
example :
    (visits (.definition (.mk none none none none
        (some (.node (.object [("from", .reference "#/definitions/day"),
          ("to", .reference "#/definitions/day")] none [])))
        (some [("day", .mk none none none none
          (some (.node (.plain .string [(.format, .str "date")]))) none)])))
      32 (.obj [(.str "to", .str "x"), (.str "from", .null)])).map Visit.site =
      ["#/definitions/day", "#/definitions/day", "#"] := by
  decide +kernel

end StructuralSchema.Validation
