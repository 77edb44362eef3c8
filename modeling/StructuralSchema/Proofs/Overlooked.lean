import Mathlib.Logic.Relation
import StructuralSchema.Proofs.Rearrangement
import StructuralSchema.Proofs.Termination
import StructuralSchema.Proofs.Verdict
import StructuralSchema.Proofs.Visits

/-!
# What validation overlooks

The order of members, and members of an object without a property in the node that the object is
checked against. A value may be changed in these, anywhere and any number of times: reports tell
the same apart from the values that they show. The checks of the value before and after a change
are kept in step, down to the object where the change is made.
-/

namespace StructuralSchema.Validation

/-- The property asks for a value that matches the node. -/
def Context.Asks (c : Context) (p : Property) (n : Node) : Prop :=
  ∃ site spot, c.demand site p = .node n spot

/-- A change of a value that is checked against a node: members are put in another order, or a
member without a property is added or removed, in the value or in a part of it. -/
inductive Context.Overlooks (c : Context) : Node → Value → Value → Prop
  | order {n : Node} {v w : Value} (h : v.Rearranged w) : Overlooks c n v w
  | add {properties : List (String × Property)} {required : Option (List String)}
      {unsupported : Annotations} {name : String} (hname : name ∉ properties.map Prod.fst)
      (before after : Members) (x : Value) :
      Overlooks c (.object properties required unsupported) (.obj (before ++ after))
        (.obj (before ++ (.str name, x) :: after))
  | remove {properties : List (String × Property)} {required : Option (List String)}
      {unsupported : Annotations} {name : String} (hname : name ∉ properties.map Prod.fst)
      (before after : Members) (x : Value) :
      Overlooks c (.object properties required unsupported)
        (.obj (before ++ (.str name, x) :: after)) (.obj (before ++ after))
  | element {items : Node} {unsupported : Annotations} (before after : List Value)
      {v w : Value} (h : Overlooks c items v w) :
      Overlooks c (.array items unsupported) (.arr (before ++ v :: after))
        (.arr (before ++ w :: after))
  | member {properties : List (String × Property)} {required : Option (List String)}
      {unsupported : Annotations} {name : String} {p : Property} {n : Node}
      (hp : (name, p) ∈ properties) (hasks : c.Asks p n) (before after : Members) {v w : Value}
      (h : Overlooks c n v w) :
      Overlooks c (.object properties required unsupported)
        (.obj (before ++ (.str name, v) :: after)) (.obj (before ++ (.str name, w) :: after))

/-- A change of a value that is validated against a schema. -/
inductive Overlooks (s : Schema) (settings : Settings) : Value → Value → Prop
  | order {v w : Value} (h : v.Rearranged w) : Overlooks s settings v w
  | typed {p : Property} {n : Node} {v w : Value} (hs : s.rootNode? = some p)
      (hasks : Context.Asks ⟨some s, settings⟩ p n)
      (h : Context.Overlooks ⟨some s, settings⟩ n v w) : Overlooks s settings v w

def Mismatch.outline (m : Mismatch) : Kind × String × Option String :=
  (m.kind, m.place.toText, m.expected?)

/-! ## Findings alike -/

/-- The findings tell the same, apart from the values that they show. -/
structure Findings.Alike (f g : Findings) : Prop where
  mismatches : f.mismatches.map Mismatch.outline = g.mismatches.map Mismatch.outline
  notices : f.notices = g.notices

namespace Findings.Alike

theorem refl (f : Findings) : f.Alike f :=
  ⟨rfl, rfl⟩

theorem symm {f g : Findings} (h : f.Alike g) : g.Alike f :=
  ⟨h.mismatches.symm, h.notices.symm⟩

theorem append {f f' g g' : Findings} (hf : f.Alike f') (hg : g.Alike g') :
    (f ++ g).Alike (f' ++ g') := by
  constructor
  · rw [mismatches_append, mismatches_append, List.map_append, List.map_append, hf.mismatches,
      hg.mismatches]
  · rw [notices_append, notices_append, hf.notices, hg.notices]

theorem join_map {α : Type} {xs : List α} {f g : α → Findings}
    (each : ∀ x ∈ xs, (f x).Alike (g x)) : (join (xs.map f)).Alike (join (xs.map g)) := by
  induction xs with
  | nil => exact .refl _
  | cons x rest ih =>
      obtain ⟨hx, hrest⟩ := List.forall_mem_cons.mp each
      exact hx.append (ih hrest)

end Findings.Alike

section Checks

variable {c : Context} {n : Node}

def ChecksAlike (c : Context) (n : Node) (v w : Value) : Prop :=
  ∀ (place : Pointer) (site : String),
    (checkNode c n place site v).Alike (checkNode c n place site w)

theorem ChecksAlike.refl (c : Context) (n : Node) (v : Value) : ChecksAlike c n v v :=
  fun _ _ => .refl _

theorem meet_demand_alike {p : Property} {v w : Value}
    (h : ∀ n, c.Asks p n → ChecksAlike c n v w) (place : Pointer) (site : String) :
    (c.meet place v (c.demand site p)).Alike (c.meet place w (c.demand site p)) := by
  cases hdemand : c.demand site p with
  | node n spot => exact h n ⟨site, spot, hdemand⟩ place spot
  | anything => exact .refl _
  | failed reference e => exact ⟨rfl, rfl⟩

theorem checkMember_alike {p : Property} {name : String} {members others : Members}
    (h : Option.Rel (fun v w => ∀ n, c.Asks p n → ChecksAlike c n v w) (lookup name members)
      (lookup name others)) (required : Bool) (place : Pointer) (site : String) :
    (checkMember c name p required place site members).Alike
      (checkMember c name p required place site others) := by
  rw [checkMember_eq_meet, checkMember_eq_meet]
  generalize lookup name members = x at h
  generalize lookup name others = y at h
  cases h with
  | none => exact .refl _
  | some hvw => exact meet_demand_alike hvw (place.child name) _

theorem checkElements_alike {items : Node} {elements others : List Value}
    (h : List.Forall₂ (ChecksAlike c items) elements others) (place : Pointer) (site : String)
    (index : ℕ) :
    (checkElements c items place site index elements).Alike
      (checkElements c items place site index others) := by
  induction h generalizing index with
  | nil => exact .refl _
  | cons hvw _ ih =>
      simp only [checkElements]
      exact (hvw _ site).append (ih (index + 1))

/-- Arrays are checked alike if their elements are, should the node be one of arrays. -/
theorem checksAlike_arr {elements others : List Value}
    (h : ∀ items unsupported, n = .array items unsupported →
      List.Forall₂ (ChecksAlike c items) elements others) :
    ChecksAlike c n (.arr elements) (.arr others) := by
  intro place site
  cases n with
  | array items unsupported =>
      simp only [checkNode]
      have helements := h items unsupported rfl
      exact (checkElements_alike helements place _ 0).append (.refl _)
  | _ => exact ⟨rfl, rfl⟩

/-- Objects are checked alike if what stands under the names of properties is, should the node be
one of objects. -/
theorem checksAlike_obj {members others : Members}
    (h : ∀ properties required unsupported, n = .object properties required unsupported →
      ∀ entry ∈ properties, Option.Rel (fun v w => ∀ m, c.Asks entry.2 m → ChecksAlike c m v w)
        (lookup entry.1 members) (lookup entry.1 others)) :
    ChecksAlike c n (.obj members) (.obj others) := by
  intro place site
  cases n with
  | object properties required unsupported =>
      simp only [checkNode]
      have hmembers := h properties required unsupported rfl
      refine Findings.Alike.append (.join_map fun entry hentry => ?_) (.refl _)
      exact checkMember_alike (hmembers entry hentry) _ place site
  | _ => exact ⟨rfl, rfl⟩

theorem checksAlike_of_rearranged {v w : Value} (h : v.Rearranged w) (n : Node) :
    ChecksAlike c n v w := by
  induction h generalizing n with
  | scalar s => exact .refl c n _
  | arr hlength _ ih =>
      refine checksAlike_arr fun items _ _ => ?_
      refine List.forall₂_iff_get.mpr ⟨hlength, fun i hi hi' => ?_⟩
      exact ih i _ _ (List.getElem?_eq_getElem hi) (List.getElem?_eq_getElem hi') items
  | @obj members others hkeys each ih =>
      refine checksAlike_obj fun _ _ _ _ entry _ => ?_
      exact rel_lookup hkeys (fun key v w hv hw m _ => ih key v w hv hw m) entry.1

theorem Context.Asks.unique {p : Property} {m : Node} (hn : c.Asks p n) (hm : c.Asks p m) :
    n = m := by
  obtain ⟨site, spot, hn⟩ := hn
  obtain ⟨site', spot', hm⟩ := hm
  cases p with
  | node k =>
      obtain ⟨rfl, -⟩ := Demand.node.inj hn
      exact (Demand.node.inj hm).1
  | reference reference =>
      have hsame : Demand.node n spot = .node m spot' := hn.symm.trans hm
      exact (Demand.node.inj hsame).1

theorem lookup_insert_of_ne {key name : String} (h : name ≠ key) (before after : Members)
    (x : Value) :
    lookup key (before ++ (.str name, x) :: after) = lookup key (before ++ after) := by
  have hskip : lookup key ((.str name, x) :: after) = lookup key after := by
    simp [lookup, h]
  rw [lookup_append, lookup_append, hskip]

theorem rel_checksAlike_self (p : Property) (x : Option Value) :
    Option.Rel (fun v w => ∀ n, c.Asks p n → ChecksAlike c n v w) x x := by
  cases x with
  | none => exact .none
  | some v => exact .some fun n _ => .refl c n v

theorem checksAlike_insert {properties : List (String × Property)}
    {required : Option (List String)} {unsupported : Annotations} {name : String}
    (hname : name ∉ properties.map Prod.fst) (before after : Members) (x : Value) :
    ChecksAlike c (.object properties required unsupported)
      (.obj (before ++ (.str name, x) :: after)) (.obj (before ++ after)) := by
  apply checksAlike_obj
  rintro _ _ _ ⟨rfl, rfl, rfl⟩ entry hentry
  have hne : name ≠ entry.1 := by
    rintro rfl
    exact hname (List.mem_map_of_mem hentry)
  rw [lookup_insert_of_ne hne]
  exact rel_checksAlike_self entry.2 _

theorem checksAlike_element {items : Node} {unsupported : Annotations} {v w : Value}
    (h : ChecksAlike c items v w) (before after : List Value) :
    ChecksAlike c (.array items unsupported) (.arr (before ++ v :: after))
      (.arr (before ++ w :: after)) := by
  apply checksAlike_arr
  rintro _ _ ⟨rfl, rfl⟩
  have hsame : ∀ others : List Value, List.Forall₂ (ChecksAlike c items) others others :=
    fun others => List.forall₂_same.mpr fun u _ => .refl c items u
  exact List.rel_append (hsame before) (.cons h (hsame after))

theorem checksAlike_member {properties : List (String × Property)}
    {required : Option (List String)} {unsupported : Annotations}
    (hnames : (properties.map Prod.fst).Nodup) {name : String} {p : Property}
    (hp : (name, p) ∈ properties) (hasks : c.Asks p n) {v w : Value} (h : ChecksAlike c n v w)
    (before after : Members) :
    ChecksAlike c (.object properties required unsupported)
      (.obj (before ++ (.str name, v) :: after)) (.obj (before ++ (.str name, w) :: after)) := by
  apply checksAlike_obj
  rintro _ _ _ ⟨rfl, rfl, rfl⟩ ⟨key, q⟩ hq
  by_cases hkey : name = key
  · subst hkey
    -- no other property has this name, so it is the one that asks for the node
    obtain rfl : q = p := Option.some_inj.mp
      ((StructuralSchema.lookup_of_mem hnames hq).symm.trans
        (StructuralSchema.lookup_of_mem hnames hp))
    rw [lookup_append, lookup_append]
    cases lookup name before with
    | some u => exact rel_checksAlike_self q (some u)
    | none =>
        have hhead : ∀ u, lookup name ((.str name, u) :: after) = some u := by
          intro u
          simp [lookup]
        rw [hhead, hhead]
        exact .some fun m hm => hasks.unique hm ▸ h
  · rw [lookup_insert_of_ne hkey, lookup_insert_of_ne hkey]
    exact rel_checksAlike_self q _

end Checks

/-! ## Reports -/

theorem Context.Overlooks.checksAlike {d : Definition} (tidy : d.OnlyTidy) {settings : Settings}
    {n : Node} {v w : Value} (h : Context.Overlooks ⟨some (.definition d), settings⟩ n v w)
    (hn : d.HasPart (.node n)) : ChecksAlike ⟨some (.definition d), settings⟩ n v w := by
  -- On the way down to the change every node is a part of the document, so a name that leads to
  -- a member belongs to one property only.
  induction h with
  | order h => exact checksAlike_of_rearranged h _
  | add hname before after x =>
      exact fun place site => (checksAlike_insert hname before after x place site).symm
  | remove hname before after x => exact checksAlike_insert hname before after x
  | @element items unsupported before after _ _ _ ih =>
      have hitems : d.HasPart (.node items) := hn.of_isPart (Property.isPart_items _ unsupported)
      exact checksAlike_element (ih hitems) before after
  | @member properties required unsupported _ _ _ hp hasks before after _ _ _ ih =>
      have hnames : (properties.map Prod.fst).Nodup := (tidy.nodes _ hn).names
      obtain ⟨site, spot, hdemand⟩ := hasks
      have hchild := ih (hasPart_of_demand
        (hn.of_isPart (Property.isPart_of_mem hp required unsupported)) hdemand)
      exact checksAlike_member hnames hp ⟨site, spot, hdemand⟩ hchild before after

structure Report.Alike (r r' : Report) : Prop where
  mismatches : r.mismatches.map Mismatch.outline = r'.mismatches.map Mismatch.outline
  notices : r.notices = r'.notices

namespace Report.Alike

theorem refl (r : Report) : r.Alike r :=
  ⟨rfl, rfl⟩

theorem trans {r r' r'' : Report} (h : r.Alike r') (h' : r'.Alike r'') : r.Alike r'' :=
  ⟨h.mismatches.trans h'.mismatches, h.notices.trans h'.notices⟩

theorem isOk_eq {r r' : Report} (h : r.Alike r') : r.isOk = r'.isOk := by
  have hlength : r.mismatches.length = r'.mismatches.length := by
    simpa using congrArg List.length h.mismatches
  rw [Bool.eq_iff_iff, Report.isOk_iff, Report.isOk_iff, ← List.length_eq_zero_iff,
    ← List.length_eq_zero_iff, hlength]

end Report.Alike

theorem Findings.Alike.report {f g : Findings} (h : f.Alike g) : f.report.Alike g.report := by
  constructor
  · rw [mismatches_report, mismatches_report, h.mismatches]
  · rw [notices_report, notices_report, h.notices]

section Reports

variable {s : Schema} {settings : Settings} {v w : Value}

theorem validate_alike
    (h : ∀ p, s.rootNode? = some p → ∀ n, Context.Asks ⟨some s, settings⟩ p n →
      ChecksAlike ⟨some s, settings⟩ n v w) :
    (validate s settings v).Alike (validate s settings w) := by
  cases s with
  | boolean accepts => cases accepts <;> exact ⟨rfl, rfl⟩
  | definition d =>
      cases hd : d.specification with
      | none =>
          rw [validate_untyped hd, validate_untyped hd]
          exact .refl _
      | some p =>
          rw [validate_typed hd, validate_typed hd]
          exact (meet_demand_alike (h p hd) .root "#").report

theorem Overlooks.validate_alike (tidy : ∀ d, s = .definition d → d.OnlyTidy)
    (h : Overlooks s settings v w) : (validate s settings v).Alike (validate s settings w) := by
  apply StructuralSchema.Validation.validate_alike
  intro p hp n hasks
  cases h with
  | order h => exact checksAlike_of_rearranged h n
  | @typed q m _ _ hq hm h =>
      obtain rfl : q = p := Option.some_inj.mp (hq.symm.trans hp)
      obtain rfl := hm.unique hasks
      cases s with
      | boolean accepts => cases hp
      | definition d =>
          obtain ⟨site, spot, hdemand⟩ := hasks
          have hroot : d.HasPart q := .specification hp .self
          exact h.checksAlike (tidy d rfl) (hasPart_of_demand hroot hdemand)

/-- Changes of a value that the schema overlooks change neither the verdict, nor what is said of
each mismatch besides the value that it shows, nor the notices, however many are made. -/
theorem overlooked_changes_alike {document : Value} (hdocument : document.IsJson)
    (hs : Schema.decode document = .ok s) (h : Relation.ReflTransGen (Overlooks s settings) v w) :
    (validate s settings v).mismatches.map Mismatch.outline =
        (validate s settings w).mismatches.map Mismatch.outline ∧
      (validate s settings v).notices = (validate s settings w).notices ∧
      (validate s settings v).isOk = (validate s settings w).isOk := by
  have tidy : ∀ d, s = .definition d → d.OnlyTidy := by
    rintro d rfl
    exact onlyTidy_of_decode hdocument hs
  have hall : (validate s settings v).Alike (validate s settings w) := by
    induction h with
    | refl => exact .refl _
    | tail _ hstep ih => exact ih.trans (hstep.validate_alike tidy)
  exact ⟨hall.mismatches, hall.notices, hall.isOk_eq⟩

end Reports

def familyDocument : Value :=
  .obj [
    (.str "type", .str "object"),
    (.str "properties", .obj [
      (.str "head", .obj [(.str "$ref", .str "#/definitions/person")]),
      (.str "rooms", .obj [
        (.str "type", .str "array"),
        (.str "items", .obj [
          (.str "type", .str "object"),
          (.str "properties", .obj [(.str "size", .obj [(.str "type", .str "integer")])])])])]),
    (.str "definitions", .obj [
      (.str "person", .obj [
        (.str "type", .str "object"),
        (.str "properties", .obj [
          (.str "name", .obj [(.str "type", .str "string"), (.str "pattern", .str "^A")])])])])]

def personNode : Node :=
  .object [("name", .node (.plain .string [(.pattern, .str "^A")]))] none []

def roomNode : Node :=
  .object [("size", .node (.numeric .integer none []))] none []

def familyNode : Node :=
  .object [("head", .reference "#/definitions/person"), ("rooms", .node (.array roomNode []))]
    none []

def familySchema : Schema :=
  .definition (.mk none none none none (some (.node familyNode))
    (some [("person", .mk none none none none (some (.node personNode)) none)]))

theorem familySchema_overlooks_changes :
    familyDocument.IsJson ∧ Schema.decode familyDocument = .ok familySchema ∧
      (validate familySchema {} (.obj [
          (.str "head", .obj [(.str "name", .int 1), (.str "age", .int 30)]),
          (.str "rooms", .arr [.obj [(.str "size", .str "big")]])])).mismatches.map
            Mismatch.outline =
        (validate familySchema {} (.obj [
          (.str "rooms", .arr [.obj [(.str "color", .null), (.str "size", .str "big")]]),
          (.str "head", .obj [(.str "name", .int 1)])])).mismatches.map Mismatch.outline ∧
      (validate familySchema {} (.obj [
          (.str "rooms", .arr [.obj [(.str "color", .null), (.str "size", .str "big")]]),
          (.str "head", .obj [(.str "name", .int 1)])])).mismatches.map Mismatch.outline =
        [(.typeMismatch, "/head/name", some "string"),
          (.typeMismatch, "/rooms/0/size", some "integer")] := by
  have hdocument : familyDocument.IsJson := by simp [familyDocument, Scalar.IsJson]
  have hs : Schema.decode familyDocument = .ok familySchema := rfl
  have hroot : familySchema.rootNode? = some (.node familyNode) := rfl
  have hfamily : Context.Asks ⟨some familySchema, {}⟩ (.node familyNode) familyNode :=
    ⟨"#", _, rfl⟩
  have hperson : Context.Asks ⟨some familySchema, {}⟩ (.reference "#/definitions/person")
      personNode := ⟨"#", _, rfl⟩
  have hrooms : Context.Asks ⟨some familySchema, {}⟩ (.node (.array roomNode []))
      (.array roomNode []) := ⟨"#", _, rfl⟩
  let ended (head room : Members) : Value :=
    .obj [(.str "head", .obj head), (.str "rooms", .arr [.obj room])]
  have hremove : Overlooks familySchema {}
      (ended [(.str "name", .int 1), (.str "age", .int 30)] [(.str "size", .str "big")])
      (ended [(.str "name", .int 1)] [(.str "size", .str "big")]) := by
    refine .typed hroot hfamily (.member List.mem_cons_self hperson [] _ ?_)
    exact .remove (by decide) [_] [] _
  have hadd : Overlooks familySchema {}
      (ended [(.str "name", .int 1)] [(.str "size", .str "big")])
      (ended [(.str "name", .int 1)] [(.str "color", .null), (.str "size", .str "big")]) := by
    have hroomsMember : ("rooms", Property.node (.array roomNode [])) ∈
        [("head", .reference "#/definitions/person"), ("rooms", .node (.array roomNode []))] :=
      List.mem_cons_of_mem _ List.mem_cons_self
    refine .typed hroot hfamily (.member hroomsMember hrooms [_] [] ?_)
    exact .element [] [] (.add (by decide) [] _ _)
  have horder : Overlooks familySchema {}
      (ended [(.str "name", .int 1)] [(.str "color", .null), (.str "size", .str "big")])
      (.obj [
        (.str "rooms", .arr [.obj [(.str "color", .null), (.str "size", .str "big")]]),
        (.str "head", .obj [(.str "name", .int 1)])]) := by
    refine .order (.of_perm ?_ (.swap _ _ _))
    simp [Scalar.IsJson]
  have hall := (overlooked_changes_alike hdocument hs
    (((Relation.ReflTransGen.refl.tail hremove).tail hadd).tail horder)).1
  exact ⟨hdocument, hs, hall, by rfl⟩

end StructuralSchema.Validation
