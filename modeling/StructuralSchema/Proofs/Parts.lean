import StructuralSchema.Proofs.Regular
import StructuralSchema.Proofs.Walk
import StructuralSchema.Reference.Chain

/-!
# Parts of schemas

The nodes and references that stand in a schema, at any depth. Walks and chains of references
lead from parts to parts. In a schema that was read from a JSON value, no part has two
properties of one name or two keywords of one kind.
-/

namespace StructuralSchema

/-- The node or reference stands somewhere in the other, or is the whole of it. -/
inductive Property.IsPart (q : Property) : Property → Prop
  | self : IsPart q q
  | items {items : Node} {unsupported : Annotations} (h : IsPart q (.node items)) :
      IsPart q (.node (.array items unsupported))
  | property {properties : List (String × Property)} {required : Option (List String)}
      {unsupported : Annotations} {entry : String × Property} (hentry : entry ∈ properties)
      (h : IsPart q entry.2) : IsPart q (.node (.object properties required unsupported))

inductive Definition.HasPart : Definition → Property → Prop
  | specification {d : Definition} {p q : Property} (hd : d.specification = some p)
      (h : q.IsPart p) : HasPart d q
  | definition {d : Definition} {entries : List (String × Definition)}
      {entry : String × Definition} {q : Property} (hd : d.definitions = some entries)
      (hentry : entry ∈ entries) (h : HasPart entry.2 q) : HasPart d q

/-- The definition is the other one or stands among its definitions, at any depth. -/
inductive Definition.Holds (e : Definition) : Definition → Prop
  | self : Holds e e
  | entry {d : Definition} {entries : List (String × Definition)}
      {entry : String × Definition} (hd : d.definitions = some entries)
      (hentry : entry ∈ entries) (h : Holds e entry.2) : Holds e d

theorem Property.IsPart.trans {p q r : Property} (hpq : p.IsPart q) (hqr : q.IsPart r) :
    p.IsPart r := by
  induction hqr with
  | self => exact hpq
  | items _ ih => exact .items ih
  | property hentry _ ih => exact .property hentry ih

theorem Definition.HasPart.of_isPart {d : Definition} {p q : Property} (hq : d.HasPart q)
    (hpq : p.IsPart q) : d.HasPart p := by
  induction hq with
  | specification hd h => exact .specification hd (hpq.trans h)
  | definition hd hentry _ ih => exact .definition hd hentry (ih hpq)

theorem Property.isPart_items (items : Node) (unsupported : Annotations) :
    (Property.node items).IsPart (.node (.array items unsupported)) :=
  .items .self

theorem Property.isPart_of_mem {properties : List (String × Property)}
    {entry : String × Property} (h : entry ∈ properties) (required : Option (List String))
    (unsupported : Annotations) :
    entry.2.IsPart (.node (.object properties required unsupported)) :=
  .property h .self

theorem mem_of_lookup_eq_some {α : Type} {entries : List (String × α)} {name : String} {a : α}
    (h : entries.lookup name = some a) : (name, a) ∈ entries := by
  obtain ⟨before, after, rfl, -⟩ := List.lookup_eq_some_iff.mp h
  simp

theorem lookup_of_mem {α : Type} {entries : List (String × α)} {entry : String × α}
    (hnames : (entries.map Prod.fst).Nodup) (h : entry ∈ entries) :
    entries.lookup entry.1 = some entry.2 := by
  induction entries with
  | nil => simp at h
  | cons first rest ih =>
      obtain ⟨hnew, hrest⟩ := List.nodup_cons.mp hnames
      rcases List.mem_cons.mp h with rfl | h
      · rw [List.lookup_cons, beq_self_eq_true]
      · have hother : entry.1 ≠ first.1 := fun heq => hnew (heq ▸ List.mem_map_of_mem h)
        rw [List.lookup_cons, beq_false_of_ne hother]
        exact ih hrest h

section Forms

variable {q : Property} {unsupported : Annotations}

@[simp] theorem Property.isPart_reference_iff {text : String} :
    q.IsPart (.reference text) ↔ q = .reference text := by
  constructor
  · rintro ⟨⟩
    rfl
  · rintro rfl
    exact .self

@[simp] theorem Property.isPart_plain_iff {type : PlainType} :
    q.IsPart (.node (.plain type unsupported)) ↔ q = .node (.plain type unsupported) := by
  constructor
  · rintro ⟨⟩
    rfl
  · rintro rfl
    exact .self

@[simp] theorem Property.isPart_numeric_iff {type : NumericType} {bound : Option Value} :
    q.IsPart (.node (.numeric type bound unsupported)) ↔
      q = .node (.numeric type bound unsupported) := by
  constructor
  · rintro ⟨⟩
    rfl
  · rintro rfl
    exact .self

@[simp] theorem Property.isPart_array_iff {items : Node} :
    q.IsPart (.node (.array items unsupported)) ↔
      q = .node (.array items unsupported) ∨ q.IsPart (.node items) := by
  constructor
  · rintro (_ | h)
    · exact .inl rfl
    · exact .inr h
  · rintro (rfl | h)
    · exact .self
    · exact .items h

@[simp] theorem Property.isPart_object_iff {properties : List (String × Property)}
    {required : Option (List String)} :
    q.IsPart (.node (.object properties required unsupported)) ↔
      q = .node (.object properties required unsupported) ∨
        ∃ entry ∈ properties, q.IsPart entry.2 := by
  constructor
  · rintro (_ | _ | ⟨hentry, h⟩)
    · exact .inl rfl
    · exact .inr ⟨_, hentry, h⟩
  · rintro (rfl | ⟨entry, hentry, h⟩)
    · exact .self
    · exact .property hentry h

@[simp] theorem Definition.hasPart_mk_iff {id : Option SchemaId} {dialect : Option String}
    {description : Option String} {dependencies : Option (List (Scalar × List String))}
    {specification : Option Property} {definitions : Option (List (String × Definition))} :
    (mk id dialect description dependencies specification definitions).HasPart q ↔
      (∃ p, specification = some p ∧ q.IsPart p) ∨
        ∃ entries, definitions = some entries ∧ ∃ entry ∈ entries, entry.2.HasPart q := by
  constructor
  · rintro (⟨hd, h⟩ | ⟨hd, hentry, h⟩)
    · exact .inl ⟨_, hd, h⟩
    · exact .inr ⟨_, hd, _, hentry, h⟩
  · rintro (⟨p, hd, h⟩ | ⟨entries, hd, entry, hentry, h⟩)
    · exact .specification hd h
    · exact .definition hd hentry h

end Forms

namespace Reference

variable {position next : Position} {segment : String} {d : Definition}

def Position.HasPart : Position → Property → Prop
  | .definition d, q => d.HasPart q
  | .propertyMap entries, q => ∃ entry ∈ entries, q.IsPart entry.2
  | .definitionMap entries, q => ∃ entry ∈ entries, entry.2.HasPart q
  | .property p, q => q.IsPart p

theorem hasPart_of_property? {p q : Property} (h : position.property? = some p)
    (hq : q.IsPart p) : position.HasPart q := by
  cases position with
  | definition d => exact .specification h hq
  | property r =>
      obtain rfl : r = p := by simpa [Position.property?] using h
      exact hq
  | propertyMap entries => simp [Position.property?] at h
  | definitionMap entries => simp [Position.property?] at h

/-- A step brings nothing into reach that was not there before. -/
theorem Step.hasPart (h : Step position segment next) {q : Property} (hq : next.HasPart q) :
    position.HasPart q := by
  cases h with
  | entry h => exact ⟨_, mem_of_lookup_eq_some h, hq⟩
  | definitions h =>
      obtain ⟨entry, hentry, hpart⟩ := hq
      exact .definition h hentry hpart
  | properties h =>
      obtain ⟨entry, hentry, hpart⟩ := hq
      exact hasPart_of_property? h (.property hentry hpart)
  | shortcut h =>
      obtain ⟨entry, hentry, hpart⟩ := hq
      exact ⟨_, mem_of_lookup_eq_some h, .property hentry hpart⟩
  | items h => exact hasPart_of_property? h (.items hq)
  | property _ _ h => exact ⟨_, mem_of_lookup_eq_some h, hq⟩

theorem hasPart_of_walk {reference : String} {p : Property}
    (h : walk (.definition d) reference = .ok (.property p)) : d.HasPart p := by
  obtain ⟨segments, position, -, hsteps, htarget⟩ := walk_eq_ok_iff.mp h
  have hreach : ∀ q, position.HasPart q → d.HasPart q := by
    refine steps_preserve (P := fun reached => ∀ q, reached.HasPart q → d.HasPart q) ?_ hsteps
      fun q hq => hq
    exact fun _ _ _ hstep hsub q hq => hsub q (hstep.hasPart hq)
  exact hreach p (hasPart_of_property? (target?_eq_property_iff.mp htarget) .self)

/-- A chain that ends on a node has a last link that designates it. -/
theorem exists_walk_of_follow {document : Schema} {limit : Int} {remaining : ℕ}
    {visited : List String} {current : String} {n : Node}
    (h : follow document limit remaining visited current = .ok (some n)) :
    ∃ reference, walk document reference = .ok (.property (.node n)) := by
  induction remaining generalizing visited current with
  | zero =>
      unfold follow at h
      split_ifs at h
  | succ remaining ih =>
      unfold follow at h
      split_ifs at h
      simp only at h
      split at h
      · simp at h
      · exact ih h
      · rename_i m hwalk
        obtain rfl : m = n := by simpa using h
        exact ⟨current, hwalk⟩
      · simp at h

theorem hasPart_of_dereference {limit : Int} {reference : String} {n : Node}
    (h : dereference (.definition d) limit reference = .ok (some n)) : d.HasPart (.node n) := by
  obtain ⟨last, hwalk⟩ := exists_walk_of_follow h
  exact hasPart_of_walk hwalk

theorem walk_of_dereference {document : Schema} {limit : Int} {reference : String} {n : Node}
    (h : dereference document limit reference = .ok (some n))
    (hdirect : ∀ next, walk document reference ≠ .ok (.property (.reference next))) :
    walk document reference = .ok (.property (.node n)) := by
  unfold dereference at h
  cases hroom : limit.toNat with
  | zero => simp [hroom, follow] at h
  | succ remaining =>
      rw [hroom] at h
      unfold follow at h
      simp only [List.not_mem_nil, if_false] at h
      split at h
      · simp at h
      · rename_i next hwalk
        exact absurd hwalk (hdirect next)
      · rename_i m hwalk
        obtain rfl : m = n := by simpa using h
        exact hwalk
      · simp at h

end Reference

/-! ## Distinct names and keywords -/

def Node.properties : Node → List (String × Property)
  | .object properties _ _ => properties
  | _ => []

/-- No two properties have the same name, and no two unsupported keywords are the same. -/
structure Node.IsTidy (n : Node) : Prop where
  names : (n.properties.map Prod.fst).Nodup
  keywords : (n.unsupported.map Prod.fst).Nodup

def Property.OnlyTidy (p : Property) : Prop :=
  ∀ n, (Property.node n).IsPart p → n.IsTidy

structure Definition.OnlyTidy (d : Definition) : Prop where
  nodes : ∀ n, d.HasPart (.node n) → n.IsTidy
  names : ∀ (e : Definition) (entries : List (String × Definition)), e.Holds d →
    e.definitions = some entries → (entries.map Prod.fst).Nodup

theorem onlyTidy_reference (text : String) : (Property.reference text).OnlyTidy := by
  intro n h
  simp at h

theorem onlyTidy_plain {type : PlainType} {unsupported : Annotations}
    (hkeywords : (unsupported.map Prod.fst).Nodup) :
    (Property.node (.plain type unsupported)).OnlyTidy := by
  intro n h
  obtain rfl : n = .plain type unsupported := by simpa using h
  exact ⟨List.nodup_nil, hkeywords⟩

theorem onlyTidy_numeric {type : NumericType} {bound : Option Value} {unsupported : Annotations}
    (hkeywords : (unsupported.map Prod.fst).Nodup) :
    (Property.node (.numeric type bound unsupported)).OnlyTidy := by
  intro n h
  obtain rfl : n = .numeric type bound unsupported := by simpa using h
  exact ⟨List.nodup_nil, hkeywords⟩

theorem onlyTidy_array {items : Node} {unsupported : Annotations}
    (hitems : (Property.node items).OnlyTidy) (hkeywords : (unsupported.map Prod.fst).Nodup) :
    (Property.node (.array items unsupported)).OnlyTidy := by
  intro n h
  rcases Property.isPart_array_iff.mp h with hself | hpart
  · obtain rfl : n = .array items unsupported := by simpa using hself
    exact ⟨List.nodup_nil, hkeywords⟩
  · exact hitems n hpart

theorem onlyTidy_object {properties : List (String × Property)} {required : Option (List String)}
    {unsupported : Annotations} (hnames : (properties.map Prod.fst).Nodup)
    (each : ∀ entry ∈ properties, entry.2.OnlyTidy)
    (hkeywords : (unsupported.map Prod.fst).Nodup) :
    (Property.node (.object properties required unsupported)).OnlyTidy := by
  intro n h
  rcases Property.isPart_object_iff.mp h with hself | ⟨entry, hentry, hpart⟩
  · obtain rfl : n = .object properties required unsupported := by simpa using hself
    exact ⟨hnames, hkeywords⟩
  · exact each entry hentry n hpart

theorem Annotations.Regular.nodup {unsupported : Annotations}
    (h : Annotations.Regular unsupported) : (unsupported.map Prod.fst).Nodup :=
  h.ordered.nodup (by decide)

theorem nodup_of_readEntries {α : Type} {read : Pointer → Value → Decoded α} {place : Pointer}
    {members : Members} {entries : List (String × α)} (keys : HasTextKeys members)
    (h : readEntries read place members = .ok entries) : (entries.map Prod.fst).Nodup := by
  have hnodup := keys.nodup
  rw [map_fst_of_readEntries h, ← List.map_map] at hnodup
  exact hnodup.of_map Scalar.str

/-- Whatever is read from the value as a property or as a map of properties is tidy. -/
def ReadsTidy (v : Value) : Prop :=
  (∀ place p, decodeProperty place v = .ok p → p.OnlyTidy) ∧
    ∀ place ps, decodePropertyMap place v = .ok ps →
      (ps.map Prod.fst).Nodup ∧ ∀ entry ∈ ps, entry.2.OnlyTidy

theorem onlyTidy_of_decodeInstance {place : Pointer} {members : Members} {type : TypeName}
    {p : Property} (each : ∀ m ∈ members, ReadsTidy m.2)
    (h : decodeInstance place members type = .ok p) : p.OnlyTidy := by
  cases type with
  | null | boolean | string =>
      obtain ⟨unsupported, hunsupported, rfl⟩ := Decoded.map_eq_ok_iff.mp h
      exact onlyTidy_plain (regular_of_decodeUnsupported hunsupported).nodup
  | integer | number =>
      obtain ⟨unsupported, hunsupported, rfl⟩ := exists_of_decodeNumeric h
      exact onlyTidy_numeric (regular_of_decodeUnsupported hunsupported).nodup
  | array =>
      obtain ⟨items, unsupported, hitems, hunsupported, rfl⟩ := exists_of_decodeArray h
      obtain ⟨v, hv, hread⟩ := exists_of_decodeItems hitems
      have htidy := (each _ (mem_of_lookup hv)).1 _ _ hread
      exact onlyTidy_array htidy (regular_of_decodeUnsupported hunsupported).nodup
  | object =>
      obtain ⟨properties, required, unsupported, hproperties, -, hunsupported, rfl⟩ :=
        exists_of_decodeObject h
      have htidy : (properties.map Prod.fst).Nodup ∧ ∀ entry ∈ properties, entry.2.OnlyTidy := by
        rw [decodeProperties_eq_lookup] at hproperties
        cases hlookup : lookup "properties" members with
        | none =>
            obtain rfl : [] = properties := by simpa [hlookup] using hproperties
            simp
        | some v =>
            rw [hlookup] at hproperties
            exact (each _ (mem_of_lookup hlookup)).2 _ _ hproperties
      exact onlyTidy_object htidy.1 htidy.2 (regular_of_decodeUnsupported hunsupported).nodup

theorem readsTidy {v : Value} (hv : v.IsJson) : ReadsTidy v := by
  induction hv with
  | @scalar s hs =>
      refine ⟨fun place p h => by simp [decodeProperty, refuse] at h, ?_⟩
      intro place ps h
      cases s with
      | null =>
          obtain rfl : [] = ps := by simpa [decodePropertyMap] using h
          simp
      | _ => simp [decodePropertyMap, refuse] at h
  | arr =>
      refine ⟨fun place p h => by simp [decodeProperty, refuse] at h, ?_⟩
      exact fun place ps h => by simp [decodePropertyMap, refuse] at h
  | @obj members keys json each =>
      constructor
      · intro place p h
        rw [decodeProperty_obj] at h
        cases hlookup : lookup "$ref" members with
        | some target =>
            rw [hlookup] at h
            obtain ⟨text, -, rfl⟩ := exists_text_of_decodeReference_eq_ok h
            exact onlyTidy_reference text
        | none =>
            rw [hlookup] at h
            obtain ⟨type, -, h⟩ := Decoded.bind_eq_ok_iff.mp h
            exact onlyTidy_of_decodeInstance each h
      · intro place ps h
        rw [decodePropertyMap, decodeEntries_eq_readEntries] at h
        refine ⟨nodup_of_readEntries keys h, ?_⟩
        intro entry hentry
        obtain ⟨w, hw, hread⟩ := exists_of_mem_readEntries h hentry
        exact (each _ hw).1 _ _ hread

theorem Definition.OnlyTidy.specification {d : Definition} (h : d.OnlyTidy) {p : Property}
    (hd : d.specification = some p) : p.OnlyTidy :=
  fun n hn => h.nodes n (.specification hd hn)

theorem Definition.OnlyTidy.entry {d : Definition} (h : d.OnlyTidy)
    {entries : List (String × Definition)} (hd : d.definitions = some entries)
    {entry : String × Definition} (hentry : entry ∈ entries) : entry.2.OnlyTidy :=
  ⟨fun n hn => h.nodes n (.definition hd hentry hn),
    fun e others he => h.names e others (.entry hd hentry he)⟩

def ReadsTidyDefinition (v : Value) : Prop :=
  (∀ place d, decodeDefinition place v = .ok d → d.OnlyTidy) ∧
    ∀ place ds, decodeDefinitionMap place v = .ok (some ds) →
      (ds.map Prod.fst).Nodup ∧ ∀ entry ∈ ds, entry.2.OnlyTidy

theorem onlyTidy_of_decodeDefinition_obj {place : Pointer} {members : Members} {d : Definition}
    (keys : HasTextKeys members) (json : ∀ m ∈ members, m.2.IsJson)
    (each : ∀ m ∈ members, ReadsTidyDefinition m.2)
    (h : decodeDefinition place (.obj members) = .ok d) : d.OnlyTidy := by
  have hread := readFrom_of_decodeDefinition h
  have hentries : ∀ entries, d.definitions = some entries →
      (entries.map Prod.fst).Nodup ∧ ∀ entry ∈ entries, entry.2.OnlyTidy := by
    intro entries hd
    have hdefinitions := hread.definitions
    rw [decodeDefinitions_eq_lookup, hd] at hdefinitions
    cases hlookup : lookup "definitions" members with
    | none => simp [hlookup] at hdefinitions
    | some v =>
        rw [hlookup] at hdefinitions
        exact (each _ (mem_of_lookup hlookup)).2 _ _ hdefinitions
  constructor
  · intro n hn
    cases hn with
    | specification hd hpart =>
        have hspecification := hread.specification
        rw [decodeSpecification, hd] at hspecification
        split_ifs at hspecification
        · obtain ⟨p, hp, hsome⟩ := Decoded.map_eq_ok_iff.mp hspecification
          obtain rfl := Option.some_inj.mp hsome
          exact (readsTidy (.obj keys json)).1 _ _ hp n hpart
        · simp at hspecification
    | definition hd hentry hpart => exact ((hentries _ hd).2 _ hentry).nodes n hpart
  · intro e others he hothers
    cases he with
    | self => exact (hentries _ hothers).1
    | entry hd hentry he => exact ((hentries _ hd).2 _ hentry).names e others he hothers

theorem readsTidyDefinition {v : Value} (hv : v.IsJson) : ReadsTidyDefinition v := by
  induction hv with
  | @scalar s hs =>
      refine ⟨fun place d h => by simp [decodeDefinition, refuse] at h, ?_⟩
      intro place ds h
      cases s <;> simp [decodeDefinitionMap, refuse] at h
  | arr =>
      refine ⟨fun place d h => by simp [decodeDefinition, refuse] at h, ?_⟩
      exact fun place ds h => by simp [decodeDefinitionMap, refuse] at h
  | @obj members keys json each =>
      refine ⟨fun place d h => onlyTidy_of_decodeDefinition_obj keys json each h, ?_⟩
      intro place ds h
      rw [decodeDefinitionMap, decodeDefinitionEntries_eq_readEntries] at h
      obtain ⟨entries, hentries, hsome⟩ := Decoded.map_eq_ok_iff.mp h
      obtain rfl : entries = ds := by simpa using hsome
      refine ⟨nodup_of_readEntries keys hentries, ?_⟩
      intro entry hentry
      obtain ⟨w, hw, hread⟩ := exists_of_mem_readEntries hentries hentry
      exact (each _ hw).1 _ _ hread

/-- A schema that was read from a JSON value has tidy nodes only. -/
theorem onlyTidy_of_decode {v : Value} (hv : v.IsJson) {d : Definition}
    (h : Schema.decode v = .ok (.definition d)) : d.OnlyTidy :=
  (readsTidyDefinition hv).1 _ _ (decodeDefinition_of_decode hv h)

end StructuralSchema
