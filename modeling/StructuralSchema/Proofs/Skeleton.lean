import Mathlib.Data.List.Perm.Basic
import StructuralSchema.Proofs.Parts
import StructuralSchema.Schema.Equality

/-!
# Skeletons of schemas

What validation can tell of a schema: the types and references that stand in it and their names,
which names are required, and which unsupported keywords there are. Bounds, the values of
unsupported keywords, what a definition says of itself and the order of maps do not count. In two
schemas with the same skeleton every reference has the same outcome.
-/

namespace StructuralSchema

def SameKeywords (a b : Annotations) : Prop :=
  ∀ k, k ∈ a.map Prod.fst ↔ k ∈ b.map Prod.fst

/-- The same required names. None given counts as none required. -/
def SameRequired (a b : Option (List String)) : Prop :=
  ∀ name, name ∈ a.getD [] ↔ name ∈ b.getD []

mutual

inductive Node.SameSkeleton : Node → Node → Prop
  | plain {type : PlainType} {u v : List (Keyword × Value)} (hkeywords : SameKeywords u v) :
      Node.SameSkeleton (.plain type u) (.plain type v)
  | numeric {type : NumericType} {a b : Option Value} {u v : List (Keyword × Value)}
      (hkeywords : SameKeywords u v) : Node.SameSkeleton (.numeric type a u) (.numeric type b v)
  | array {n m : Node} {u v : List (Keyword × Value)} (hitems : Node.SameSkeleton n m)
      (hkeywords : SameKeywords u v) : Node.SameSkeleton (.array n u) (.array m v)
  | object {ps qs : List (String × Property)} {a b : Option (List String)}
      {u v : List (Keyword × Value)}
      (hnames : ∀ name, name ∈ ps.map Prod.fst ↔ name ∈ qs.map Prod.fst)
      (each : ∀ name p q, (name, p) ∈ ps → (name, q) ∈ qs → Property.SameSkeleton p q)
      (hrequired : SameRequired a b) (hkeywords : SameKeywords u v) :
      Node.SameSkeleton (.object ps a u) (.object qs b v)

inductive Property.SameSkeleton : Property → Property → Prop
  | node {n m : Node} (h : Node.SameSkeleton n m) : Property.SameSkeleton (.node n) (.node m)
  | reference (text : String) : Property.SameSkeleton (.reference text) (.reference text)

end

/-- The definitions have the same skeleton. Whether definitions are given counts, even if there
are none. -/
inductive Definition.SameSkeleton : Definition → Definition → Prop
  | mk {d e : Definition}
      (hspecification : Option.Rel Property.SameSkeleton d.specification e.specification)
      (hgiven : d.definitions = none ↔ e.definitions = none)
      (hnames : ∀ name, name ∈ (d.definitions.getD []).map Prod.fst ↔
        name ∈ (e.definitions.getD []).map Prod.fst)
      (each : ∀ name f g, (name, f) ∈ d.definitions.getD [] → (name, g) ∈ e.definitions.getD [] →
        Definition.SameSkeleton f g) : Definition.SameSkeleton d e

/-! ## Maps with the same names -/

/-- Two maps have the same names, and what stands under one name is related. -/
structure MapsRelate {α : Type} (r : α → α → Prop) (xs ys : List (String × α)) : Prop where
  names : ∀ name, name ∈ xs.map Prod.fst ↔ name ∈ ys.map Prod.fst
  entries : ∀ name a b, (name, a) ∈ xs → (name, b) ∈ ys → r a b

section Maps

variable {α β : Type} {r : α → α → Prop} {xs ys : List (String × α)}

theorem lookup_eq_none_iff_notMem {entries : List (String × α)} {name : String} :
    entries.lookup name = none ↔ name ∉ entries.map Prod.fst := by
  induction entries with
  | nil => simp
  | cons entry rest ih =>
      rw [List.lookup_cons, List.map_cons, List.mem_cons, not_or]
      by_cases hname : name = entry.1
      · simp [hname]
      · rw [beq_false_of_ne hname]
        simpa [hname] using ih

theorem MapsRelate.lookup (h : MapsRelate r xs ys) (name : String) :
    Option.Rel r (xs.lookup name) (ys.lookup name) := by
  have hnone : xs.lookup name = none ↔ ys.lookup name = none := by
    rw [lookup_eq_none_iff_notMem, lookup_eq_none_iff_notMem, h.names]
  cases hx : xs.lookup name with
  | none =>
      rw [hnone.mp hx]
      exact .none
  | some a =>
      cases hy : ys.lookup name with
      | none => simp [hnone.mpr hy] at hx
      | some b =>
          exact .some (h.entries name a b (mem_of_lookup_eq_some hx) (mem_of_lookup_eq_some hy))

theorem flatMap_eq_flatMap_names (hxs : (xs.map Prod.fst).Nodup) (f : String × α → List β) :
    xs.flatMap f = (xs.map Prod.fst).flatMap fun name =>
      ((xs.lookup name).map fun a => f (name, a)).getD [] := by
  rw [List.flatMap_map]
  refine List.flatMap_congr fun entry hentry => ?_
  rw [lookup_of_mem hxs hentry]
  rfl

/-- What is collected from related maps is the same up to its order. -/
theorem MapsRelate.flatMap_perm (h : MapsRelate r xs ys) (hxs : (xs.map Prod.fst).Nodup)
    (hys : (ys.map Prod.fst).Nodup) {f g : String × α → List β}
    (each : ∀ name a b, (name, a) ∈ xs → (name, b) ∈ ys → (f (name, a)).Perm (g (name, b))) :
    (xs.flatMap f).Perm (ys.flatMap g) := by
  have hnames : (xs.map Prod.fst).Perm (ys.map Prod.fst) :=
    (List.perm_ext_iff_of_nodup hxs hys).mpr h.names
  rw [flatMap_eq_flatMap_names hxs, flatMap_eq_flatMap_names hys]
  refine hnames.flatMap fun name _ => ?_
  have hlookup := h.lookup name
  generalize hx : xs.lookup name = x at hlookup
  generalize hy : ys.lookup name = y at hlookup
  cases hlookup with
  | none => exact .refl []
  | some _ => exact each name _ _ (mem_of_lookup_eq_some hx) (mem_of_lookup_eq_some hy)

theorem Node.SameSkeleton.properties {n m : Node} (h : n.SameSkeleton m) :
    MapsRelate Property.SameSkeleton n.properties m.properties := by
  cases h with
  | object hnames each _ _ => exact ⟨hnames, each⟩
  | _ => exact ⟨fun name => Iff.rfl, fun name p q hp => by simp [Node.properties] at hp⟩

theorem Node.SameSkeleton.keywords {n m : Node} (h : n.SameSkeleton m) :
    SameKeywords n.unsupported m.unsupported := by
  cases h with
  | plain hkeywords => exact hkeywords
  | numeric hkeywords => exact hkeywords
  | array _ hkeywords => exact hkeywords
  | object _ _ _ hkeywords => exact hkeywords

theorem Node.SameSkeleton.typeName_eq {n m : Node} (h : n.SameSkeleton m) :
    n.typeName = m.typeName := by
  cases h with
  | @plain type _ _ _ => cases type <;> rfl
  | @numeric type _ _ _ _ _ => cases type <;> rfl
  | array _ _ => rfl
  | object _ _ _ _ => rfl

theorem Definition.sameSkeleton_iff {d e : Definition} :
    d.SameSkeleton e ↔ Option.Rel Property.SameSkeleton d.specification e.specification ∧
      Option.Rel (MapsRelate Definition.SameSkeleton) d.definitions e.definitions := by
  constructor
  · rintro ⟨hspecification, hgiven, hnames, each⟩
    refine ⟨hspecification, ?_⟩
    generalize d.definitions = x at hgiven hnames each
    generalize e.definitions = y at hgiven hnames each
    cases x with
    | none =>
        rw [hgiven.mp rfl]
        exact .none
    | some ds =>
        cases y with
        | none => simp at hgiven
        | some es => exact .some ⟨hnames, each⟩
  · rintro ⟨hspecification, hdefinitions⟩
    have hparts : (d.definitions = none ↔ e.definitions = none) ∧
        MapsRelate Definition.SameSkeleton (d.definitions.getD []) (e.definitions.getD []) := by
      generalize d.definitions = x at hdefinitions ⊢
      generalize e.definitions = y at hdefinitions ⊢
      cases hdefinitions with
      | none => exact ⟨Iff.rfl, ⟨fun _ => Iff.rfl, by simp⟩⟩
      | some h => exact ⟨by simp, h⟩
    obtain ⟨hgiven, hmaps⟩ := hparts
    exact .mk hspecification hgiven hmaps.names hmaps.entries

end Maps

/-! ## Equal schemas -/

theorem mem_iff_of_subset {κ : Type} {a b : List κ} (ha : a.Nodup) (hsub : a ⊆ b)
    (hlength : a.length = b.length) (k : κ) : k ∈ a ↔ k ∈ b := by
  have hperm : a.Perm b :=
    (List.subperm_of_subset ha hsub).perm_of_length_le (Nat.le_of_eq hlength.symm)
  exact hperm.mem_iff

theorem mapsRelate_of_lookup {α : Type} {r : α → α → Prop} {xs ys : List (String × α)}
    (hlength : xs.length = ys.length) (hxs : (xs.map Prod.fst).Nodup)
    (hys : (ys.map Prod.fst).Nodup)
    (within : ∀ entry ∈ xs, ∃ b, ys.lookup entry.1 = some b ∧ r entry.2 b) :
    MapsRelate r xs ys := by
  constructor
  · refine mem_iff_of_subset hxs ?_ (by simpa using hlength)
    intro name hname
    obtain ⟨entry, hentry, rfl⟩ := List.mem_map.mp hname
    obtain ⟨b, hb, -⟩ := within entry hentry
    exact List.mem_map.mpr ⟨(entry.1, b), mem_of_lookup_eq_some hb, rfl⟩
  · intro name a b ha hb
    obtain ⟨c, hc, hr⟩ := within (name, a) ha
    have hlookup : ys.lookup name = some b := lookup_of_mem hys hb
    obtain rfl : b = c := by simpa [hlookup] using hc
    exact hr

theorem sameKeywords_of_sameAnnotations {u v : Annotations} (hu : (u.map Prod.fst).Nodup)
    (h : sameAnnotations u v = true) : SameKeywords u v := by
  obtain ⟨hlength, hall⟩ : u.length = v.length ∧ _ := by
    simpa only [sameAnnotations, sameMap, Bool.and_eq_true, beq_iff_eq, List.all_eq_true] using h
  refine mem_iff_of_subset hu ?_ (by simpa using hlength)
  intro k hk
  obtain ⟨entry, hentry, rfl⟩ := List.mem_map.mp hk
  have hfound := hall entry hentry
  cases hv : v.lookup entry.1 with
  | none => simp [hv] at hfound
  | some w =>
      obtain ⟨before, after, rfl, -⟩ := List.lookup_eq_some_iff.mp hv
      simp

mutual

theorem Node.sameSkeleton_of_same {n m : Node} (h : n.same m = true)
    (hn : (Property.node n).OnlyTidy) (hm : (Property.node m).OnlyTidy) : n.SameSkeleton m := by
  have hkeywords := (hn n .self).keywords
  match n, m with
  | .plain t u, .plain t' v =>
      obtain ⟨rfl, hu⟩ : t = t' ∧ _ := by simpa [Node.same] using h
      exact .plain (sameKeywords_of_sameAnnotations hkeywords hu)
  | .numeric t b u, .numeric t' c v =>
      obtain ⟨⟨rfl, -⟩, hu⟩ : (t = t' ∧ _) ∧ _ := by simpa [Node.same] using h
      exact .numeric (sameKeywords_of_sameAnnotations hkeywords hu)
  | .array items u, .array others v =>
      obtain ⟨hitems, hu⟩ : items.same others = true ∧ _ := by simpa [Node.same] using h
      have hi : (Property.node items).OnlyTidy := fun k hk => hn k (.items hk)
      have ho : (Property.node others).OnlyTidy := fun k hk => hm k (.items hk)
      exact .array (Node.sameSkeleton_of_same hitems hi ho)
        (sameKeywords_of_sameAnnotations hkeywords hu)
  | .object ps r u, .object qs r' v =>
      obtain ⟨⟨⟨hlength, hwithin⟩, rfl⟩, hu⟩ :
          ((ps.length = qs.length ∧ propertiesWithin ps qs = true) ∧ r = r') ∧ _ := by
        simpa [Node.same] using h
      have hps : ∀ entry ∈ ps, entry.2.OnlyTidy := fun entry hentry k hk =>
        hn k (.property hentry hk)
      have hqs : ∀ entry ∈ qs, entry.2.OnlyTidy := fun entry hentry k hk =>
        hm k (.property hentry hk)
      have hmaps := mapsRelate_of_lookup hlength (hn _ .self).names (hm _ .self).names
        (sameSkeleton_of_propertiesWithin hwithin hps hqs)
      exact .object hmaps.names hmaps.entries (fun name => Iff.rfl)
        (sameKeywords_of_sameAnnotations hkeywords hu)

theorem Property.sameSkeleton_of_same {p q : Property} (h : p.same q = true)
    (hp : p.OnlyTidy) (hq : q.OnlyTidy) : p.SameSkeleton q := by
  match p, q with
  | .node n, .node m =>
      rw [Property.same] at h
      exact .node (Node.sameSkeleton_of_same h hp hq)
  | .reference text, .reference other =>
      obtain rfl : text = other := by simpa [Property.same] using h
      exact .reference text

theorem sameSkeleton_of_propertiesWithin {ps qs : List (String × Property)}
    (h : propertiesWithin ps qs = true) (hps : ∀ entry ∈ ps, entry.2.OnlyTidy)
    (hqs : ∀ entry ∈ qs, entry.2.OnlyTidy) :
    ∀ entry ∈ ps, ∃ q, qs.lookup entry.1 = some q ∧ entry.2.SameSkeleton q := by
  match ps with
  | [] => simp
  | (name, p) :: rest =>
      obtain ⟨hp, hrest⟩ := List.forall_mem_cons.mp hps
      obtain ⟨hfirst, hlater⟩ := Bool.and_eq_true_iff.mp h
      refine List.forall_mem_cons.mpr
        ⟨?_, sameSkeleton_of_propertiesWithin hlater hrest hqs⟩
      cases hlookup : qs.lookup name with
      | none => simp [hlookup] at hfirst
      | some q =>
          rw [hlookup] at hfirst
          exact ⟨q, rfl, Property.sameSkeleton_of_same hfirst hp
            (hqs _ (mem_of_lookup_eq_some hlookup))⟩

end

theorem rel_of_sameOption {α : Type} {same : α → α → Bool} {r : α → α → Prop} {x y : Option α}
    (h : sameOption same x y = true)
    (each : ∀ a b, x = some a → y = some b → same a b = true → r a b) : Option.Rel r x y := by
  cases x with
  | none =>
      cases y with
      | none => exact .none
      | some b => simp [sameOption] at h
  | some a =>
      cases y with
      | none => simp [sameOption] at h
      | some b => exact .some (each a b rfl rfl h)

mutual

theorem Definition.sameSkeleton_of_same {d e : Definition} (h : d.same e = true)
    (hd : d.OnlyTidy) (he : e.OnlyTidy) : d.SameSkeleton e := by
  match d with
  | .mk id dialect description dependencies specification definitions =>
      obtain ⟨⟨-, hspecification⟩, hdefinitions⟩ :
          (_ ∧ sameOption Property.same specification e.specification = true) ∧
            sameDefinitions definitions e.definitions = true := by
        simpa only [Definition.same, Bool.and_eq_true] using h
      refine Definition.sameSkeleton_iff.mpr ⟨?_, ?_⟩
      · refine rel_of_sameOption hspecification ?_
        intro p q hp hq hsame
        exact Property.sameSkeleton_of_same hsame (hd.specification hp) (he.specification hq)
      · refine relate_of_sameDefinitions hdefinitions ?_ ?_
        · exact fun ds hds => ⟨hd.names _ ds .self hds, fun entry => hd.entry hds⟩
        · exact fun es hes => ⟨he.names _ es .self hes, fun entry => he.entry hes⟩

theorem relate_of_sameDefinitions {x y : Option (List (String × Definition))}
    (h : sameDefinitions x y = true)
    (hx : ∀ ds, x = some ds → (ds.map Prod.fst).Nodup ∧ ∀ entry ∈ ds, entry.2.OnlyTidy)
    (hy : ∀ es, y = some es → (es.map Prod.fst).Nodup ∧ ∀ entry ∈ es, entry.2.OnlyTidy) :
    Option.Rel (MapsRelate Definition.SameSkeleton) x y := by
  match x, y with
  | none, none => exact .none
  | some ds, some es =>
      obtain ⟨hlength, hwithin⟩ := Bool.and_eq_true_iff.mp h
      obtain ⟨hds, hdtidy⟩ := hx ds rfl
      obtain ⟨hes, hetidy⟩ := hy es rfl
      exact .some (mapsRelate_of_lookup (beq_iff_eq.mp hlength) hds hes
        (sameSkeleton_of_definitionsWithin hwithin hdtidy hetidy))

theorem sameSkeleton_of_definitionsWithin {ds es : List (String × Definition)}
    (h : definitionsWithin ds es = true) (hds : ∀ entry ∈ ds, entry.2.OnlyTidy)
    (hes : ∀ entry ∈ es, entry.2.OnlyTidy) :
    ∀ entry ∈ ds, ∃ e, es.lookup entry.1 = some e ∧ entry.2.SameSkeleton e := by
  match ds with
  | [] => simp
  | (name, d) :: rest =>
      obtain ⟨hd, hrest⟩ := List.forall_mem_cons.mp hds
      obtain ⟨hfirst, hlater⟩ := Bool.and_eq_true_iff.mp h
      refine List.forall_mem_cons.mpr
        ⟨?_, sameSkeleton_of_definitionsWithin hlater hrest hes⟩
      cases hlookup : es.lookup name with
      | none => simp [hlookup] at hfirst
      | some e =>
          rw [hlookup] at hfirst
          exact ⟨e, rfl, Definition.sameSkeleton_of_same hfirst hd
            (hes _ (mem_of_lookup_eq_some hlookup))⟩

end

/-! ## Walks -/

/-- Both fail for the same reason, or both succeed with related results. -/
inductive SameOutcome {ε α : Type} (r : α → α → Prop) : Except ε α → Except ε α → Prop
  | error (e : ε) : SameOutcome r (.error e) (.error e)
  | ok {a b : α} (h : r a b) : SameOutcome r (.ok a) (.ok b)

namespace Reference

inductive Position.SameSkeleton : Position → Position → Prop
  | definition {d e : Definition} (h : d.SameSkeleton e) :
      SameSkeleton (.definition d) (.definition e)
  | propertyMap {ps qs : List (String × Property)} (h : MapsRelate Property.SameSkeleton ps qs) :
      SameSkeleton (.propertyMap ps) (.propertyMap qs)
  | definitionMap {ds es : List (String × Definition)}
      (h : MapsRelate Definition.SameSkeleton ds es) :
      SameSkeleton (.definitionMap ds) (.definitionMap es)
  | property {p q : Property} (h : p.SameSkeleton q) : SameSkeleton (.property p) (.property q)

inductive Target.SameSkeleton : Target → Target → Prop
  | property {p q : Property} (h : p.SameSkeleton q) : SameSkeleton (.property p) (.property q)
  | definition {d e : Definition} (h : d.SameSkeleton e) :
      SameSkeleton (.definition d) (.definition e)

variable {a b : Position}

theorem Position.SameSkeleton.property? (h : a.SameSkeleton b) :
    Option.Rel Property.SameSkeleton a.property? b.property? := by
  cases h with
  | definition h => exact (Definition.sameSkeleton_iff.mp h).1
  | propertyMap _ => exact .none
  | definitionMap _ => exact .none
  | property h => exact .some h

theorem propertyMapOf?_sameSkeleton {p q : Option Property}
    (h : Option.Rel Property.SameSkeleton p q) :
    Option.Rel Position.SameSkeleton (propertyMapOf? p) (propertyMapOf? q) := by
  cases h with
  | none => exact .none
  | some h =>
      cases h with
      | reference text => exact .none
      | node h =>
          have hproperties := h.properties
          cases h with
          | object _ _ _ _ => exact .some (.propertyMap hproperties)
          | _ => exact .none

theorem stepProperties_sameSkeleton (h : a.SameSkeleton b) :
    Option.Rel Position.SameSkeleton (stepProperties a) (stepProperties b) := by
  have hnode := propertyMapOf?_sameSkeleton h.property?
  cases h with
  | propertyMap h => exact propertyMapOf?_sameSkeleton (h.lookup "properties")
  | _ => exact hnode

theorem stepItems_sameSkeleton (h : a.SameSkeleton b) :
    Option.Rel Position.SameSkeleton (stepItems a) (stepItems b) := by
  have hnode := h.property?
  unfold stepItems
  generalize a.property? = p at hnode
  generalize b.property? = q at hnode
  cases hnode with
  | none => exact .none
  | some h =>
      cases h with
      | reference text => exact .none
      | node h =>
          cases h with
          | array hitems _ => exact .some (.property (.node hitems))
          | _ => exact .none

theorem map_sameSkeleton {α : Type} {r : α → α → Prop} {x y : Option α} {f : α → Position}
    (h : Option.Rel r x y) (hf : ∀ {x y}, r x y → (f x).SameSkeleton (f y)) :
    Option.Rel Position.SameSkeleton (x.map f) (y.map f) := by
  cases h with
  | none => exact .none
  | some h => exact .some (hf h)

/-- A step leads from positions with the same skeleton to such positions, or from neither. -/
theorem step_sameSkeleton (h : a.SameSkeleton b) (segment : String) :
    Option.Rel Position.SameSkeleton (step a segment) (step b segment) := by
  have hproperties := stepProperties_sameSkeleton h
  have hitems := stepItems_sameSkeleton h
  cases h with
  | definitionMap h => exact map_sameSkeleton (h.lookup segment) .definition
  | definition h =>
      simp only [step]
      split_ifs
      · exact hproperties
      · exact hitems
      · exact map_sameSkeleton (Definition.sameSkeleton_iff.mp h).2 .definitionMap
      · exact .none
  | propertyMap h =>
      simp only [step]
      split_ifs
      · exact hproperties
      · exact hitems
      · exact map_sameSkeleton (h.lookup segment) .property
  | property h =>
      simp only [step]
      split_ifs
      · exact hproperties
      · exact hitems
      · exact .none

theorem steps_sameSkeleton (h : a.SameSkeleton b) (segments : List String) :
    SameOutcome Position.SameSkeleton (steps a segments) (steps b segments) := by
  induction segments generalizing a b with
  | nil => exact .ok h
  | cons segment rest ih =>
      have hstep := step_sameSkeleton h segment
      simp only [steps]
      generalize step a segment = next at hstep
      generalize step b segment = other at hstep
      cases hstep with
      | none => exact .error _
      | some hnext => exact ih hnext

theorem target?_sameSkeleton (h : a.SameSkeleton b) :
    Option.Rel Target.SameSkeleton (target? a) (target? b) := by
  cases h with
  | propertyMap _ => exact .none
  | definitionMap _ => exact .none
  | property h => exact .some (.property h)
  | @definition d e h =>
      obtain ⟨hspecification, -⟩ := Definition.sameSkeleton_iff.mp h
      simp only [target?]
      generalize d.specification = p at hspecification
      generalize e.specification = q at hspecification
      cases hspecification with
      | none => exact .some (.definition h)
      | some hp => exact .some (.property hp)

variable {d e : Definition}

theorem walk_sameSkeleton (h : d.SameSkeleton e) (reference : String) :
    SameOutcome Target.SameSkeleton (walk (.definition d) reference)
      (walk (.definition e) reference) := by
  unfold walk
  cases segments? reference with
  | none => exact .error _
  | some segments =>
      have hsteps := steps_sameSkeleton (.definition h) segments
      simp only
      generalize steps (.definition d) segments = reached at hsteps
      generalize steps (.definition e) segments = other at hsteps
      cases hsteps with
      | error reason => exact .error reason
      | @ok last last' hlast =>
          have htarget := target?_sameSkeleton hlast
          simp only
          generalize target? last = target at htarget
          generalize target? last' = target' at htarget
          cases htarget with
          | none => exact .error _
          | some htarget => exact .ok htarget

theorem follow_sameSkeleton (h : d.SameSkeleton e) (limit : Int) (remaining : ℕ)
    (visited : List String) (current : String) :
    SameOutcome (Option.Rel Node.SameSkeleton)
      (follow (.definition d) limit remaining visited current)
      (follow (.definition e) limit remaining visited current) := by
  induction remaining generalizing visited current with
  | zero =>
      unfold follow
      split_ifs
      · exact .error _
      · exact .error _
  | succ remaining ih =>
      unfold follow
      split_ifs
      · exact .error _
      · have hwalk := walk_sameSkeleton h current
        simp only
        generalize walk (.definition d) current = target at hwalk
        generalize walk (.definition e) current = target' at hwalk
        cases hwalk with
        | error reason => exact .error _
        | ok htarget =>
            cases htarget with
            | definition _ => exact .ok .none
            | property hp =>
                cases hp with
                | reference next => exact ih (visited ++ [current]) next
                | node hn => exact .ok (.some hn)

/-- In definitions with the same skeleton a reference fails for the same reason or leads to nodes
with the same skeleton. -/
theorem dereference_sameSkeleton (h : d.SameSkeleton e) (limit : Int) (reference : String) :
    SameOutcome (Option.Rel Node.SameSkeleton)
      (dereference (.definition d) limit reference)
      (dereference (.definition e) limit reference) :=
  follow_sameSkeleton h limit limit.toNat [] reference

end Reference

end StructuralSchema
