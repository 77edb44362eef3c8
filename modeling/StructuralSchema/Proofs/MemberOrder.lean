import StructuralSchema.Proofs.Acceptance
import StructuralSchema.Proofs.Inert
import StructuralSchema.Proofs.Sameness

/-!
# The order of members in documents

Documents that differ in the order of members only are both refused, or both read as the same
schema. What is wrong with them may be found at different places, as each is read in its own order;
so the readings of two parts are compared up to the error.
-/

namespace StructuralSchema

/-- Both readings end with an error, or both with results that are related. -/
inductive Decoded.Agree {α β : Type} (r : α → β → Prop) : Decoded α → Decoded β → Prop
  | read {a : α} {b : β} (h : r a b) : Agree r (.ok a) (.ok b)
  | refused (e e' : DecodeError) : Agree r (.error e) (.error e')

namespace Decoded.Agree

variable {α β γ δ : Type} {r : α → β → Prop} {q : γ → δ → Prop} {x : Decoded α} {y : Decoded β}

theorem of_eq {z : Decoded α} {r : α → α → Prop} (h : x = z) (hr : ∀ a, x = .ok a → r a a) :
    Agree r x z := by
  subst h
  cases x with
  | ok a => exact .read (hr a rfl)
  | error e => exact .refused e e

theorem bind (h : Agree r x y) {f : α → Decoded γ} {g : β → Decoded δ}
    (hfg : ∀ a b, r a b → Agree q (f a) (g b)) : Agree q (x >>= f) (y >>= g) := by
  cases h with
  | read hab => exact hfg _ _ hab
  | refused e e' => exact .refused e e'

theorem map (h : Agree r x y) {f : α → γ} {g : β → δ} (hfg : ∀ a b, r a b → q (f a) (g b)) :
    Agree q (Except.map f x) (Except.map g y) := by
  cases h with
  | read hab => exact .read (hfg _ _ hab)
  | refused e e' => exact .refused e e'

theorem exists_iff (h : Agree r x y) : (∃ a, x = .ok a) ↔ ∃ b, y = .ok b := by
  cases h with
  | read _ => exact iff_of_true ⟨_, rfl⟩ ⟨_, rfl⟩
  | refused _ _ => exact iff_of_false (by simp) (by simp)

theorem of_ok {a : α} {b : β} (h : Agree r x y) (hx : x = .ok a) (hy : y = .ok b) : r a b := by
  subst hx hy
  cases h with
  | read hab => exact hab

end Decoded.Agree

open Decoded (Agree)

/-! ## Entries -/

section Entries

variable {α : Type} {read : Pointer → Value → Decoded α} {place : Pointer} {members : Members}

theorem exists_readEntries_iff (keys : HasTextKeys members) :
    (∃ entries, readEntries read place members = .ok entries) ↔
      ∀ name v, (Scalar.str name, v) ∈ members → ∃ a, read (place.child name) v = .ok a := by
  constructor
  · rintro ⟨entries, hread⟩ name v hv
    obtain ⟨entry, hentry, rfl⟩ : ∃ entry ∈ entries, entry.1 = name := by
      have hname : name ∈ entries.map Prod.fst :=
        (mem_names_iff_of_readEntries hread name).mpr ⟨v, hv⟩
      exact List.mem_map.mp hname
    obtain ⟨w, hw, ha⟩ := exists_of_mem_readEntries hread hentry
    obtain rfl : v = w := keys.eq_of_mem hv hw
    exact ⟨_, ha⟩
  · intro h
    induction members with
    | nil => exact ⟨[], rfl⟩
    | cons m rest ih =>
        obtain ⟨⟨name, hname⟩, -, hkeys⟩ := hasTextKeys_cons_iff.mp keys
        obtain ⟨key, v⟩ := m
        obtain rfl : key = .str name := hname
        obtain ⟨a, ha⟩ := h name v List.mem_cons_self
        obtain ⟨entries, hentries⟩ :=
          ih hkeys fun other w hw => h other w (List.mem_cons_of_mem _ hw)
        refine ⟨(name, a) :: entries, ?_⟩
        simp [readEntries, ha, hentries, pure, Except.pure, bind, Except.bind]

theorem readEntries_agree {r : α → α → Prop} {others : Members} (keys : HasTextKeys members)
    (keys' : HasTextKeys others) (hkeys : (members.map Prod.fst).Perm (others.map Prod.fst))
    (each : ∀ name v w, (Scalar.str name, v) ∈ members → (Scalar.str name, w) ∈ others →
      Agree r (read (place.child name) v) (read (place.child name) w)) :
    Agree (MapsMatch r) (readEntries read place members) (readEntries read place others) := by
  have hkey : ∀ name, HasKey name members ↔ HasKey name others := by
    intro name
    rw [hasKey_iff_mem_keys, hasKey_iff_mem_keys, hkeys.mem_iff]
  have hexists : (∃ entries, readEntries read place members = .ok entries) ↔
      ∃ entries, readEntries read place others = .ok entries := by
    rw [exists_readEntries_iff keys, exists_readEntries_iff keys']
    constructor
    · intro hall name w hw
      obtain ⟨v, hv⟩ := (hkey name).mpr ⟨w, hw⟩
      exact (each name v w hv hw).exists_iff.mp (hall name v hv)
    · intro hall name v hv
      obtain ⟨w, hw⟩ := (hkey name).mp ⟨v, hv⟩
      exact (each name v w hv hw).exists_iff.mpr (hall name w hw)
  cases hx : readEntries read place members with
  | error e =>
      cases hy : readEntries read place others with
      | error e' => exact .refused e e'
      | ok ys => simp [hx, hy] at hexists
  | ok xs =>
      cases hy : readEntries read place others with
      | error e' => simp [hx, hy] at hexists
      | ok ys =>
          refine .read ⟨⟨?_, ?_⟩, nodup_of_readEntries keys hx, nodup_of_readEntries keys' hy⟩
          · intro name
            rw [mem_names_iff_of_readEntries hx, mem_names_iff_of_readEntries hy, hkey]
          · intro name a b ha hb
            obtain ⟨v, hv, hreadv⟩ := exists_of_mem_readEntries hx ha
            obtain ⟨w, hw, hreadw⟩ := exists_of_mem_readEntries hy hb
            exact (each name v w hv hw).of_ok hreadv hreadw

end Entries

/-! ## Parts without order -/

@[elab_as_elim]
theorem relCases {r : Value → Value → Prop} {x y : Option Value} (h : Option.Rel r x y)
    {motive : Option Value → Option Value → Prop} (none : motive none none)
    (some : ∀ v w, r v w → motive (some v) (some w)) : motive x y := by
  cases h with
  | none => exact none
  | some hvw => exact some _ _ hvw

theorem text?_eq_of_rearranged {v w : Value} (h : v.Rearranged w) : v.text? = w.text? := by
  cases h <;> rfl

theorem textList?_eq_of_rearranged {v w : Value} (h : v.Rearranged w) :
    v.textList? = w.textList? := by
  cases h with
  | scalar s => rfl
  | obj _ _ => rfl
  | @arr elements others hlength each =>
      have hall := (Value.Rearranged.arr hlength each).forall₂
      show elements.mapM Value.text? = others.mapM Value.text?
      clear hlength each
      induction hall with
      | nil => rfl
      | cons hvw _ ih => rw [List.mapM_cons, List.mapM_cons, text?_eq_of_rearranged hvw, ih]

section Shallow

variable {ms ns : Members} {place : Pointer}
  (h : ∀ name, Option.Rel Value.Rearranged (lookup name ms) (lookup name ns))

include h

theorem hasMember_eq (name : String) : hasMember name ms = hasMember name ns := by
  unfold hasMember
  exact relCases (h name) rfl fun v w _ => rfl

-- the complaint shows the value, members and all
theorem decodeType_agree : Agree (· = ·) (decodeType place ms) (decodeType place ns) := by
  unfold decodeType
  refine relCases (h "type") (.of_eq rfl fun _ _ => rfl) fun v w hvw => ?_
  cases hvw with
  | scalar s => exact .of_eq rfl fun _ _ => rfl
  | arr _ _ => exact .refused _ _
  | obj _ _ => exact .refused _ _

theorem decodeId_eq : decodeId place ms = decodeId place ns := by
  unfold decodeId
  exact relCases (h "$id") rfl fun v w hvw => by cases hvw <;> rfl

theorem decodeDialect_eq : decodeDialect place ms = decodeDialect place ns := by
  unfold decodeDialect
  exact relCases (h "$schema") rfl fun v w hvw => by cases hvw <;> rfl

theorem decodeDescription_eq : decodeDescription place ms = decodeDescription place ns := by
  unfold decodeDescription
  exact relCases (h "description") rfl fun v w hvw => by cases hvw <;> rfl

theorem decodeRequired_eq : decodeRequired place ms = decodeRequired place ns := by
  unfold decodeRequired
  refine relCases (h "required") rfl fun v w hvw => ?_
  have hlist := textList?_eq_of_rearranged hvw
  cases hvw with
  | scalar s => rfl
  | obj _ _ => rfl
  | arr _ _ => simp only [Option.getD_some, hlist]

end Shallow

theorem decodeReference_eq {v w : Value} (h : v.Rearranged w) (place : Pointer) :
    decodeReference place v = decodeReference place w := by
  cases h <;> rfl

/-! ## Nodes -/

section Nodes

variable {ms ns : Members} {place : Pointer}

theorem decodeUnsupported_eq_ok (json : ∀ m ∈ ms, m.2.IsJson) :
    decodeUnsupported ms = .ok (unsupportedOf ms) := by
  cases hu : decodeUnsupported ms with
  | error e =>
      obtain ⟨-, -, -, hfalse⟩ := (decodeUnsupported_decides json).of_error hu
      exact absurd trivial hfalse
  | ok u =>
      unfold decodeUnsupported at hu
      split_ifs at hu
      exact hu.symm

theorem decodeNumeric_eq_ok (type : NumericType) (json : ∀ m ∈ ms, m.2.IsJson) :
    decodeNumeric type ms =
      .ok (.node (.numeric type (exclusiveMinimumOf ms) (unsupportedOf ms))) := by
  cases hp : decodeNumeric type ms with
  | error e =>
      obtain ⟨-, -, -, hfalse⟩ := (decodeNumeric_decides type json).of_error hp
      exact absurd trivial hfalse
  | ok p =>
      obtain ⟨u, hu, rfl⟩ := exists_of_decodeNumeric hp
      rw [decodeUnsupported_eq_ok json] at hu
      rw [Except.ok.inj hu]

theorem sameOption_exclusiveMinimumOf
    (h : Option.Rel Value.Rearranged (lookup "exclusiveMinimum" ms)
      (lookup "exclusiveMinimum" ns))
    (hsame : Option.Rel (fun v w => v.same w = true) (lookup "exclusiveMinimum" ms)
      (lookup "exclusiveMinimum" ns)) :
    sameOption Value.same (exclusiveMinimumOf ms) (exclusiveMinimumOf ns) = true := by
  unfold exclusiveMinimumOf
  generalize lookup "exclusiveMinimum" ms = x at h hsame
  generalize lookup "exclusiveMinimum" ns = y at h hsame
  cases hsame with
  | none => rfl
  | some hvw =>
      cases h with
      | some hrearranged =>
          cases hrearranged with
          | scalar s => cases s <;> first | rfl | exact hvw
          | arr _ _ => exact hvw
          | obj _ _ => exact hvw

/-- Whatever is read from the two values as a property or as a map of properties is the same. -/
def AgreeOnNodes (v w : Value) : Prop :=
  ∀ place,
    Agree (fun p q => p.same q = true) (decodeProperty place v) (decodeProperty place w) ∧
      Agree (MapsMatch fun p q => p.same q = true) (decodePropertyMap place v)
        (decodePropertyMap place w)

theorem decodeItems_agree (h : Option.Rel AgreeOnNodes (lookup "items" ms) (lookup "items" ns)) :
    Agree (fun n m => n.same m = true) (decodeItems place ms) (decodeItems place ns) := by
  rw [decodeItems_eq_lookup, decodeItems_eq_lookup]
  refine relCases h (.refused _ _) fun v w hvw => ?_
  refine (hvw _).1.bind fun p q hpq => ?_
  cases p with
  | node n =>
      cases q with
      | node m => exact .read hpq
      | reference text => cases hpq
  | reference text =>
      cases q with
      | node m => cases hpq
      | reference other => exact .refused _ _

theorem decodeProperties_agree
    (h : Option.Rel AgreeOnNodes (lookup "properties" ms) (lookup "properties" ns)) :
    Agree (MapsMatch fun p q => p.same q = true) (decodeProperties place ms)
      (decodeProperties place ns) := by
  rw [decodeProperties_eq_lookup, decodeProperties_eq_lookup]
  exact relCases h (.read .nil) fun v w hvw => (hvw _).2

/-- The members of the two objects, with what is known of those under one name. -/
structure MembersAgree (ms ns : Members) : Prop where
  json : ∀ m ∈ ms, m.2.IsJson
  json_right : ∀ m ∈ ns, m.2.IsJson
  rearranged : ∀ name, Option.Rel Value.Rearranged (lookup name ms) (lookup name ns)
  same : ∀ name, Option.Rel (fun v w => v.same w = true) (lookup name ms) (lookup name ns)

theorem decodeInstance_agree (h : MembersAgree ms ns)
    (nodes : ∀ name, Option.Rel AgreeOnNodes (lookup name ms) (lookup name ns))
    (type : TypeName) :
    Agree (fun p q => p.same q = true) (decodeInstance place ms type)
      (decodeInstance place ns type) := by
  have hkeywords := sameAnnotations_unsupportedOf h.same
  have hunsupported : Agree (fun u v => sameAnnotations u v = true) (decodeUnsupported ms)
      (decodeUnsupported ns) := by
    rw [decodeUnsupported_eq_ok h.json, decodeUnsupported_eq_ok h.json_right]
    exact .read hkeywords
  cases type with
  | null | boolean | string =>
      refine hunsupported.map fun u v huv => ?_
      simp [Property.same, Node.same, huv]
  | integer | number =>
      have hbound := sameOption_exclusiveMinimumOf (h.rearranged _) (h.same _)
      simp only [decodeInstance, decodeNumeric_eq_ok _ h.json, decodeNumeric_eq_ok _ h.json_right]
      exact .read (by simp [Property.same, Node.same, hbound, hkeywords])
  | array =>
      refine (decodeItems_agree (nodes "items")).bind fun n m hnm => ?_
      refine hunsupported.bind fun u v huv => ?_
      exact .read (by simp [Property.same, Node.same, hnm, huv])
  | object =>
      refine (decodeProperties_agree (nodes "properties")).bind fun ps qs hpq => ?_
      rw [decodeRequired_eq h.rearranged]
      refine Agree.bind (.of_eq rfl fun _ _ => rfl) fun required _ hrequired => ?_
      subst hrequired
      refine hunsupported.bind fun u v huv => ?_
      exact .read (same_object hpq huv)

theorem decodeProperty_obj_agree (h : MembersAgree ms ns)
    (nodes : ∀ name, Option.Rel AgreeOnNodes (lookup name ms) (lookup name ns))
    (place : Pointer) :
    Agree (fun p q => p.same q = true) (decodeProperty place (.obj ms))
      (decodeProperty place (.obj ns)) := by
  rw [decodeProperty_obj, decodeProperty_obj]
  refine relCases (h.rearranged "$ref") ?_ fun v w hvw => ?_
  · refine (decodeType_agree h.rearranged).bind fun type _ htype => ?_
    subst htype
    exact decodeInstance_agree h nodes type
  · refine .of_eq (decodeReference_eq hvw place) fun p hp => ?_
    obtain ⟨text, -, rfl⟩ := exists_text_of_decodeReference_eq_ok hp
    simp [Property.same]

theorem membersAgree_of_rearranged (h : (Value.obj ms).Rearranged (.obj ns))
    (hv : (Value.obj ms).IsJson) (hnan : (Value.obj ms).NanFree) : MembersAgree ms ns := by
  obtain ⟨-, json⟩ := Value.isJson_obj_iff.mp hv
  obtain ⟨-, json'⟩ := Value.isJson_obj_iff.mp (h.isJson hv)
  have free := Value.nanFree_obj_iff.mp hnan
  refine ⟨json, json', h.lookup, ?_⟩
  cases h with
  | obj hkeys each =>
      exact rel_lookup hkeys fun key v w hv hw => (each key v w hv hw).same (json _ hv) (free _ hv)

theorem agreeOnNodes_of_rearranged {v w : Value} (h : v.Rearranged w) (hv : v.IsJson)
    (hnan : v.NanFree) : AgreeOnNodes v w := by
  -- Maps are carried along with properties: the value under `properties` is itself rearranged.
  induction h with
  | scalar s =>
      intro place
      refine ⟨.refused _ _, ?_⟩
      cases s with
      | null => exact .read .nil
      | _ => exact .refused _ _
  | arr _ _ _ => exact fun place => ⟨.refused _ _, .refused _ _⟩
  | @obj members others hkeys each ih =>
      intro place
      have hrearranged : (Value.obj members).Rearranged (.obj others) := .obj hkeys each
      have hmembers := membersAgree_of_rearranged hrearranged hv hnan
      obtain ⟨keys, json⟩ := Value.isJson_obj_iff.mp hv
      obtain ⟨keys', -⟩ := Value.isJson_obj_iff.mp (hrearranged.isJson hv)
      have free := Value.nanFree_obj_iff.mp hnan
      have hparts : ∀ key v w, (key, v) ∈ members → (key, w) ∈ others → AgreeOnNodes v w :=
        fun key v w hv hw => ih key v w hv hw (json _ hv) (free _ hv)
      constructor
      · exact decodeProperty_obj_agree hmembers (rel_lookup hkeys hparts) place
      · rw [decodePropertyMap, decodePropertyMap, decodeEntries_eq_readEntries,
          decodeEntries_eq_readEntries]
        exact readEntries_agree keys keys' hkeys fun name v w hv hw => (hparts _ v w hv hw _).1

end Nodes

/-! ## Definitions -/

section Definitions

variable {ms ns : Members} {place : Pointer}

theorem lookupSame_map_str {α : Type} (name : String) (entries : List (String × α)) :
    lookupSame (.str name) (entries.map fun entry => (Scalar.str entry.1, entry.2)) =
      entries.lookup name := by
  induction entries with
  | nil => rfl
  | cons entry rest ih =>
      obtain ⟨other, a⟩ := entry
      simp only [List.map_cons, lookupSame, Scalar.same_str_iff, ih, List.lookup_cons]
      by_cases hname : other = name
      · simp [hname]
      · simp [hname, beq_false_of_ne (Ne.symm hname)]

theorem sameDependencies_map {xs ys : List (String × List String)}
    (h : MapsMatch (· = ·) xs ys) :
    sameDependencies (xs.map fun entry => (Scalar.str entry.1, entry.2))
      (ys.map fun entry => (Scalar.str entry.1, entry.2)) = true := by
  have hall : ∀ entry ∈ xs, ys.lookup entry.1 = some entry.2 := by
    intro entry hentry
    obtain ⟨names, hnames, heq⟩ := h.exists_lookup hentry
    rw [hnames, heq]
  simp only [sameDependencies, List.length_map, h.length_eq, beq_self_eq_true, Bool.true_and,
    List.all_eq_true, List.mem_map]
  rintro - ⟨entry, hentry, rfl⟩
  simp [lookupSame_map_str, hall entry hentry]

theorem decodeDependencyEntries_agree (h : (Value.obj ms).Rearranged (.obj ns))
    (hv : (Value.obj ms).IsJson) (place : Pointer) :
    Agree (fun a b => sameDependencies a b = true) (decodeDependencyEntries place ms)
      (decodeDependencyEntries place ns) := by
  obtain ⟨keys, -⟩ := Value.isJson_obj_iff.mp hv
  obtain ⟨keys', -⟩ := Value.isJson_obj_iff.mp (h.isJson hv)
  rw [decodeDependencyEntries_eq_readEntries keys, decodeDependencyEntries_eq_readEntries keys']
  refine Agree.map ?_ fun xs ys => sameDependencies_map
  cases h with
  | obj hkeys each =>
      refine readEntries_agree keys keys' hkeys fun name v w hv hw => ?_
      refine .of_eq ?_ fun _ _ => rfl
      unfold readTextList
      rw [textList?_eq_of_rearranged (each _ v w hv hw)]

theorem decodeDependencies_agree
    (h : Option.Rel (fun v w => v.Rearranged w ∧ v.IsJson) (lookup "dependencies" ms)
      (lookup "dependencies" ns)) :
    Agree (fun x y => sameOption sameDependencies x y = true) (decodeDependencies place ms)
      (decodeDependencies place ns) := by
  unfold decodeDependencies
  refine relCases h (.read rfl) fun v w hvw => ?_
  obtain ⟨hrearranged, hv⟩ := hvw
  cases hrearranged with
  | scalar s =>
      cases s with
      | null => exact .read rfl
      | _ => exact .refused _ _
  | arr _ _ => exact .refused _ _
  | obj hkeys each =>
      have hentries := decodeDependencyEntries_agree (.obj hkeys each) hv
        (place.child "dependencies")
      simp only [Option.getD_some, Value.unlooped]
      generalize decodeDependencyEntries _ _ = x at hentries ⊢
      generalize decodeDependencyEntries _ _ = y at hentries ⊢
      cases hentries with
      | read hab => exact .read hab
      | refused e e' => exact .refused e e'

theorem decodeSpecification_agree (h : (Value.obj ms).Rearranged (.obj ns))
    (hv : (Value.obj ms).IsJson) (hnan : (Value.obj ms).NanFree) :
    Agree (fun x y => sameOption Property.same x y = true) (decodeSpecification place ms)
      (decodeSpecification place ns) := by
  unfold decodeSpecification
  rw [hasMember_eq h.lookup, hasMember_eq h.lookup]
  split_ifs
  · exact ((agreeOnNodes_of_rearranged h hv hnan) place).1.map fun p q hpq => hpq
  · exact .read rfl

def AgreeOnDefinitions (v w : Value) : Prop :=
  ∀ place,
    Agree (fun d e => d.same e = true) (decodeDefinition place v) (decodeDefinition place w) ∧
      Agree (fun x y => sameDefinitions x y = true) (decodeDefinitionMap place v)
        (decodeDefinitionMap place w)

theorem decodeDefinitions_agree
    (h : Option.Rel AgreeOnDefinitions (lookup "definitions" ms) (lookup "definitions" ns)) :
    Agree (fun x y => sameDefinitions x y = true) (decodeDefinitions place ms)
      (decodeDefinitions place ns) := by
  rw [decodeDefinitions_eq_lookup, decodeDefinitions_eq_lookup]
  exact relCases h (.read rfl) fun v w hvw => (hvw _).2

theorem decodeDefinition_obj_agree (h : (Value.obj ms).Rearranged (.obj ns))
    (hv : (Value.obj ms).IsJson) (hnan : (Value.obj ms).NanFree)
    (hdefinitions : Option.Rel AgreeOnDefinitions (lookup "definitions" ms)
      (lookup "definitions" ns)) :
    Agree (fun d e => d.same e = true) (decodeDefinition place (.obj ms))
      (decodeDefinition place (.obj ns)) := by
  have hdependencies : Option.Rel (fun v w => v.Rearranged w ∧ v.IsJson)
      (lookup "dependencies" ms) (lookup "dependencies" ns) := by
    obtain ⟨-, json⟩ := Value.isJson_obj_iff.mp hv
    cases h with
    | obj hkeys each => exact rel_lookup hkeys (fun key v w hv hw =>
        ⟨each key v w hv hw, json _ hv⟩) _
  rw [decodeDefinition, decodeDefinition, decodeId_eq h.lookup, decodeDialect_eq h.lookup,
    decodeDescription_eq h.lookup]
  refine Agree.bind (.of_eq rfl fun _ _ => rfl) fun id _ hid => ?_
  refine Agree.bind (.of_eq rfl fun _ _ => rfl) fun dialect _ hdialect => ?_
  refine Agree.bind (.of_eq rfl fun _ _ => rfl) fun description _ hdescription => ?_
  refine (decodeSpecification_agree h hv hnan).bind fun p q hpq => ?_
  refine (decodeDependencies_agree hdependencies).bind fun a b hab => ?_
  refine (decodeDefinitions_agree hdefinitions).bind fun ds es hds => ?_
  subst hid hdialect hdescription
  refine .read ?_
  simp only [Definition.same, Bool.and_eq_true, beq_iff_eq]
  exact ⟨⟨⟨⟨⟨rfl, rfl⟩, rfl⟩, hab⟩, hpq⟩, hds⟩

theorem agreeOnDefinitions_of_rearranged {v w : Value} (h : v.Rearranged w) (hv : v.IsJson)
    (hnan : v.NanFree) : AgreeOnDefinitions v w := by
  induction h with
  | scalar s =>
      intro place
      refine ⟨.refused _ _, ?_⟩
      cases s with
      | null => exact .read rfl
      | _ => exact .refused _ _
  | arr _ _ _ => exact fun place => ⟨.refused _ _, .refused _ _⟩
  | @obj members others hkeys each ih =>
      intro place
      have hrearranged : (Value.obj members).Rearranged (.obj others) := .obj hkeys each
      obtain ⟨keys, json⟩ := Value.isJson_obj_iff.mp hv
      obtain ⟨keys', -⟩ := Value.isJson_obj_iff.mp (hrearranged.isJson hv)
      have free := Value.nanFree_obj_iff.mp hnan
      have hparts : ∀ key v w, (key, v) ∈ members → (key, w) ∈ others → AgreeOnDefinitions v w :=
        fun key v w hv hw => ih key v w hv hw (json _ hv) (free _ hv)
      constructor
      · exact decodeDefinition_obj_agree hrearranged hv hnan (rel_lookup hkeys hparts _)
      · rw [decodeDefinitionMap, decodeDefinitionMap, decodeDefinitionEntries_eq_readEntries,
          decodeDefinitionEntries_eq_readEntries]
        have hentries := readEntries_agree keys keys' hkeys
          fun name v w hv hw => (hparts _ v w hv hw (place.child name)).1
        exact hentries.map fun ds es hds => sameDefinitions_some hds

end Definitions

/-! ## Documents -/

/-- Documents that differ in nothing but the order of members are both accepted or both refused,
and are read as the same schema if they are accepted. -/
theorem decode_same_of_rearranged {v w : Value} (hv : v.IsJson) (hnan : v.NanFree)
    (h : v.Rearranged w) :
    ((∃ s, Schema.decode v = .ok s) ↔ ∃ t, Schema.decode w = .ok t) ∧
      ∀ s t, Schema.decode v = .ok s → Schema.decode w = .ok t → s.same t = true := by
  cases h with
  | scalar s =>
      refine ⟨Iff.rfl, fun s' t hs ht => ?_⟩
      obtain rfl : s' = t := Except.ok.inj (hs.symm.trans ht)
      cases s <;> simp [Schema.decode, Value.unlooped] at hs
      subst hs
      simp [Schema.same]
  | arr _ _ => simp [Schema.decode, Value.unlooped]
  | @obj members others hkeys each =>
      have hagree := (agreeOnDefinitions_of_rearranged (.obj hkeys each) hv hnan .root).1
      simp only [Schema.decode, Value.unlooped]
      generalize decodeDefinition .root (.obj members) = x at hagree ⊢
      generalize decodeDefinition .root (.obj others) = y at hagree ⊢
      cases hagree with
      | read h => simp [Schema.same, h]
      | refused e e' => simp

def colorNode (enum : Members) : Value :=
  .obj [(.str "type", .str "string"), (.str "enum", .obj enum)]

def colorDocument : Value :=
  .obj [
    (.str "type", .str "object"),
    (.str "properties", .obj [
      (.str "color", colorNode [(.str "red", .int 1), (.str "blue", .null)]),
      (.str "size", .obj [(.str "type", .str "integer")])])]

def reorderedDocument : Value :=
  .obj [
    (.str "properties", .obj [
      (.str "size", .obj [(.str "type", .str "integer")]),
      (.str "color", colorNode [(.str "blue", .null), (.str "red", .int 1)])]),
    (.str "type", .str "object")]

theorem reorderedDocument_decode_same :
    colorDocument.IsJson ∧ colorDocument.NanFree ∧ colorDocument.Rearranged reorderedDocument ∧
      ∃ s t, Schema.decode colorDocument = .ok s ∧ Schema.decode reorderedDocument = .ok t ∧
        s.same t = true := by
  have hjson : colorDocument.IsJson := by simp [colorDocument, colorNode, Scalar.IsJson]
  have hnan : colorDocument.NanFree := by simp [colorDocument, colorNode]
  have hnode : (colorNode [(.str "red", .int 1), (.str "blue", .null)]).Rearranged
      (colorNode [(.str "blue", .null), (.str "red", .int 1)]) := by
    apply Value.Rearranged.member [_] [] (by simp [Scalar.IsJson])
    exact .of_perm (by simp [Scalar.IsJson]) (.swap _ _ _)
  have hproperties : (Value.obj [
      (.str "color", colorNode [(.str "red", .int 1), (.str "blue", .null)]),
      (.str "size", .obj [(.str "type", .str "integer")])]).Rearranged
        (.obj [
          (.str "size", .obj [(.str "type", .str "integer")]),
          (.str "color", colorNode [(.str "blue", .null), (.str "red", .int 1)])]) := by
    apply (Value.Rearranged.member [] [_] (by simp [colorNode, Scalar.IsJson]) hnode).trans
    exact .of_perm (by simp [colorNode, Scalar.IsJson]) (.swap _ _ _)
  have hdocument : colorDocument.Rearranged reorderedDocument := by
    apply (Value.Rearranged.member [_] [] hjson hproperties).trans
    exact .of_perm (by simp [colorNode, Scalar.IsJson]) (.swap _ _ _)
  obtain ⟨s, hs⟩ : ∃ s, Schema.decode colorDocument = .ok s := ⟨_, rfl⟩
  obtain ⟨haccepted, hsame⟩ := decode_same_of_rearranged hjson hnan hdocument
  obtain ⟨t, ht⟩ := haccepted.mp ⟨s, hs⟩
  exact ⟨hjson, hnan, hdocument, s, t, hs, ht, hsame s t hs ht⟩

end StructuralSchema
