import StructuralSchema.Proofs.JsonReading
import StructuralSchema.Proofs.Rearrangement
import StructuralSchema.Proofs.Skeleton

/-!
# Sameness up to order

Rearranged values are the same, unless a number in them is not one, and so are maps with the same
names if what stands under each name is the same.
-/

namespace StructuralSchema

/-- No number in the value is the one that is not a number. -/
inductive Value.NanFree : Value → Prop
  | scalar {s : Scalar} (h : s ≠ .float .nan) : NanFree (.scalar s)
  | arr {elements : List Value} (each : ∀ v ∈ elements, NanFree v) : NanFree (.arr elements)
  | obj {members : List (Scalar × Value)} (each : ∀ m ∈ members, NanFree m.2) :
      NanFree (.obj members)

@[simp] theorem Value.nanFree_scalar_iff {s : Scalar} :
    (Value.scalar s).NanFree ↔ s ≠ .float .nan := by
  refine ⟨?_, .scalar⟩
  intro h
  cases h with
  | scalar hs => exact hs

@[simp] theorem Value.nanFree_arr_iff {elements : List Value} :
    (Value.arr elements).NanFree ↔ ∀ v ∈ elements, v.NanFree := by
  refine ⟨?_, .arr⟩
  intro h
  cases h with
  | arr each => exact each

@[simp] theorem Value.nanFree_obj_iff {members : Members} :
    (Value.obj members).NanFree ↔ ∀ m ∈ members, m.2.NanFree := by
  refine ⟨?_, .obj⟩
  intro h
  cases h with
  | obj each => exact each

/-! ## Values -/

theorem Binary64.sameValue_self {x : Binary64} (h : x ≠ .nan) : x.sameValue x = true := by
  cases x with
  | nan => exact absurd rfl h
  | infinite negative => simp [sameValue]
  | finite negative rank => simp [sameValue]

theorem Scalar.same_self {s : Scalar} (hs : s.IsJson) (h : s ≠ .float .nan) :
    s.same s = true := by
  cases s with
  | float x =>
      have hx : x ≠ .nan := fun heq => h (heq ▸ rfl)
      exact Binary64.sameValue_self hx
  | bytes | date | time => exact hs.elim
  | _ => simp [Scalar.same, Scalar.asInt?]

theorem sameElements_of_forall₂ {elements others : List Value}
    (h : List.Forall₂ (fun v w => v.same w = true) elements others) :
    sameElements elements others = true := by
  induction h with
  | nil => rfl
  | cons hvw _ ih => exact Bool.and_eq_true_iff.mpr ⟨hvw, ih⟩

theorem membersWithin_of_lookupSame {members others : Members}
    (h : ∀ m ∈ members, ∃ w, lookupSame m.1 others = some w ∧ m.2.same w = true) :
    membersWithin members others = true := by
  induction members with
  | nil => rfl
  | cons m rest ih =>
      obtain ⟨⟨w, hw, hsame⟩, hrest⟩ := List.forall_mem_cons.mp h
      obtain ⟨key, v⟩ := m
      rw [membersWithin, hw, ih hrest, Bool.and_true]
      exact hsame

theorem lookupSame_str {α : Type} {entries : List (Scalar × α)}
    (htext : ∀ m ∈ entries, ∃ name, m.1 = .str name) (name : String) :
    lookupSame (.str name) entries = lookup name entries := by
  induction entries with
  | nil => rfl
  | cons m rest ih =>
      obtain ⟨⟨other, hother⟩, hrest⟩ := List.forall_mem_cons.mp htext
      obtain ⟨key, a⟩ := m
      obtain rfl : key = .str other := hother
      have hkey : (Scalar.str other).same (.str name) = true ↔
          (Scalar.str other : Scalar) = .str name := by
        rw [Scalar.same_str_iff, Scalar.str.injEq]
      simp only [lookupSame, lookup, hkey, ih hrest]

theorem Value.Rearranged.same {v w : Value} (h : v.Rearranged w) (hv : v.IsJson)
    (hnan : v.NanFree) : v.same w = true := by
  induction h with
  | scalar s =>
      have hs : s ≠ .float .nan := Value.nanFree_scalar_iff.mp hnan
      exact Scalar.same_self (Value.isJson_scalar_iff.mp hv) hs
  | @arr elements others hlength _ ih =>
      have json := Value.isJson_arr_iff.mp hv
      have free := Value.nanFree_arr_iff.mp hnan
      apply sameElements_of_forall₂
      refine List.forall₂_iff_get.mpr ⟨hlength, fun i hi hi' => ?_⟩
      have hmem : elements[i] ∈ elements := List.getElem_mem hi
      exact ih i _ _ (List.getElem?_eq_getElem hi) (List.getElem?_eq_getElem hi')
        (json _ hmem) (free _ hmem)
  | @obj members others hkeys each ih =>
      have hothers : (Value.obj others).IsJson := (Rearranged.obj hkeys each).isJson hv
      obtain ⟨keys, json⟩ := Value.isJson_obj_iff.mp hv
      obtain ⟨keys', -⟩ := Value.isJson_obj_iff.mp hothers
      have free := Value.nanFree_obj_iff.mp hnan
      have hlength : members.length = others.length := by
        simpa using hkeys.length_eq
      have hwithin : membersWithin members others = true := by
        apply membersWithin_of_lookupSame
        rintro ⟨key, v⟩ hm
        obtain ⟨name, rfl⟩ : ∃ name, key = .str name := keys.text _ hm
        obtain ⟨w, hw⟩ : HasKey name others := by
          have hkey : Scalar.str name ∈ others.map Prod.fst :=
            hkeys.mem_iff.mp (List.mem_map_of_mem hm)
          simpa [HasKey] using hkey
        refine ⟨w, ?_, ih _ v w hm hw (json _ hm) (free _ hm)⟩
        rw [lookupSame_str keys'.text]
        exact (lookup_eq_some_iff keys').mpr hw
      simp [Value.same, hlength, hwithin]

/-! ## Maps -/

section Maps

variable {α : Type} {r : α → α → Prop} {xs ys : List (String × α)}

/-- Maps without repeated names that relate. -/
structure MapsMatch (r : α → α → Prop) (xs ys : List (String × α)) : Prop extends
    MapsRelate r xs ys where
  nodup : (xs.map Prod.fst).Nodup
  nodup_right : (ys.map Prod.fst).Nodup

namespace MapsMatch

theorem nil : MapsMatch r [] [] :=
  ⟨⟨fun _ => Iff.rfl, by simp⟩, List.nodup_nil, List.nodup_nil⟩

theorem length_eq (h : MapsMatch r xs ys) : xs.length = ys.length := by
  have hperm : (xs.map Prod.fst).Perm (ys.map Prod.fst) :=
    (List.perm_ext_iff_of_nodup h.nodup h.nodup_right).mpr h.names
  simpa using hperm.length_eq

theorem exists_lookup (h : MapsMatch r xs ys) {entry : String × α} (hentry : entry ∈ xs) :
    ∃ b, ys.lookup entry.1 = some b ∧ r entry.2 b := by
  have hrel := h.toMapsRelate.lookup entry.1
  rw [lookup_of_mem h.nodup hentry] at hrel
  generalize ys.lookup entry.1 = y at hrel
  cases hrel with
  | some hr => exact ⟨_, rfl, hr⟩

end MapsMatch

theorem propertiesWithin_of_lookup {ps qs : List (String × Property)}
    (h : ∀ entry ∈ ps, ∃ q, qs.lookup entry.1 = some q ∧ entry.2.same q = true) :
    propertiesWithin ps qs = true := by
  induction ps with
  | nil => rfl
  | cons entry rest ih =>
      obtain ⟨⟨q, hq, hsame⟩, hrest⟩ := List.forall_mem_cons.mp h
      rw [propertiesWithin, hq, ih hrest, Bool.and_true]
      exact hsame

theorem definitionsWithin_of_lookup {ds es : List (String × Definition)}
    (h : ∀ entry ∈ ds, ∃ e, es.lookup entry.1 = some e ∧ entry.2.same e = true) :
    definitionsWithin ds es = true := by
  induction ds with
  | nil => rfl
  | cons entry rest ih =>
      obtain ⟨⟨e, he, hsame⟩, hrest⟩ := List.forall_mem_cons.mp h
      rw [definitionsWithin, he, ih hrest, Bool.and_true]
      exact hsame

theorem same_object {ps qs : List (String × Property)} {required : Option (List String)}
    {u v : Annotations} (h : MapsMatch (fun p q => p.same q = true) ps qs)
    (hkeywords : sameAnnotations u v = true) :
    (Node.object ps required u).same (.object qs required v) = true := by
  have hlength : ps.length = qs.length := h.length_eq
  have hwithin : propertiesWithin ps qs = true :=
    propertiesWithin_of_lookup fun entry => h.exists_lookup
  simp [Node.same, hlength, hwithin, hkeywords]

theorem sameDefinitions_some {ds es : List (String × Definition)}
    (h : MapsMatch (fun d e => d.same e = true) ds es) :
    sameDefinitions (some ds) (some es) = true := by
  have hlength : ds.length = es.length := h.length_eq
  have hwithin : definitionsWithin ds es = true :=
    definitionsWithin_of_lookup fun entry => h.exists_lookup
  simp [sameDefinitions, hlength, hwithin]

end Maps

/-! ## Unsupported keywords -/

section Keywords

theorem lookup_filterMap_of_mem (f : Keyword → Option Value) {keys : List Keyword} {k : Keyword}
    (hk : k ∈ keys) :
    (keys.filterMap fun k => (f k).map fun v => (k, v)).lookup k = f k := by
  induction keys with
  | nil => simp at hk
  | cons first rest ih =>
      by_cases heq : k = first
      · subst heq
        cases hf : f k with
        | none =>
            -- a later occurrence would have no value either
            have hnone : ∀ entry ∈ rest.filterMap (fun k => (f k).map fun v => (k, v)),
                k ≠ entry.1 := by
              rintro entry hentry rfl
              obtain ⟨l, -, hl⟩ := List.mem_filterMap.mp hentry
              obtain ⟨v, hv, rfl⟩ := Option.map_eq_some_iff.mp hl
              simp [hf] at hv
            simpa [hf, List.lookup_eq_none_iff] using hnone
        | some v => simp [hf]
      · have hrest : k ∈ rest := (List.mem_cons.mp hk).resolve_left heq
        cases hf : f first with
        | none => simpa [hf] using ih hrest
        | some v => simpa [hf, List.lookup_cons, beq_false_of_ne heq] using ih hrest

theorem lookup_unsupportedOf (k : Keyword) (members : Members) :
    (unsupportedOf members).lookup k = lookup k.text members :=
  lookup_filterMap_of_mem (fun k => lookup k.text members) k.mem_all

theorem length_filterMap_eq {f g : Keyword → Option Value} (keys : List Keyword)
    (h : ∀ k, (f k).isSome = (g k).isSome) :
    (keys.filterMap fun k => (f k).map fun v => (k, v)).length =
      (keys.filterMap fun k => (g k).map fun v => (k, v)).length := by
  induction keys with
  | nil => rfl
  | cons k rest ih =>
      have hk := h k
      cases hf : f k <;> cases hg : g k <;> simp_all

theorem sameAnnotations_unsupportedOf {ms ns : Members}
    (h : ∀ name, Option.Rel (fun v w => v.same w = true) (lookup name ms) (lookup name ns)) :
    sameAnnotations (unsupportedOf ms) (unsupportedOf ns) = true := by
  have hlength : (unsupportedOf ms).length = (unsupportedOf ns).length := by
    apply length_filterMap_eq
    intro k
    have hk := h k.text
    generalize lookup k.text ms = x at hk
    generalize lookup k.text ns = y at hk
    cases hk <;> rfl
  have hall : ∀ entry ∈ unsupportedOf ms,
      ∃ w, (unsupportedOf ns).lookup entry.1 = some w ∧ entry.2.same w = true := by
    intro entry hentry
    obtain ⟨k, -, hk⟩ := List.mem_filterMap.mp hentry
    obtain ⟨v, hv, rfl⟩ := Option.map_eq_some_iff.mp hk
    have hrel := h k.text
    rw [lookup_unsupportedOf]
    rw [hv] at hrel
    generalize lookup k.text ns = y at hrel
    cases hrel with
    | some hsame => exact ⟨_, rfl, hsame⟩
  rw [sameAnnotations, sameMap, hlength, beq_self_eq_true, Bool.true_and, List.all_eq_true]
  intro entry hentry
  obtain ⟨w, hw, hsame⟩ := hall entry hentry
  rw [hw]
  exact hsame

end Keywords

end StructuralSchema
