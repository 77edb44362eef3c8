import Mathlib.Data.List.Nodup
import StructuralSchema.Value.Basic

/-!
# JSON values

The values of JSON documents are those without octets, dates, sets and pairs. The
members of their objects have texts as keys, no two of them the same, so a name leads
to at most one value.
-/

namespace StructuralSchema

structure HasTextKeys (members : Members) : Prop where
  text : ∀ m ∈ members, ∃ name, m.1 = .str name
  nodup : (members.map Prod.fst).Nodup

def HasKey (name : String) (members : Members) : Prop :=
  ∃ v, (Scalar.str name, v) ∈ members

@[simp] theorem hasTextKeys_nil : HasTextKeys [] := ⟨by simp, by simp⟩

@[simp] theorem hasTextKeys_cons_iff {m : Scalar × Value} {members : Members} :
    HasTextKeys (m :: members) ↔
      (∃ name, m.1 = .str name) ∧ m.1 ∉ members.map Prod.fst ∧ HasTextKeys members := by
  constructor
  · rintro ⟨htext, hnodup⟩
    obtain ⟨hnew, hrest⟩ := List.nodup_cons.mp hnodup
    exact ⟨htext m List.mem_cons_self, hnew,
      fun n hn => htext n (List.mem_cons_of_mem m hn), hrest⟩
  · rintro ⟨hname, hnew, htext, hnodup⟩
    exact ⟨List.forall_mem_cons.mpr ⟨hname, htext⟩, List.nodup_cons.mpr ⟨hnew, hnodup⟩⟩

theorem mem_of_lookup {name : String} {members : Members} {v : Value}
    (h : lookup name members = some v) : (Scalar.str name, v) ∈ members := by
  induction members with
  | nil => simp [lookup] at h
  | cons m rest ih =>
      by_cases hm : m.1 = .str name
      · have hv : m.2 = v := by simpa [lookup, hm] using h
        exact List.mem_cons.mpr (.inl (Prod.ext hm.symm hv.symm))
      · exact List.mem_cons_of_mem m (ih (by simpa [lookup, hm] using h))

theorem lookup_eq_none_iff {name : String} {members : Members} :
    lookup name members = none ↔ ¬ HasKey name members := by
  induction members with
  | nil => simp [lookup, HasKey]
  | cons m rest ih =>
      by_cases hm : m.1 = .str name
      · have hkey : HasKey name (m :: rest) := ⟨m.2, by simp [← hm]⟩
        simp [lookup, hm, hkey]
      · have hkey : HasKey name (m :: rest) ↔ HasKey name rest := by
          simp [HasKey, Prod.ext_iff, Ne.symm hm]
        rw [hkey, ← ih]
        simp [lookup, hm]

theorem hasMember_iff {name : String} {members : Members} :
    hasMember name members = true ↔ HasKey name members := by
  rw [hasMember, Option.isSome_iff_ne_none, ne_eq, lookup_eq_none_iff, not_not]

theorem lookup_eq_some_iff {name : String} {members : Members} {v : Value}
    (h : HasTextKeys members) :
    lookup name members = some v ↔ (Scalar.str name, v) ∈ members := by
  refine ⟨mem_of_lookup, ?_⟩
  intro hmem
  induction members with
  | nil => simp at hmem
  | cons m rest ih =>
      obtain ⟨-, hnew, hrest⟩ := hasTextKeys_cons_iff.mp h
      rcases List.mem_cons.mp hmem with rfl | hmem
      · simp [lookup]
      · have hm : m.1 ≠ .str name := fun heq => hnew (heq ▸ List.mem_map_of_mem hmem)
        simpa [lookup, hm] using ih hrest hmem

theorem HasTextKeys.eq_of_mem {name : String} {members : Members} {v w : Value}
    (keys : HasTextKeys members) (hv : (Scalar.str name, v) ∈ members)
    (hw : (Scalar.str name, w) ∈ members) : v = w := by
  have hlookup := (lookup_eq_some_iff keys).mpr hv
  rw [(lookup_eq_some_iff keys).mpr hw] at hlookup
  exact (Option.some_inj.mp hlookup).symm

/-- Induction on the parts of a value. -/
@[elab_as_elim]
theorem Value.partsInduction {P : Value → Prop} (scalar : ∀ s, P (.scalar s))
    (arr : ∀ elements : List Value, (∀ v ∈ elements, P v) → P (.arr elements))
    (obj : ∀ members : Members, (∀ m ∈ members, P m.2) → P (.obj members))
    (pair : ∀ v w, P v → P w → P (.pair v w)) (set : ∀ elements, P (.set elements))
    (loop : ∀ number v, P v → P (.loop number v)) (endless : P .endless) (v : Value) : P v :=
  @Value.rec P (fun elements => ∀ v ∈ elements, P v) (fun members => ∀ m ∈ members, P m.2)
    (fun m => P m.2) scalar arr obj pair set loop endless (by simp)
    (fun _ _ hv hrest => List.forall_mem_cons.mpr ⟨hv, hrest⟩) (by simp)
    (fun _ _ hm hrest => List.forall_mem_cons.mpr ⟨hm, hrest⟩) (fun _ _ hv => hv) v

def Scalar.IsJson : Scalar → Prop
  | .null | .bool _ | .int _ | .float _ | .str _ => True
  | .bytes _ | .date _ | .time _ => False

namespace Value

/-- What a JSON document can hold. -/
inductive IsJson : Value → Prop
  | scalar {s : Scalar} (hs : s.IsJson) : IsJson (.scalar s)
  | arr {elements : List Value} (each : ∀ v ∈ elements, IsJson v) : IsJson (.arr elements)
  | obj {members : List (Scalar × Value)} (keys : HasTextKeys members)
      (each : ∀ m ∈ members, IsJson m.2) : IsJson (.obj members)

@[simp] theorem isJson_scalar_iff {s : Scalar} : IsJson (.scalar s) ↔ s.IsJson := by
  refine ⟨?_, .scalar⟩
  intro h
  cases h with
  | scalar hs => exact hs

@[simp] theorem isJson_arr_iff {elements : List Value} :
    IsJson (.arr elements) ↔ ∀ v ∈ elements, v.IsJson := by
  refine ⟨?_, .arr⟩
  intro h
  cases h with
  | arr each => exact each

@[simp] theorem isJson_obj_iff {members : Members} :
    IsJson (.obj members) ↔ HasTextKeys members ∧ ∀ m ∈ members, m.2.IsJson := by
  refine ⟨?_, fun h => .obj h.1 h.2⟩
  intro h
  cases h with
  | obj keys each => exact ⟨keys, each⟩

inductive IsPartOf (w : Value) : Value → Prop
  | element {elements : List Value} (h : w ∈ elements) : IsPartOf w (.arr elements)
  | member {members : List (Scalar × Value)} {key : Scalar} (h : (key, w) ∈ members) :
      IsPartOf w (.obj members)

theorem anyEndless_eq_false_iff {elements : List Value} :
    anyEndless elements = false ↔ ∀ v ∈ elements, v.isEndless = false := by
  induction elements with
  | nil => simp [anyEndless]
  | cons v rest ih => simp [anyEndless, ih]

theorem anyMemberEndless_eq_false_iff {members : Members} :
    anyMemberEndless members = false ↔ ∀ m ∈ members, m.2.isEndless = false := by
  induction members with
  | nil => simp [anyMemberEndless]
  | cons m rest ih => simp [anyMemberEndless, ih]

theorem IsJson.isEndless_eq_false {v : Value} (h : v.IsJson) : v.isEndless = false := by
  induction h with
  | scalar _ => rfl
  | arr _ ih => exact anyEndless_eq_false_iff.mpr ih
  | obj _ _ ih => exact anyMemberEndless_eq_false_iff.mpr ih

end Value

end StructuralSchema
