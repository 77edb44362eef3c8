import Mathlib.Data.List.Forall2
import StructuralSchema.Proofs.JsonValue

/-!
# Rearranged values

Two values that differ in nothing but the order in which the members of their objects stand, at
whatever depth. The elements of arrays keep their places.
-/

namespace StructuralSchema

/-- The values differ at most in the order of the members of objects. -/
inductive Value.Rearranged : Value → Value → Prop
  | scalar (s : Scalar) : Rearranged (.scalar s) (.scalar s)
  | arr {elements others : List Value} (hlength : elements.length = others.length)
      (each : ∀ (i : ℕ) v w, elements[i]? = some v → others[i]? = some w → Rearranged v w) :
      Rearranged (.arr elements) (.arr others)
  | obj {members others : List (Scalar × Value)}
      (hkeys : (members.map Prod.fst).Perm (others.map Prod.fst))
      (each : ∀ key v w, (key, v) ∈ members → (key, w) ∈ others → Rearranged v w) :
      Rearranged (.obj members) (.obj others)

namespace Value.Rearranged

theorem forall₂ {elements others : List Value} (h : (Value.arr elements).Rearranged (.arr others)) :
    List.Forall₂ Rearranged elements others := by
  cases h with
  | arr hlength each =>
      refine List.forall₂_iff_get.mpr ⟨hlength, fun i hi hi' => ?_⟩
      exact each i _ _ (List.getElem?_eq_getElem hi) (List.getElem?_eq_getElem hi')

theorem refl {v : Value} (hv : v.IsJson) : v.Rearranged v := by
  induction hv with
  | @scalar s _ => exact .scalar s
  | @arr elements _ ih =>
      refine .arr rfl fun i v w hv hw => ?_
      obtain rfl : v = w := Option.some_inj.mp (hv.symm.trans hw)
      exact ih v (List.mem_of_getElem? hv)
  | @obj members keys _ ih =>
      refine .obj (.refl _) fun key v w hv hw => ?_
      obtain ⟨name, rfl⟩ := keys.text _ hv
      obtain rfl := keys.eq_of_mem hv hw
      exact ih _ hv

theorem of_perm {members others : Members} (hmembers : (Value.obj members).IsJson)
    (h : members.Perm others) : (Value.obj members).Rearranged (.obj others) := by
  have hself : (Value.obj members).Rearranged (.obj members) := refl hmembers
  cases hself with
  | obj _ each => exact .obj (h.map _) fun key v w hv hw => each key v w hv (h.mem_iff.mpr hw)

theorem isJson {v w : Value} (h : v.Rearranged w) (hv : v.IsJson) : w.IsJson := by
  induction h with
  | scalar _ => exact hv
  | @arr elements others hlength _ ih =>
      refine .arr fun w hw => ?_
      obtain ⟨i, hi, rfl⟩ := List.mem_iff_getElem.mp hw
      have hi' : i < elements.length := hlength ▸ hi
      have hold : elements[i].IsJson := Value.isJson_arr_iff.mp hv _ (List.getElem_mem hi')
      exact ih i _ _ (List.getElem?_eq_getElem hi') (List.getElem?_eq_getElem hi) hold
  | @obj members others hkeys _ ih =>
      obtain ⟨keys, json⟩ := Value.isJson_obj_iff.mp hv
      have hold : ∀ m ∈ others, ∃ v, (m.1, v) ∈ members := by
        intro m hm
        have hkey : m.1 ∈ members.map Prod.fst := hkeys.mem_iff.mpr (List.mem_map_of_mem hm)
        obtain ⟨n, hn, heq⟩ := List.mem_map.mp hkey
        exact ⟨n.2, heq ▸ hn⟩
      refine .obj ⟨?_, hkeys.nodup_iff.mp keys.nodup⟩ ?_
      · intro m hm
        obtain ⟨v, hmem⟩ := hold m hm
        exact keys.text (m.1, v) hmem
      · intro m hm
        obtain ⟨v, hmem⟩ := hold m hm
        exact ih m.1 v m.2 hmem hm (json _ hmem)

theorem trans {u v w : Value} (huv : u.Rearranged v) (hvw : v.Rearranged w) :
    u.Rearranged w := by
  induction huv generalizing w with
  | scalar s => exact hvw
  | arr hlength _ ih =>
      cases hvw with
      | arr hlength' each' =>
          refine .arr (hlength.trans hlength') fun i a c ha hc => ?_
          obtain ⟨hi, -⟩ := List.getElem?_eq_some_iff.mp ha
          have hb := List.getElem?_eq_getElem (hlength ▸ hi)
          exact ih i a _ ha hb (each' i _ c hb hc)
  | @obj members others hkeys _ ih =>
      cases hvw with
      | obj hkeys' each' =>
          refine .obj (hkeys.trans hkeys') fun key a c ha hc => ?_
          obtain ⟨m, hm, rfl⟩ : ∃ m ∈ others, m.1 = key :=
            List.mem_map.mp (hkeys.mem_iff.mp (List.mem_map_of_mem ha))
          exact ih m.1 a m.2 ha hm (each' m.1 m.2 c hm hc)

theorem member (before after : Members) {key : Scalar} {v w : Value}
    (hmembers : (Value.obj (before ++ (key, v) :: after)).IsJson) (h : v.Rearranged w) :
    (Value.obj (before ++ (key, v) :: after)).Rearranged
      (.obj (before ++ (key, w) :: after)) := by
  obtain ⟨keys, json⟩ := Value.isJson_obj_iff.mp hmembers
  refine .obj (by simp) fun other a b ha hb => ?_
  obtain ⟨name, rfl⟩ : ∃ name, other = .str name := keys.text _ ha
  rcases List.mem_append.mp hb with hbefore | hb
  · obtain rfl : a = b := keys.eq_of_mem ha (List.mem_append_left _ hbefore)
    exact .refl (json _ ha)
  · rcases List.mem_cons.mp hb with heq | hafter
    · obtain ⟨rfl, rfl⟩ := Prod.mk.inj heq
      obtain rfl : a = v := keys.eq_of_mem ha (List.mem_append_right _ List.mem_cons_self)
      exact h
    · obtain rfl : a = b := by
        apply keys.eq_of_mem ha
        exact List.mem_append_right _ (List.mem_cons_of_mem _ hafter)
      exact .refl (json _ ha)

end Value.Rearranged

section Lookup

variable {members others : Members}

/-- What stands under a name in two objects with the same keys is related if all their members
are. -/
theorem rel_lookup {r : Value → Value → Prop}
    (hkeys : (members.map Prod.fst).Perm (others.map Prod.fst))
    (each : ∀ key v w, (key, v) ∈ members → (key, w) ∈ others → r v w) (name : String) :
    Option.Rel r (lookup name members) (lookup name others) := by
  have hkey : HasKey name members ↔ HasKey name others := by
    have hmem : Scalar.str name ∈ members.map Prod.fst ↔ Scalar.str name ∈ others.map Prod.fst :=
      hkeys.mem_iff
    simpa [HasKey] using hmem
  cases hv : lookup name members with
  | none =>
      have hnone : lookup name others = none := by
        rw [lookup_eq_none_iff, ← hkey]
        exact lookup_eq_none_iff.mp hv
      rw [hnone]
      exact .none
  | some v =>
      have hheld : HasKey name others := hkey.mp ⟨v, mem_of_lookup hv⟩
      cases hw : lookup name others with
      | none => exact absurd hheld (lookup_eq_none_iff.mp hw)
      | some w => exact .some (each _ v w (mem_of_lookup hv) (mem_of_lookup hw))

theorem Value.Rearranged.lookup (h : (Value.obj members).Rearranged (.obj others))
    (name : String) :
    Option.Rel Rearranged (StructuralSchema.lookup name members)
      (StructuralSchema.lookup name others) := by
  cases h with
  | obj hkeys each => exact rel_lookup hkeys each name

end Lookup

end StructuralSchema
