import StructuralSchema.Json.Printer
import StructuralSchema.Proofs.JsonValue

/-!
# Values with a JSON form

Octets, dates, times and sets cannot be written, and neither can a value that holds itself. All
other values can, in every layout: keys that are no texts are written as texts, and pairs as
arrays.
-/

namespace StructuralSchema

namespace Value

inductive HasJsonForm : Value → Prop
  | scalar {s : Scalar} (hs : s.IsJson) : HasJsonForm (.scalar s)
  | arr {elements : List Value} (each : ∀ v ∈ elements, HasJsonForm v) :
      HasJsonForm (.arr elements)
  | obj {members : List (Scalar × Value)} (keys : ∀ m ∈ members, m.1.IsJson)
      (each : ∀ m ∈ members, HasJsonForm m.2) : HasJsonForm (.obj members)
  | pair {v w : Value} (hv : HasJsonForm v) (hw : HasJsonForm w) : HasJsonForm (.pair v w)

@[simp] theorem hasJsonForm_scalar_iff {s : Scalar} : HasJsonForm (.scalar s) ↔ s.IsJson :=
  ⟨fun | .scalar hs => hs, .scalar⟩

@[simp] theorem hasJsonForm_arr_iff {elements : List Value} :
    HasJsonForm (.arr elements) ↔ ∀ v ∈ elements, v.HasJsonForm :=
  ⟨fun | .arr each => each, .arr⟩

@[simp] theorem hasJsonForm_obj_iff {members : Members} :
    HasJsonForm (.obj members) ↔
      (∀ m ∈ members, m.1.IsJson) ∧ ∀ m ∈ members, m.2.HasJsonForm :=
  ⟨fun | .obj keys each => ⟨keys, each⟩, fun h => .obj h.1 h.2⟩

@[simp] theorem hasJsonForm_pair_iff {v w : Value} :
    HasJsonForm (.pair v w) ↔ v.HasJsonForm ∧ w.HasJsonForm :=
  ⟨fun | .pair hv hw => ⟨hv, hw⟩, fun h => .pair h.1 h.2⟩

theorem IsJson.hasJsonForm {v : Value} (hv : v.IsJson) : v.HasJsonForm := by
  induction hv with
  | scalar hs => exact .scalar hs
  | arr _ ih => exact .arr ih
  | obj keys _ ih =>
      refine .obj (fun m hm => ?_) ih
      obtain ⟨name, hname⟩ := keys.text m hm
      rw [hname]
      trivial

end Value

namespace Json

theorem exists_scalarText?_iff {s : Scalar} : (∃ text, scalarText? s = some text) ↔ s.IsJson := by
  cases s <;> simp [scalarText?, wordText?, Scalar.IsJson]

theorem exists_keyText?_iff {s : Scalar} : (∃ text, keyText? s = some text) ↔ s.IsJson := by
  cases s <;> simp [keyText?, wordText?, Scalar.IsJson]

/-- The value can be written at every depth, if it has a JSON form, and at none otherwise. -/
def PrintsIfForm (indent : Option Int) (v : Value) : Prop :=
  ∀ depth, (∃ text, print? indent depth v = some text) ↔ v.HasJsonForm

variable {indent : Option Int}

theorem exists_printElements?_iff {elements : List Value}
    (ih : ∀ v ∈ elements, PrintsIfForm indent v) (depth : ℕ) :
    (∃ texts, printElements? indent depth elements = some texts) ↔
      ∀ v ∈ elements, v.HasJsonForm := by
  induction elements with
  | nil => simp [printElements?]
  | cons v rest ihrest =>
      obtain ⟨hv, hrest⟩ := List.forall_mem_cons.mp ih
      rw [List.forall_mem_cons, ← hv depth, ← ihrest hrest, printElements?]
      cases print? indent depth v <;> cases printElements? indent depth rest <;> simp

theorem exists_printMembers?_iff {members : Members}
    (ih : ∀ m ∈ members, PrintsIfForm indent m.2) (depth : ℕ) :
    (∃ texts, printMembers? indent depth members = some texts) ↔
      (∀ m ∈ members, m.1.IsJson) ∧ ∀ m ∈ members, m.2.HasJsonForm := by
  induction members with
  | nil => simp [printMembers?]
  | cons m rest ihrest =>
      obtain ⟨key, v⟩ := m
      obtain ⟨hv, hrest⟩ := List.forall_mem_cons.mp ih
      have hboth : (∀ m ∈ (key, v) :: rest, m.1.IsJson) ∧
            (∀ m ∈ (key, v) :: rest, m.2.HasJsonForm) ↔
          key.IsJson ∧ v.HasJsonForm ∧
            ((∀ m ∈ rest, m.1.IsJson) ∧ ∀ m ∈ rest, m.2.HasJsonForm) := by
        rw [List.forall_mem_cons, List.forall_mem_cons]
        tauto
      rw [hboth, ← exists_keyText?_iff, ← hv depth, ← ihrest hrest, printMembers?]
      cases keyText? key <;> cases print? indent depth v <;>
        cases printMembers? indent depth rest <;> simp

theorem printsIfForm (indent : Option Int) (v : Value) : PrintsIfForm indent v := by
  induction v using Value.partsInduction with
  | scalar s =>
      intro depth
      rw [print?, exists_scalarText?_iff, Value.hasJsonForm_scalar_iff]
  | arr elements ih =>
      intro depth
      rw [Value.hasJsonForm_arr_iff, ← exists_printElements?_iff ih (depth + 1), print?]
      cases printElements? indent (depth + 1) elements <;> simp
  | obj members ih =>
      intro depth
      rw [Value.hasJsonForm_obj_iff, ← exists_printMembers?_iff ih (depth + 1), print?]
      cases printMembers? indent (depth + 1) members <;> simp
  | pair v w ihv ihw =>
      intro depth
      rw [Value.hasJsonForm_pair_iff, ← ihv (depth + 1), ← ihw (depth + 1), print?]
      cases print? indent (depth + 1) v <;> cases print? indent (depth + 1) w <;> simp
  | set elements =>
      intro depth
      have hform : ¬ (Value.set elements).HasJsonForm := by rintro ⟨⟩
      simp [print?, hform]
  | loop number v ih =>
      intro depth
      have hform : ¬ (Value.loop number v).HasJsonForm := by rintro ⟨⟩
      simp [print?, hform]
  | endless =>
      intro depth
      have hform : ¬ Value.endless.HasJsonForm := by rintro ⟨⟩
      simp [print?, hform]

/-- A value has no text exactly if it has no JSON form. -/
theorem render?_eq_none_iff {v : Value} : render? indent v = none ↔ ¬ v.HasJsonForm := by
  rw [← printsIfForm indent v 0, render?, Option.map_eq_none_iff,
    Option.eq_none_iff_forall_ne_some, not_exists]

end Json

end StructuralSchema
