import StructuralSchema.Json.Reader
import StructuralSchema.Proofs.JsonValue

/-!
# Reading JSON

Whatever the reader makes a value of, the value is JSON: it joins the members of an object as
it has read them, so that no key comes twice. Joining leaves alone what has no key twice.
-/

namespace StructuralSchema

/-! ## Members with text keys -/

theorem Scalar.same_str_iff {name other : String} :
    (Scalar.str name).same (.str other) = true ↔ name = other := by
  simp [Scalar.same, Scalar.asInt?]

section Joining

variable {members : Members}

theorem mem_keys_of_mem_putMember {name : String} {v : Value} (keys : HasTextKeys members)
    {key : Scalar} (h : key ∈ (putMember (.str name) v members).map Prod.fst) :
    key = .str name ∨ key ∈ members.map Prod.fst := by
  induction members with
  | nil => exact .inl (List.mem_singleton.mp h)
  | cons m rest ih =>
      obtain ⟨-, -, hrest⟩ := hasTextKeys_cons_iff.mp keys
      unfold putMember at h
      split_ifs at h
      · exact .inr h
      · rcases List.mem_cons.mp h with rfl | h
        · exact .inr List.mem_cons_self
        · rcases ih hrest h with rfl | h
          · exact .inl rfl
          · exact .inr (List.mem_cons_of_mem _ h)

theorem hasTextKeys_putMember (name : String) (v : Value) (keys : HasTextKeys members) :
    HasTextKeys (putMember (.str name) v members) := by
  induction members with
  | nil => simp [putMember]
  | cons m rest ih =>
      obtain ⟨⟨other, hother⟩, hnew, hrest⟩ := hasTextKeys_cons_iff.mp keys
      obtain ⟨key, w⟩ := m
      obtain rfl : key = .str other := hother
      unfold putMember
      split_ifs with hsame
      · exact hasTextKeys_cons_iff.mpr ⟨⟨other, rfl⟩, hnew, hrest⟩
      · refine hasTextKeys_cons_iff.mpr ⟨⟨other, rfl⟩, ?_, ih hrest⟩
        intro hmem
        rcases mem_keys_of_mem_putMember hrest hmem with heq | hmem
        · exact hsame (Scalar.same_str_iff.mpr (Scalar.str.inj heq))
        · exact hnew hmem

theorem mem_putMember {key : Scalar} {v : Value} {m : Scalar × Value}
    (h : m ∈ putMember key v members) : m.2 = v ∨ m ∈ members := by
  induction members with
  | nil => exact .inl (by rw [List.mem_singleton.mp h])
  | cons n rest ih =>
      unfold putMember at h
      split_ifs at h
      · rcases List.mem_cons.mp h with rfl | h
        · exact .inl rfl
        · exact .inr (List.mem_cons_of_mem _ h)
      · rcases List.mem_cons.mp h with rfl | h
        · exact .inr List.mem_cons_self
        · exact (ih h).imp id (List.mem_cons_of_mem _)

theorem putMember_of_notMem {name : String} {v : Value} (keys : HasTextKeys members)
    (h : Scalar.str name ∉ members.map Prod.fst) :
    putMember (.str name) v members = members ++ [(.str name, v)] := by
  induction members with
  | nil => rfl
  | cons m rest ih =>
      obtain ⟨⟨other, hother⟩, -, hrest⟩ := hasTextKeys_cons_iff.mp keys
      obtain ⟨key, w⟩ := m
      obtain rfl : key = .str other := hother
      obtain ⟨hfirst, hnotMem⟩ := List.ne_and_not_mem_of_not_mem_cons h
      have hsame : ¬ (Scalar.str other).same (.str name) = true := by
        rw [Scalar.same_str_iff]
        rintro rfl
        exact hfirst rfl
      rw [putMember, if_neg hsame, ih hrest hnotMem, List.cons_append]

/-- Where all keys are texts, what is joined has each of them once. -/
theorem isJson_joinMembers {joined : Members}
    (each : ∀ m ∈ members, (∃ name, m.1 = .str name) ∧ m.2.IsJson)
    (hjoined : (Value.obj joined).IsJson) :
    (Value.obj (members.foldl (fun joined m => putMember m.1 m.2 joined) joined)).IsJson := by
  induction members generalizing joined with
  | nil => exact hjoined
  | cons m rest ih =>
      obtain ⟨hm, hrest⟩ := List.forall_mem_cons.mp each
      obtain ⟨key, v⟩ := m
      obtain ⟨⟨name, rfl⟩, hjson⟩ := hm
      obtain ⟨keys, json⟩ := Value.isJson_obj_iff.mp hjoined
      refine ih hrest (.obj (hasTextKeys_putMember name v keys) ?_)
      intro n hn
      rcases mem_putMember hn with heq | hn
      · rwa [heq]
      · exact json n hn

/-- Joining changes nothing where no key comes twice. -/
theorem foldl_putMember_eq_append (joined : Members) (keys : HasTextKeys (joined ++ members)) :
    members.foldl (fun joined m => putMember m.1 m.2 joined) joined = joined ++ members := by
  induction members generalizing joined with
  | nil => simp
  | cons m rest ih =>
      obtain ⟨key, v⟩ := m
      obtain ⟨name, rfl⟩ : ∃ name, key = .str name :=
        keys.text (key, v) (List.mem_append_right _ List.mem_cons_self)
      have hnodup := keys.nodup
      rw [List.map_append, List.map_cons, List.nodup_append] at hnodup
      obtain ⟨hjoined, -, hapart⟩ := hnodup
      have hkeys : HasTextKeys joined :=
        ⟨fun m hm => keys.text m (List.mem_append_left _ hm), hjoined⟩
      have hnew : Scalar.str name ∉ joined.map Prod.fst := fun hmem =>
        hapart _ hmem _ List.mem_cons_self rfl
      rw [List.foldl_cons, putMember_of_notMem hkeys hnew, ih, List.append_assoc,
        List.singleton_append]
      rwa [List.append_assoc, List.singleton_append]

end Joining

namespace Json

/-! ## What is read is JSON -/

theorem isJson_of_readNumber? {text rest : List Char} {s : Scalar}
    (h : readNumber? text = some (s, rest)) : s.IsJson := by
  unfold readNumber? at h
  dsimp only at h
  split at h
  · cases h
  · split at h
    · split_ifs at h
      · cases h
        trivial
      · cases h
        trivial
    · cases h
      trivial

theorem isJson_of_readScalar? {text rest : List Char} {s : Scalar}
    (h : readScalar? text = some (s, rest)) : s.IsJson := by
  unfold readScalar? at h
  split at h
  · rename_i reading hword
    obtain rfl := Option.some_inj.mp h
    obtain ⟨w, hw, hafter⟩ := List.exists_of_findSome?_eq_some hword
    obtain ⟨after, -, heq⟩ := Option.map_eq_some_iff.mp hafter
    obtain ⟨rfl, rfl⟩ := Prod.mk.inj heq
    have hwords : ∀ w ∈ words, w.2.IsJson := by simp [words, Scalar.IsJson]
    exact hwords w hw
  · exact isJson_of_readNumber? h

section Reading

variable {steps : ℕ} {text rest : List Char}

theorem isJson_of_readValue_succ
    (helements : ∀ text elements rest, readElements steps text = .ok (elements, rest) →
      ∀ v ∈ elements, v.IsJson)
    (hmembers : ∀ text members rest, readMembers steps text = .ok (members, rest) →
      ∀ m ∈ members, (∃ name, m.1 = .str name) ∧ m.2.IsJson)
    {v : Value} (h : readValue (steps + 1) text = .ok (v, rest)) : v.IsJson := by
  unfold readValue at h
  split at h
  · cases h
  · cases h
  · split at h
    · cases h
      simp [Scalar.IsJson]
    · cases h
  · rename_i hsteps
    cases hsteps
    split at h
    · cases h
      simp
    · split at h
      · rename_i hread
        cases h
        exact .arr (helements _ _ _ hread)
      · cases h
  · rename_i hsteps
    cases hsteps
    split at h
    · cases h
      simp
    · split at h
      · rename_i hread
        cases h
        exact isJson_joinMembers (hmembers _ _ _ hread) (by simp)
      · cases h
  · split at h
    · rename_i hread
      cases h
      exact .scalar (isJson_of_readScalar? hread)
    · cases h

theorem isJson_of_readElements_succ
    (hvalue : ∀ text v rest, readValue steps text = .ok (v, rest) → v.IsJson)
    (helements : ∀ text elements rest, readElements steps text = .ok (elements, rest) →
      ∀ v ∈ elements, v.IsJson)
    {elements : List Value} (h : readElements (steps + 1) text = .ok (elements, rest)) :
    ∀ v ∈ elements, v.IsJson := by
  unfold readElements at h
  split at h
  · cases h
  · rename_i hfirst
    split at h
    · cases h
      exact List.forall_mem_singleton.mpr (hvalue _ _ _ hfirst)
    · split at h
      · rename_i hothers
        cases h
        exact List.forall_mem_cons.mpr ⟨hvalue _ _ _ hfirst, helements _ _ _ hothers⟩
      · cases h
    · cases h

theorem isJson_of_readMembers_succ
    (hvalue : ∀ text v rest, readValue steps text = .ok (v, rest) → v.IsJson)
    (hmembers : ∀ text members rest, readMembers steps text = .ok (members, rest) →
      ∀ m ∈ members, (∃ name, m.1 = .str name) ∧ m.2.IsJson)
    {members : Members} (h : readMembers (steps + 1) text = .ok (members, rest)) :
    ∀ m ∈ members, (∃ name, m.1 = .str name) ∧ m.2.IsJson := by
  unfold readMembers at h
  split at h
  · cases h
  · rename_i hsteps
    cases hsteps
    split at h
    · cases h
    · split at h
      · split at h
        · cases h
        · rename_i hfirst
          split at h
          · cases h
            exact List.forall_mem_singleton.mpr ⟨⟨_, rfl⟩, hvalue _ _ _ hfirst⟩
          · split at h
            · rename_i hothers
              cases h
              exact List.forall_mem_cons.mpr
                ⟨⟨⟨_, rfl⟩, hvalue _ _ _ hfirst⟩, hmembers _ _ _ hothers⟩
            · cases h
          · cases h
      · cases h
  · cases h

end Reading

/-- Whatever the steps left, a value that is read is JSON, and so are its parts. -/
theorem isJson_of_read (steps : ℕ) :
    (∀ text v rest, readValue steps text = .ok (v, rest) → v.IsJson) ∧
      (∀ text elements rest, readElements steps text = .ok (elements, rest) →
        ∀ v ∈ elements, v.IsJson) ∧
      ∀ text members rest, readMembers steps text = .ok (members, rest) →
        ∀ m ∈ members, (∃ name, m.1 = .str name) ∧ m.2.IsJson := by
  -- The three readers call each other, each time with one step less.
  induction steps with
  | zero =>
      refine ⟨?_, ?_, ?_⟩
      · intro text v rest h
        cases text <;> cases h
      · intro text elements rest h
        cases h
      · intro text members rest h
        cases h
  | succ steps ih =>
      obtain ⟨hvalue, helements, hmembers⟩ := ih
      exact ⟨fun _ _ _ h => isJson_of_readValue_succ helements hmembers h,
        fun _ _ _ h => isJson_of_readElements_succ hvalue helements h,
        fun _ _ _ h => isJson_of_readMembers_succ hvalue hmembers h⟩

theorem isJson_of_parseChars {text : List Char} {v : Value} (h : parseChars text = .ok v) :
    v.IsJson := by
  unfold parseChars readWholeText at h
  split at h
  · rename_i hread
    split at hread
    · cases hread
    · rename_i hvalue
      split at hread
      · cases hread
        cases h
        exact (isJson_of_read _).1 _ _ _ hvalue
      · cases hread
  · cases h

theorem isJson_of_parse {text : String} {v : Value} (h : parse text = .ok v) : v.IsJson := by
  unfold parse at h
  split at h
  · cases h
  · exact isJson_of_parseChars h

end Json

end StructuralSchema
