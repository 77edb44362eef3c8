import StructuralSchema.Proofs.JsonText
import StructuralSchema.Proofs.NumberText

/-!
# Reading descriptions back

The description of a JSON value says which value it describes, and where it ends whatever stands
behind it. Its opening gives the kind of the value away, numbers end at their parenthesis, texts at
their closing quote, and arrays and objects at the bracket that stands where a comma would.
-/

namespace StructuralSchema

/-- Among the things that count, the text of this one shows what it is the text of and where it
ends. -/
def Legible {α : Type} (counts : α → Prop) (text : α → List Char) (a : α) : Prop :=
  ∀ b s t, counts b → text a ++ s = text b ++ t → a = b ∧ s = t

section Lists

variable {α : Type} {counts : α → Prop} {text : α → List Char} {close : Char} {as bs : List α}
  {s t : List Char}

/-- Parts behind commas are told from each other and from what closes them. -/
theorem eq_of_followers (hclose : close ≠ ',') (has : ∀ a ∈ as, Legible counts text a) :
    ∀ bs, (∀ b ∈ bs, counts b) →
      as.flatMap (fun a => ',' :: ' ' :: text a) ++ close :: s =
        bs.flatMap (fun b => ',' :: ' ' :: text b) ++ close :: t → as = bs ∧ s = t := by
  induction as with
  | nil =>
      intro bs hbs heq
      cases bs with
      | nil => exact ⟨rfl, (List.cons.inj heq).2⟩
      | cons b bs => exact absurd (List.cons.inj heq).1 hclose
  | cons a as ih =>
      intro bs hbs heq
      cases bs with
      | nil => exact absurd (List.cons.inj heq).1.symm hclose
      | cons b bs =>
          simp only [List.flatMap_cons, List.cons_append, List.append_assoc] at heq
          obtain ⟨rfl, hrest⟩ := has a List.mem_cons_self _ _ _ (hbs b List.mem_cons_self)
            (List.cons.inj (List.cons.inj heq).2).2
          obtain ⟨rfl, rfl⟩ := ih (fun c hc => has c (List.mem_cons_of_mem a hc)) bs
            (fun c hc => hbs c (List.mem_cons_of_mem a hc)) hrest
          exact ⟨rfl, rfl⟩

def joined (text : α → List Char) (as : List α) : List Char :=
  [',', ' '].intercalate (as.map text)

theorem joined_cons (text : α → List Char) (a : α) (as : List α) :
    joined text (a :: as) = text a ++ as.flatMap fun b => ',' :: ' ' :: text b := by
  induction as generalizing a with
  | nil => simp [joined, List.intercalate]
  | cons b as ih =>
      have hnext := ih b
      unfold joined at hnext ⊢
      rw [List.map_cons, List.map_cons, Json.intercalate_cons_cons, ← List.map_cons, hnext]
      rfl

theorem eq_of_joined (hclose : close ≠ ',')
    (hfirst : ∀ b, counts b → ∃ c rest, text b = c :: rest ∧ c ≠ close)
    (has : ∀ a ∈ as, counts a ∧ Legible counts text a) (hbs : ∀ b ∈ bs, counts b)
    (heq : joined text as ++ close :: s = joined text bs ++ close :: t) : as = bs ∧ s = t := by
  -- A part cannot be mistaken for the end of an empty list.
  have hne : ∀ b u v, counts b → text b ++ u ≠ close :: v := by
    intro b u v hb heq
    obtain ⟨c, rest, htext, hc⟩ := hfirst b hb
    rw [htext] at heq
    exact hc (List.cons.inj heq).1
  match as, bs with
  | [], [] => exact ⟨rfl, (List.cons.inj heq).2⟩
  | [], b :: bs =>
      rw [joined_cons, List.append_assoc] at heq
      exact absurd heq.symm (hne b _ _ (hbs b List.mem_cons_self))
  | a :: as, [] =>
      rw [joined_cons, List.append_assoc] at heq
      exact absurd heq (hne a _ _ (has a List.mem_cons_self).1)
  | a :: as, b :: bs =>
      rw [joined_cons, joined_cons, List.append_assoc, List.append_assoc] at heq
      obtain ⟨rfl, hrest⟩ := (has a List.mem_cons_self).2 _ _ _ (hbs b List.mem_cons_self) heq
      obtain ⟨rfl, rfl⟩ := eq_of_followers hclose
        (fun c hc => (has c (List.mem_cons_of_mem a hc)).2) bs
        (fun c hc => hbs c (List.mem_cons_of_mem a hc)) hrest
      exact ⟨rfl, rfl⟩

end Lists

theorem legible_quoted (text : String) :
    Legible (fun _ => True) (fun other => (Text.quoted other).toList) text := by
  intro other s t _ heq
  dsimp only at heq
  rw [Json.toList_quoted, Json.toList_quoted, List.cons_append, List.cons_append,
    List.append_assoc, List.append_assoc] at heq
  have hread := Json.readText_quoted text s
  rw [← List.singleton_append, (List.cons.inj heq).2, List.singleton_append,
    Json.readText_quoted] at hread
  obtain ⟨rfl, rfl⟩ := Prod.mk.inj (Except.ok.inj hread)
  exact ⟨rfl, rfl⟩

/-! ## Numbers -/

def numberText : Scalar → List Char
  | .int i => (toString i).toList
  | .float x => (x.lay describedLayout).toList
  | _ => []

def Scalar.IsNumber (s : Scalar) : Prop :=
  (∃ i, s = .int i) ∨ ∃ x, s = .float x

theorem isDigit_or_eq_of_mem_toString {i : ℤ} {c : Char} (hc : c ∈ (toString i).toList) :
    c.isDigit = true ∨ c = '-' := by
  rw [Int.toString_eq_repr] at hc
  cases i with
  | ofNat n =>
      rw [Int.repr, Nat.toList_repr] at hc
      exact .inl (Json.isDigit_of_mem_toDigits hc)
  | negSucc n =>
      rw [Int.repr, String.toList_append, Nat.toList_repr] at hc
      rcases List.mem_append.mp hc with hc | hc
      · exact .inr (by simpa using hc)
      · exact .inl (Json.isDigit_of_mem_toDigits hc)

theorem toString_ne_lay (i : ℤ) (x : Binary64) :
    (toString i).toList ≠ (x.lay describedLayout).toList := by
  intro heq
  obtain ⟨c, hc, hmem⟩ := x.exists_mem_lay
  rw [← heq] at hmem
  have hchar := isDigit_or_eq_of_mem_toString hmem
  simp only [List.mem_cons, List.not_mem_nil, or_false] at hc
  rcases hc with rfl | rfl | rfl <;> revert hchar <;> decide

theorem numberText_injOn {n m : Scalar} (hn : n.IsNumber) (hm : m.IsNumber)
    (heq : numberText n = numberText m) : n = m := by
  rcases hn with ⟨i, rfl⟩ | ⟨x, rfl⟩
  · rcases hm with ⟨j, rfl⟩ | ⟨y, rfl⟩
    · have hread := Json.readScalar?_int i Json.endsNumber_nil
      rw [show (toString i).toList = (toString j).toList from heq,
        Json.readScalar?_int j Json.endsNumber_nil] at hread
      exact congrArg Scalar.int (by simpa using hread.symm)
    · exact absurd heq (toString_ne_lay i y)
  · rcases hm with ⟨j, rfl⟩ | ⟨y, rfl⟩
    · exact absurd heq.symm (toString_ne_lay j x)
    · rw [Binary64.lay_injective (String.toList_injective heq)]

theorem notMem_numberText {n : Scalar} (hn : n.IsNumber) : ')' ∉ numberText n := by
  rcases hn with ⟨i, rfl⟩ | ⟨x, rfl⟩
  · intro hmem
    have hchar := isDigit_or_eq_of_mem_toString hmem
    revert hchar
    decide
  · exact x.notMem_lay

theorem eq_of_numberText {n m : Scalar} {s t : List Char} (hn : n.IsNumber) (hm : m.IsNumber)
    (heq : numberText n ++ ')' :: s = numberText m ++ ')' :: t) : n = m ∧ s = t := by
  have hcut : ∀ {m : Scalar} {t : List Char}, m.IsNumber →
      Text.cutAt (· = ')') (numberText m ++ ')' :: t) = (numberText m, ')' :: t) := by
    intro m t hm
    refine Text.cutAt_append (fun c hc => ?_) (Text.startsAt_cons ')' t)
    rw [decide_eq_false_iff_not]
    rintro rfl
    exact notMem_numberText hm hc
  obtain ⟨htext, hrest⟩ := Prod.mk.inj ((hcut hn).symm.trans (heq ▸ hcut hm))
  exact ⟨numberText_injOn hn hm htext, (List.cons.inj hrest).2⟩

/-! ## Kinds -/

/-- The kinds that descriptions name; all numbers are of one kind. -/
inductive DescribedKind
  | null
  | bool
  | number
  | text
  | array
  | object

def DescribedKind.opening : DescribedKind → List Char
  | null => ['N', 'u', 'l', 'l']
  | bool => ['B', 'o', 'o', 'l', '(']
  | number => ['N', 'u', 'm', 'b', 'e', 'r', '(']
  | text => ['S', 't', 'r', 'i', 'n', 'g', '(']
  | array => ['A', 'r', 'r', 'a', 'y', ' ', '[']
  | object => ['O', 'b', 'j', 'e', 'c', 't', ' ', '\x7b']

theorem DescribedKind.eq_of_opening {k l : DescribedKind} {s t : List Char}
    (h : k.opening ++ s = l.opening ++ t) : k = l ∧ s = t := by
  cases k <;> cases l <;> simp [opening] at h ⊢ <;> exact h

namespace Value

def memberText (m : Scalar × Value) : List Char :=
  (Text.quoted m.1.plain).toList ++ ':' :: ' ' :: m.2.describe.toList

def IsJsonMember (m : Scalar × Value) : Prop :=
  (∃ name, m.1 = .str name) ∧ m.2.IsJson

/-- The description of the value is of this kind, and goes on with this text behind its opening. -/
inductive Described : Value → DescribedKind → List Char → Prop
  | null : Described .null .null []
  | bool (b : Bool) : Described (.bool b) .bool ((if b then "true" else "false").toList ++ [')'])
  | number {n : Scalar} (hn : n.IsNumber) :
      Described (.scalar n) .number (numberText n ++ [')'])
  | text (text : String) : Described (.str text) .text ((Text.quoted text).toList ++ [')'])
  | array {elements : List Value} (each : ∀ v ∈ elements, v.IsJson) :
      Described (.arr elements) .array (joined (fun v => v.describe.toList) elements ++ [']'])
  | object {members : Members} (each : ∀ m ∈ members, IsJsonMember m) :
      Described (.obj members) .object (joined memberText members ++ ['\x7d'])

theorem IsJson.exists_described {v : Value} (hv : v.IsJson) :
    ∃ kind rest, Described v kind rest := by
  cases hv with
  | @scalar s hs =>
      cases s with
      | null => exact ⟨_, _, .null⟩
      | bool b => exact ⟨_, _, .bool b⟩
      | int i => exact ⟨_, _, .number (.inl ⟨i, rfl⟩)⟩
      | float x => exact ⟨_, _, .number (.inr ⟨x, rfl⟩)⟩
      | str text => exact ⟨_, _, .text text⟩
      | bytes octets => cases hs
      | date d => cases hs
      | time t => cases hs
  | arr each => exact ⟨_, _, .array each⟩
  | obj keys each => exact ⟨_, _, .object fun m hm => ⟨keys.text m hm, each m hm⟩⟩

theorem describeElements_eq_map (elements : List Value) :
    describeElements elements = elements.map describe := by
  induction elements with
  | nil => rfl
  | cons v rest ih => rw [describeElements, ih, List.map_cons]

theorem describeMembers_eq_map (members : Members) :
    describeMembers members =
      members.map fun m => Text.quoted m.1.plain ++ ": " ++ m.2.describe := by
  induction members with
  | nil => rfl
  | cons m rest ih => rw [describeMembers, ih, List.map_cons]

theorem Described.toList_describe {v : Value} {kind : DescribedKind} {rest : List Char}
    (h : Described v kind rest) : v.describe.toList = kind.opening ++ rest := by
  cases h with
  | null => simp [describe, Scalar.describe, DescribedKind.opening]
  | bool b => simp [describe, Scalar.describe, DescribedKind.opening]
  | number hn =>
      rcases hn with ⟨i, rfl⟩ | ⟨x, rfl⟩
      · simp [describe, Scalar.describe, describeInt, numberText, DescribedKind.opening]
      · simp [describe, Scalar.describe, numberText, DescribedKind.opening]
  | text => simp [describe, Scalar.describe, DescribedKind.opening]
  | array =>
      simp [describe, describeArray, DescribedKind.opening, joined, describeElements_eq_map,
        Function.comp_def]
  | @object members =>
      have hmember : members.map memberText = (members.map fun m =>
          Text.quoted m.1.plain ++ ": " ++ m.2.describe).map String.toList := by
        simp [memberText]
      simp [describe, DescribedKind.opening, joined, describeMembers_eq_map, hmember]

/-- The opening gives the kind away, so only values of one kind have to be told from each other. -/
theorem Described.legible {v : Value} {kind : DescribedKind} {rest : List Char}
    (hv : Described v kind rest)
    (h : ∀ w other s t, Described w kind other → rest ++ s = other ++ t → v = w ∧ s = t) :
    Legible IsJson (fun v => v.describe.toList) v := by
  intro w s t hw heq
  obtain ⟨found, other, hother⟩ := hw.exists_described
  dsimp only at heq
  rw [hv.toList_describe, hother.toList_describe, List.append_assoc, List.append_assoc] at heq
  obtain ⟨rfl, hrest⟩ := DescribedKind.eq_of_opening heq
  exact h w other s t hother hrest

theorem legible_memberText {m : Scalar × Value} (hm : IsJsonMember m)
    (h : Legible IsJson (fun v => v.describe.toList) m.2) :
    Legible IsJsonMember memberText m := by
  obtain ⟨key, v⟩ := m
  rintro ⟨key', w⟩ s t ⟨⟨name', hname'⟩, hw⟩ heq
  obtain ⟨name, hname⟩ := hm.1
  dsimp only at hname hname'
  subst hname hname'
  unfold memberText at heq
  rw [List.append_assoc, List.append_assoc] at heq
  obtain ⟨rfl, hrest⟩ := legible_quoted name name' _ _ trivial heq
  obtain ⟨rfl, rfl⟩ := h w s t hw (List.cons.inj (List.cons.inj hrest).2).2
  exact ⟨rfl, rfl⟩

theorem exists_describe_cons {v : Value} (hv : v.IsJson) :
    ∃ c rest, v.describe.toList = c :: rest ∧ c ≠ ']' := by
  obtain ⟨kind, rest, h⟩ := hv.exists_described
  rw [h.toList_describe]
  cases kind <;> exact ⟨_, _, rfl, by decide⟩

theorem exists_memberText_cons (m : Scalar × Value) :
    ∃ c rest, memberText m = c :: rest ∧ c ≠ '\x7d' := by
  rw [memberText, Json.toList_quoted]
  exact ⟨_, _, rfl, by decide⟩

theorem legible_describe {v : Value} (hv : v.IsJson) :
    Legible IsJson (fun v => v.describe.toList) v := by
  induction hv with
  | @scalar a ha =>
      obtain ⟨kind, rest, hdescribed⟩ := (IsJson.scalar ha).exists_described
      refine hdescribed.legible fun w other s t hother heq => ?_
      cases hdescribed with
      | null =>
          cases hother
          exact ⟨rfl, heq⟩
      | bool b =>
          cases hother with
          | bool c => cases b <;> cases c <;> simp_all
      | number hn =>
          cases hother with
          | number hm =>
              rw [List.append_assoc, List.append_assoc] at heq
              obtain ⟨rfl, rfl⟩ := eq_of_numberText hn hm heq
              exact ⟨rfl, rfl⟩
      | text text =>
          cases hother with
          | text found =>
              rw [List.append_assoc, List.append_assoc] at heq
              obtain ⟨rfl, hrest⟩ := legible_quoted text found _ _ trivial heq
              exact ⟨rfl, (List.cons.inj hrest).2⟩
  | @arr elements each ih =>
      refine (Described.array each).legible fun w other s t hother heq => ?_
      cases hother with
      | @array others hothers =>
          rw [List.append_assoc, List.append_assoc] at heq
          obtain ⟨rfl, rfl⟩ := eq_of_joined (by decide) (fun v hv => exists_describe_cons hv)
            (fun v hv => ⟨each v hv, ih v hv⟩) hothers heq
          exact ⟨rfl, rfl⟩
  | @obj members keys each ih =>
      have hmembers : ∀ m ∈ members, IsJsonMember m := fun m hm => ⟨keys.text m hm, each m hm⟩
      refine (Described.object hmembers).legible fun w other s t hother heq => ?_
      cases hother with
      | @object others hothers =>
          rw [List.append_assoc, List.append_assoc] at heq
          obtain ⟨rfl, rfl⟩ := eq_of_joined (by decide) (fun m _ => exists_memberText_cons m)
            (fun m hm => ⟨hmembers m hm, legible_memberText (hmembers m hm) (ih m hm)⟩) hothers heq
          exact ⟨rfl, rfl⟩

/-- JSON values have descriptions, and different ones have different descriptions, none of which
begins with another. -/
theorem describe_unambiguous {v w : Value} (hv : v.IsJson) (hw : w.IsJson) :
    (v.describe? = some v.describe ∧ w.describe? = some w.describe) ∧
      (v.describe? = w.describe? → v = w) ∧
      ∀ s t : String, v.describe ++ s = w.describe ++ t → v = w ∧ s = t := by
  have hsome : ∀ {u : Value}, u.IsJson → u.describe? = some u.describe := by
    intro u hu
    rw [describe?, hu.isEndless_eq_false]
    rfl
  refine ⟨⟨hsome hv, hsome hw⟩, ?_, ?_⟩
  · intro h
    rw [hsome hv, hsome hw] at h
    have heq := congrArg (· ++ []) (congrArg String.toList (Option.some.inj h))
    exact (legible_describe hv w [] [] hw heq).1
  · intro s t h
    have heq := congrArg String.toList h
    rw [String.toList_append, String.toList_append] at heq
    obtain ⟨hvalue, hrest⟩ := legible_describe hv w s.toList t.toList hw heq
    exact ⟨hvalue, String.toList_injective hrest⟩

theorem quotedSeparator_described :
    (Value.arr [.str "a\", String(\"b"]).IsJson ∧ (Value.arr [.str "a", .str "b"]).IsJson ∧
      ∀ s t : String, (Value.arr [.str "a\", String(\"b"]).describe ++ s ≠
        (Value.arr [.str "a", .str "b"]).describe ++ t := by
  have hone : (Value.arr [.str "a\", String(\"b"]).IsJson := by simp [Scalar.IsJson]
  have htwo : (Value.arr [.str "a", .str "b"]).IsJson := by simp [Scalar.IsJson]
  refine ⟨hone, htwo, fun s t heq => ?_⟩
  have h := ((describe_unambiguous hone htwo).2.2 s t heq).1
  simp at h

end Value

end StructuralSchema
