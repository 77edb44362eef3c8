import StructuralSchema.Json.Printer
import StructuralSchema.Proofs.JsonReading
import StructuralSchema.Proofs.PointerText

/-!
# JSON text

The reader reads the text of a value as that value, with every layout. A text is read in front
of whatever may follow a value, so the text of a part is read where it stands in the text of the
whole. Numbers with fractions are left out.
-/

namespace StructuralSchema

def Scalar.IsWhole : Scalar → Prop
  | .null | .bool _ | .int _ | .str _ => True
  | _ => False

namespace Value

/-- What a JSON document without fractions can hold. -/
inductive IsWhole : Value → Prop
  | scalar {s : Scalar} (hs : s.IsWhole) : IsWhole (.scalar s)
  | arr {elements : List Value} (each : ∀ v ∈ elements, IsWhole v) : IsWhole (.arr elements)
  | obj {members : List (Scalar × Value)} (keys : HasTextKeys members)
      (each : ∀ m ∈ members, IsWhole m.2) : IsWhole (.obj members)

@[simp] theorem isWhole_scalar_iff {s : Scalar} : IsWhole (.scalar s) ↔ s.IsWhole := by
  refine ⟨?_, .scalar⟩
  intro h
  cases h with
  | scalar hs => exact hs

@[simp] theorem isWhole_arr_iff {elements : List Value} :
    IsWhole (.arr elements) ↔ ∀ v ∈ elements, v.IsWhole := by
  refine ⟨?_, .arr⟩
  intro h
  cases h with
  | arr each => exact each

@[simp] theorem isWhole_obj_iff {members : Members} :
    IsWhole (.obj members) ↔ HasTextKeys members ∧ ∀ m ∈ members, m.2.IsWhole := by
  refine ⟨?_, fun h => .obj h.1 h.2⟩
  intro h
  cases h with
  | obj keys each => exact ⟨keys, each⟩

theorem IsWhole.of_isPartOf {v w : Value} (hv : v.IsWhole) (h : w.IsPartOf v) : w.IsWhole := by
  cases h with
  | element hmem => exact isWhole_arr_iff.mp hv w hmem
  | member hmem => exact (isWhole_obj_iff.mp hv).2 _ hmem

end Value

namespace Json

theorem exists_eq_succ {least steps : ℕ} (h : least < steps) : ∃ others, steps = others + 1 :=
  Nat.exists_eq_add_one.mpr (Nat.zero_lt_of_lt h)

/-! ## Blanks -/

def continuesNumber (c : Char) : Bool :=
  c.isDigit || c = '.' || c = 'e' || c = 'E'

/-- The text can stand behind a value: it does not go on with a number. -/
def EndsNumber (rest : List Char) : Prop :=
  ∀ c tail, rest = c :: tail → continuesNumber c = false

theorem endsNumber_nil : EndsNumber [] := by
  intro c tail h
  cases h

theorem endsNumber_cons {c : Char} (h : continuesNumber c = false) (rest : List Char) :
    EndsNumber (c :: rest) := by
  rintro d tail heq
  rwa [← (List.cons.inj heq).1]

theorem continuesNumber_of_isGap {c : Char} (h : isGap c = true) : continuesNumber c = false := by
  simp only [isGap, Bool.or_eq_true, decide_eq_true_eq] at h
  rcases h with ((rfl | rfl) | rfl) | rfl <;> decide

def IsGapText (gap : List Char) : Prop :=
  ∀ c ∈ gap, isGap c = true

theorem skipGap_append {gap : List Char} (h : IsGapText gap) (rest : List Char) :
    skipGap (gap ++ rest) = skipGap rest :=
  List.dropWhile_append_of_pos h

theorem skipGap_cons {c : Char} (h : isGap c = false) (rest : List Char) :
    skipGap (c :: rest) = c :: rest := by
  simp [skipGap, h]

theorem endsNumber_gap {gap : List Char} (h : IsGapText gap) {rest : List Char}
    (hrest : EndsNumber rest) : EndsNumber (gap ++ rest) := by
  cases gap with
  | nil => exact hrest
  | cons c gap => exact endsNumber_cons (continuesNumber_of_isGap (h c List.mem_cons_self)) _

theorem isGapText_lineStart (indent : Option Int) (depth : ℕ) :
    IsGapText (lineStart indent depth) := by
  intro c hc
  cases indent with
  | none => simp [lineStart] at hc
  | some n =>
      rcases List.mem_cons.mp hc with rfl | hc
      · rfl
      · obtain rfl := List.eq_of_mem_replicate hc
        rfl

theorem exists_separator_eq (indent : Option Int) (depth : ℕ) :
    ∃ gap, separator indent depth = ',' :: gap ∧ IsGapText gap := by
  cases indent with
  | none => exact ⟨[' '], rfl, by simp [IsGapText, isGap]⟩
  | some n => exact ⟨lineStart (some n) depth, rfl, isGapText_lineStart (some n) depth⟩

/-! ## Quoted text -/

section Quoted

variable {opening rest : List Char}

theorem readUnicodeEscape_hexDigits {n : ℕ} (h : n < 0x20) (next : Char) (rest : List Char) :
    readUnicodeEscape ('u' :: (Text.hexDigits 4 n ++ next :: rest)) =
      .ok (Char.ofNat n, next :: rest) := by
  have hdigits : Text.readHex? (Text.hexDigits 4 n) = some n :=
    Text.readHex?_hexDigits (by simp only [Nat.pow_eq]; omega)
  obtain ⟨a, b, c, d, hfour⟩ : ∃ a b c d, Text.hexDigits 4 n = [a, b, c, d] := ⟨_, _, _, _, rfl⟩
  have hhigh : isHighUnit n = false := by
    simp only [isHighUnit, Bool.and_eq_false_iff, decide_eq_false_iff_not]
    omega
  have hlow : isLowUnit n = false := by
    simp only [isLowUnit, Bool.and_eq_false_iff, decide_eq_false_iff_not]
    omega
  rw [hfour] at hdigits ⊢
  simp [readUnicodeEscape, readUnit?, hdigits, hhigh, hlow, unitChar]

def escapedLetters : List (Char × Char) :=
  [('"', '"'), ('\\', '\\'), ('\n', 'n'), ('\r', 'r'), ('\t', 't'), ('\x08', 'b'), ('\x0c', 'f')]

theorem quotedChar_cases (c : Char) :
    (∃ e, Text.quotedChar c = ['\\', e] ∧ e ≠ 'u' ∧ escaped? e = some c) ∨
      (Text.quotedChar c = '\\' :: 'u' :: Text.hexDigits 4 c.toNat ∧ c.toNat < 0x20) ∨
      Text.quotedChar c = [c] ∧ c ≠ '"' ∧ c ≠ '\\' ∧ ¬ c.toNat < 0x20 := by
  by_cases hletter : c ∈ escapedLetters.map Prod.fst
  · left
    have hall : ∀ entry ∈ escapedLetters, Text.quotedChar entry.1 = ['\\', entry.2] ∧
        entry.2 ≠ 'u' ∧ escaped? entry.2 = some entry.1 := by decide
    obtain ⟨entry, hentry, rfl⟩ := List.mem_map.mp hletter
    exact ⟨entry.2, hall entry hentry⟩
  · right
    simp only [escapedLetters, List.map_cons, List.map_nil, List.mem_cons, List.not_mem_nil,
      or_false, not_or] at hletter
    obtain ⟨hquote, hback, hline, hreturn, htab, hbs, hform⟩ := hletter
    rw [Text.quotedChar, if_neg hquote, if_neg hback, if_neg hline, if_neg hreturn, if_neg htab,
      if_neg hbs, if_neg hform]
    by_cases hcontrol : c.toNat < 0x20
    · exact .inl ⟨if_pos hcontrol, hcontrol⟩
    · exact .inr ⟨if_neg hcontrol, hquote, hback, hcontrol⟩

theorem readChars_quotedChar (steps : ℕ) (taken : List Char) (c next : Char) :
    readChars opening (steps + 1) taken (Text.quotedChar c ++ next :: rest) =
      readChars opening steps (c :: taken) (next :: rest) := by
  rcases quotedChar_cases c with ⟨e, heq, hu, he⟩ | ⟨heq, hcontrol⟩ |
    ⟨heq, hquote, hback, hcontrol⟩
  · rw [heq]
    simp [readChars, he]
  · have hescape := readUnicodeEscape_hexDigits hcontrol next rest
    rw [Char.ofNat_toNat] at hescape
    rw [heq]
    simp [readChars, hescape]
  · rw [heq]
    simp [readChars, hquote, hback, hcontrol]

theorem readChars_quoted (chars : List Char) :
    ∀ steps taken, chars.length < steps →
      readChars opening steps taken (chars.flatMap Text.quotedChar ++ '"' :: rest) =
        .ok (String.ofList (taken.reverse ++ chars), rest) := by
  induction chars with
  | nil =>
      intro steps taken hsteps
      obtain ⟨steps, rfl⟩ := exists_eq_succ hsteps
      simp [readChars]
  | cons c chars ih =>
      intro steps taken hsteps
      obtain ⟨steps, rfl⟩ := exists_eq_succ hsteps
      have hrest := ih steps (c :: taken) (by simpa using hsteps)
      obtain ⟨next, tail, htail⟩ :
          ∃ next tail, chars.flatMap Text.quotedChar ++ '"' :: rest = next :: tail :=
        List.exists_cons_of_ne_nil (by simp)
      rw [List.flatMap_cons, List.append_assoc, htail, readChars_quotedChar, ← htail, hrest,
        List.reverse_cons, List.append_assoc, List.singleton_append]

theorem length_le_length_flatMap_quotedChar (chars : List Char) :
    chars.length ≤ (chars.flatMap Text.quotedChar).length := by
  induction chars with
  | nil => exact Nat.le_refl 0
  | cons c chars ih =>
      have hpos : 0 < (Text.quotedChar c).length := by
        rcases quotedChar_cases c with ⟨e, heq, -⟩ | ⟨heq, -⟩ | ⟨heq, -⟩ <;> simp [heq]
      rw [List.flatMap_cons, List.length_append, List.length_cons]
      omega

theorem toList_quoted (text : String) :
    (Text.quoted text).toList = '"' :: (text.toList.flatMap Text.quotedChar ++ ['"']) := by
  simp [Text.quoted]

theorem readText_quoted (text : String) (rest : List Char) :
    readText (text.toList.flatMap Text.quotedChar ++ '"' :: rest) = .ok (text, rest) := by
  have hlength := length_le_length_flatMap_quotedChar text.toList
  rw [readText, readChars_quoted, List.reverse_nil, List.nil_append, String.ofList_toList]
  rw [List.length_append, List.length_cons]
  omega

end Quoted

/-! ## Whole numbers -/

section Numbers

variable {rest : List Char}

theorem readFraction_of_endsNumber (h : EndsNumber rest) : readFraction rest = ([], rest) := by
  unfold readFraction
  split
  · rename_i tail
    exact absurd (h '.' tail rfl) (by decide)
  · rfl

theorem readExponent_of_endsNumber (h : EndsNumber rest) : readExponent rest = (none, rest) := by
  cases rest with
  | nil => rfl
  | cons c tail =>
      have hexponent : ¬ (c = 'e' ∨ c = 'E') := by
        rintro (rfl | rfl)
        · exact absurd (h 'e' tail rfl) (by decide)
        · exact absurd (h 'E' tail rfl) (by decide)
      rw [readExponent, if_neg hexponent]

theorem isDigit_of_mem_toDigits {n : ℕ} {c : Char} (h : c ∈ Nat.toDigits 10 n) :
    c.isDigit = true :=
  Nat.isDigit_of_mem_toDigits (by decide) (by decide) h

theorem takeWhile_digits_append {digits : List Char} (hdigits : ∀ c ∈ digits, c.isDigit = true)
    (h : EndsNumber rest) :
    (digits ++ rest).takeWhile Char.isDigit = digits ∧
      (digits ++ rest).dropWhile Char.isDigit = rest := by
  have hrest : rest.takeWhile Char.isDigit = [] ∧ rest.dropWhile Char.isDigit = rest := by
    cases rest with
    | nil => exact ⟨rfl, rfl⟩
    | cons c tail =>
        have hc : c.isDigit = false := by
          have hcontinues := h c tail rfl
          simp only [continuesNumber, Bool.or_eq_false_iff] at hcontinues
          exact hcontinues.1.1.1
        exact ⟨by simp [hc], by simp [hc]⟩
  rw [List.takeWhile_append_of_pos hdigits, List.dropWhile_append_of_pos hdigits, hrest.1, hrest.2,
    List.append_nil]
  exact ⟨rfl, rfl⟩

theorem readWhole?_toDigits (n : ℕ) (h : EndsNumber rest) :
    readWhole? (Nat.toDigits 10 n ++ rest) = some (Nat.toDigits 10 n, rest) := by
  obtain ⟨c, tail, hdigits, hlead⟩ := Pointer.toDigits_eq_cons n
  have hall : ∀ d ∈ c :: tail, d.isDigit = true := fun d hd =>
    isDigit_of_mem_toDigits (hdigits ▸ hd)
  obtain ⟨hc, htail⟩ := List.forall_mem_cons.mp hall
  obtain ⟨htake, hdrop⟩ := takeWhile_digits_append htail h
  rw [hdigits, List.cons_append, readWhole?]
  split_ifs with hzero
  · rcases hlead with hne | rfl
    · exact absurd hzero hne
    · rw [hzero, List.nil_append]
  · rw [htake, hdrop]

theorem readNumber?_negative {unsigned whole : List Char}
    (hwhole : readWhole? unsigned = some (whole, rest)) (h : EndsNumber rest) :
    readNumber? ('-' :: unsigned) =
      some (.int (Binary64.signed true (Text.decimalValue whole)), rest) := by
  unfold readNumber?
  split
  rename_i negative text hsign
  split at hsign
  · rename_i heq
    have htext : unsigned = text :=
      (List.cons.inj heq).2.trans (Prod.mk.inj hsign).2
    simp only [← (Prod.mk.inj hsign).1, ← htext, hwhole, readFraction_of_endsNumber h,
      readExponent_of_endsNumber h, List.isEmpty_nil, if_true]
  · rename_i hne
    exact absurd rfl (hne unsigned)

theorem readNumber?_unsigned {c : Char} {tail whole : List Char} (hc : c ≠ '-')
    (hwhole : readWhole? (c :: tail) = some (whole, rest)) (h : EndsNumber rest) :
    readNumber? (c :: tail) =
      some (.int (Binary64.signed false (Text.decimalValue whole)), rest) := by
  unfold readNumber?
  split
  rename_i negative unsigned hsign
  split at hsign
  · rename_i heq
    exact absurd (List.cons.inj heq).1 hc
  · simp only [← (Prod.mk.inj hsign).1, ← (Prod.mk.inj hsign).2, hwhole,
      readFraction_of_endsNumber h, readExponent_of_endsNumber h, List.isEmpty_nil, if_true]

theorem readScalar?_eq_readNumber? {c : Char} {tail : List Char}
    (h : c.isDigit = true ∨ c = '-' ∧ ∃ d rest, tail = d :: rest ∧ d.isDigit = true) :
    readScalar? (c :: tail) = readNumber? (c :: tail) := by
  have hletters : ∀ d : Char, d.isDigit = true → ∀ e ∈ ['n', 't', 'f', 'N', 'I', '-'], ¬ e = d := by
    rintro d hd e he rfl
    simp only [List.mem_cons, List.not_mem_nil, or_false] at he
    rcases he with rfl | rfl | rfl | rfl | rfl | rfl <;> simp at hd
  have hnone : (words.findSome? fun w => (Text.after? w.1.toList (c :: tail)).map (w.2, ·)) =
      none := by
    rcases h with hc | ⟨rfl, d, rest, rfl, hd⟩
    · have hne := hletters c hc
      simp only [List.forall_mem_cons] at hne
      obtain ⟨hn, ht, hf, hN, hI, hminus, -⟩ := hne
      simp [words, Text.after?, hn, ht, hf, hN, hI, hminus]
    · have hne : ¬ 'I' = d := hletters d hd 'I' (by simp)
      simp [words, Text.after?, hne]
  rw [readScalar?, hnone]

theorem readScalar?_int (i : Int) (h : EndsNumber rest) :
    readScalar? ((toString i).toList ++ rest) = some (.int i, rest) := by
  rw [Int.toString_eq_repr]
  cases i with
  | ofNat n =>
      have hwhole := readWhole?_toDigits n h
      have hvalue := Pointer.decimalValue_toDigits n
      obtain ⟨c, tail, hdigits, -⟩ := Pointer.toDigits_eq_cons n
      have hc : c.isDigit = true :=
        isDigit_of_mem_toDigits (n := n) (hdigits ▸ List.mem_cons_self)
      have hminus : c ≠ '-' := by
        rintro rfl
        simp at hc
      rw [hdigits, List.cons_append] at hwhole
      rw [Int.repr, Nat.toList_repr, hdigits, List.cons_append,
        readScalar?_eq_readNumber? (.inl hc), readNumber?_unsigned hminus hwhole h, ← hdigits, hvalue]
      rfl
  | negSucc n =>
      have hwhole := readWhole?_toDigits (n + 1) h
      have hvalue := Pointer.decimalValue_toDigits (n + 1)
      obtain ⟨c, tail, hdigits, -⟩ := Pointer.toDigits_eq_cons (n + 1)
      have hc : c.isDigit = true :=
        isDigit_of_mem_toDigits (n := n + 1) (hdigits ▸ List.mem_cons_self)
      have htext : (Int.negSucc n).repr.toList = '-' :: Nat.toDigits 10 (n + 1) := by
        simp [Int.repr, String.toList_append, Nat.toList_repr]
      rw [htext, List.cons_append, readScalar?_eq_readNumber?
        (.inr ⟨rfl, c, tail ++ rest, by rw [hdigits, List.cons_append], hc⟩),
        readNumber?_negative hwhole h, hvalue]
      rfl

end Numbers

/-! ## Values -/

/-- The text is read as the value, whatever may stand behind it, and starts neither with a blank
nor with a closing bracket nor with a byte order mark. -/
structure ReadsAs (text : List Char) (v : Value) : Prop where
  start : ∃ c tail, text = c :: tail ∧ isGap c = false ∧ c ≠ ']' ∧ c ≠ '\ufeff'
  reads : ∀ steps rest, EndsNumber rest → text.length ≤ steps →
    readValue steps (text ++ rest) = .ok (v, rest)

theorem ReadsAs.skipGap_eq {text : List Char} {v : Value} (h : ReadsAs text v)
    (rest : List Char) : skipGap (text ++ rest) = text ++ rest := by
  obtain ⟨c, tail, rfl, hgap, -, -⟩ := h.start
  exact skipGap_cons hgap _

theorem ReadsAs.skipGap_space {text : List Char} {v : Value} (h : ReadsAs text v)
    (rest : List Char) : skipGap (' ' :: (text ++ rest)) = text ++ rest := by
  have hspace : IsGapText [' '] := by simp [IsGapText, isGap]
  exact (skipGap_append hspace (text ++ rest)).trans (h.skipGap_eq rest)

section Scalars

theorem readValue_of_readScalar? {c : Char} {tail rest : List Char} {s : Scalar} {steps : ℕ}
    (hquote : c ≠ '"') (hbracket : c ≠ '[') (hbrace : c ≠ '\x7b')
    (h : readScalar? (c :: tail) = some (s, rest)) :
    readValue (steps + 1) (c :: tail) = .ok (.scalar s, rest) := by
  unfold readValue
  split
  · rename_i heq
    cases heq
  · rename_i hsteps _
    cases hsteps
  · rename_i heq
    exact absurd (List.cons.inj heq).1 hquote
  · rename_i heq
    exact absurd (List.cons.inj heq).1 hbracket
  · rename_i heq
    exact absurd (List.cons.inj heq).1 hbrace
  · rw [h]

theorem readsAs_of_readScalar? {c : Char} {tail : List Char} {s : Scalar}
    (hc : c.isDigit = true ∨ c ∈ ['-', 'n', 't', 'f'])
    (h : ∀ rest, EndsNumber rest → readScalar? (c :: tail ++ rest) = some (s, rest)) :
    ReadsAs (c :: tail) (.scalar s) := by
  have hother : ∀ d : Char, d.isDigit = false → d ∉ ['-', 'n', 't', 'f'] → c ≠ d := by
    rintro d hdigit hd rfl
    rcases hc with hc | hc
    · rw [hc] at hdigit
      cases hdigit
    · exact hd hc
  constructor
  · refine ⟨c, tail, rfl, ?_, hother ']' rfl (by decide), hother '\ufeff' rfl (by decide)⟩
    simp only [isGap, Bool.or_eq_false_iff, decide_eq_false_iff_not]
    exact ⟨⟨⟨hother ' ' rfl (by decide), hother '\t' rfl (by decide)⟩,
      hother '\n' rfl (by decide)⟩, hother '\r' rfl (by decide)⟩
  · intro steps rest hrest hsteps
    obtain ⟨steps, rfl⟩ := exists_eq_succ hsteps
    exact readValue_of_readScalar? (hother '"' rfl (by decide)) (hother '[' rfl (by decide))
      (hother '\x7b' rfl (by decide)) (h rest hrest)

theorem readsAs_null : ReadsAs "null".toList .null :=
  readsAs_of_readScalar? (.inr (by decide)) fun _ _ => rfl

theorem readsAs_bool (b : Bool) : ReadsAs (if b then "true" else "false").toList (.bool b) := by
  cases b with
  | true => exact readsAs_of_readScalar? (.inr (by decide)) fun _ _ => rfl
  | false => exact readsAs_of_readScalar? (.inr (by decide)) fun _ _ => rfl

theorem exists_toList_toString_int (i : Int) :
    ∃ c tail, (toString i).toList = c :: tail ∧ (c.isDigit = true ∨ c = '-') := by
  rw [Int.toString_eq_repr]
  cases i with
  | ofNat n =>
      obtain ⟨c, tail, hdigits, -⟩ := Pointer.toDigits_eq_cons n
      refine ⟨c, tail, ?_, .inl (isDigit_of_mem_toDigits (n := n) (hdigits ▸ List.mem_cons_self))⟩
      rw [Int.repr, Nat.toList_repr, hdigits]
  | negSucc n =>
      refine ⟨'-', Nat.toDigits 10 (n + 1), ?_, .inr rfl⟩
      simp [Int.repr, String.toList_append, Nat.toList_repr]

theorem readsAs_int (i : Int) : ReadsAs (toString i).toList (.int i) := by
  obtain ⟨c, tail, htext, hc⟩ := exists_toList_toString_int i
  have hread := fun rest (hrest : EndsNumber rest) => readScalar?_int i hrest
  rw [htext] at hread ⊢
  exact readsAs_of_readScalar? (hc.imp_right fun heq => by simp [heq]) hread

theorem readsAs_str (text : String) : ReadsAs (Text.quoted text).toList (.str text) := by
  rw [toList_quoted]
  refine ⟨⟨'"', _, rfl, by decide, by decide, by decide⟩, ?_⟩
  intro steps rest hrest hsteps
  obtain ⟨steps, rfl⟩ := exists_eq_succ hsteps
  rw [List.cons_append, List.append_assoc, List.singleton_append, readValue, readText_quoted]

end Scalars

/-! ## Brackets -/

section Brackets

variable {gap closing : List Char} {parts : List (List Char)}

theorem intercalate_singleton (separator part : List Char) :
    separator.intercalate [part] = part := by
  simp [List.intercalate]

theorem intercalate_cons_cons (separator part next : List Char) (parts : List (List Char)) :
    separator.intercalate (part :: next :: parts) =
      part ++ (separator ++ separator.intercalate (next :: parts)) := by
  simp [List.intercalate]

theorem exists_intercalate_cons (separator part : List Char) (parts : List (List Char)) :
    ∃ more, separator.intercalate (part :: parts) = part ++ more := by
  cases parts with
  | nil => exact ⟨[], by rw [intercalate_singleton, List.append_nil]⟩
  | cons next parts => exact ⟨_, intercalate_cons_cons separator part next parts⟩

theorem skipGap_closing (hclosing : IsGapText closing) {c : Char} (hc : isGap c = false)
    (rest : List Char) : skipGap (closing ++ c :: rest) = c :: rest := by
  rw [skipGap_append hclosing, skipGap_cons hc]

theorem readElements_intercalate (hgap : IsGapText gap) (hclosing : IsGapText closing)
    {elements : List Value} (h : List.Forall₂ ReadsAs parts elements) (hne : parts ≠ []) :
    ∀ steps rest, ((',' :: gap).intercalate parts).length < steps →
      readElements steps ((',' :: gap).intercalate parts ++ (closing ++ ']' :: rest)) =
        .ok (elements, rest) := by
  -- Behind each part stands a comma or what closes the bracket, and neither goes on with a number.
  induction h with
  | nil => exact absurd rfl hne
  | @cons part v parts elements hpart hparts ih =>
      intro steps rest hsteps
      obtain ⟨steps, rfl⟩ := exists_eq_succ hsteps
      cases hparts with
      | nil =>
          rw [intercalate_singleton] at hsteps ⊢
          have hends : EndsNumber (closing ++ ']' :: rest) :=
            endsNumber_gap hclosing (endsNumber_cons (by decide) rest)
          simp only [readElements, hpart.reads steps _ hends (by omega),
            skipGap_closing hclosing (show isGap ']' = false by decide)]
      | @cons next w parts elements hnext hparts =>
          obtain ⟨more, hmore⟩ := exists_intercalate_cons (',' :: gap) next parts
          have hrest := ih (List.cons_ne_nil _ _) steps rest
          rw [intercalate_cons_cons] at hsteps ⊢
          simp only [List.length_append, List.length_cons] at hsteps
          have hends : ∀ more, EndsNumber (',' :: more) := endsNumber_cons (by decide)
          have hskip : skipGap (gap ++ ((',' :: gap).intercalate (next :: parts) ++
              (closing ++ ']' :: rest))) =
              (',' :: gap).intercalate (next :: parts) ++ (closing ++ ']' :: rest) := by
            rw [skipGap_append hgap, hmore, List.append_assoc, hnext.skipGap_eq]
          simp only [List.append_assoc, List.cons_append, readElements,
            hpart.reads steps _ (hends _) (by omega),
            skipGap_cons (show isGap ',' = false by decide), hskip, hrest (by omega)]

def ReadsAsMember (text : List Char) (m : Scalar × Value) : Prop :=
  ∃ name part, m.1 = .str name ∧ ReadsAs part m.2 ∧
    text = (Text.quoted name).toList ++ ':' :: ' ' :: part

theorem ReadsAsMember.exists_eq_cons {text : List Char} {m : Scalar × Value}
    (h : ReadsAsMember text m) : ∃ tail, text = '"' :: tail := by
  obtain ⟨name, part, -, -, htext⟩ := h
  rw [htext, toList_quoted]
  exact ⟨_, rfl⟩

section Member

variable {text rest after : List Char} {m : Scalar × Value} {steps : ℕ}

theorem readMembers_last (h : ReadsAsMember text m) (hsteps : text.length ≤ steps)
    (hrest : EndsNumber rest) (hafter : skipGap rest = '\x7d' :: after) :
    readMembers (steps + 1) (text ++ rest) = .ok ([m], after) := by
  obtain ⟨key, v⟩ := m
  obtain ⟨name, part, hkey, hpart, htext⟩ := h
  obtain rfl : key = .str name := hkey
  simp only [htext, List.length_append, List.length_cons] at hsteps
  rw [htext, toList_quoted]
  simp only [List.cons_append, List.append_assoc, List.nil_append, readMembers, readText_quoted,
    skipGap_cons (show isGap ':' = false by decide), hpart.skipGap_space,
    hpart.reads steps rest hrest (by omega), hafter]

theorem readMembers_next (h : ReadsAsMember text m) (hsteps : text.length ≤ steps)
    (hrest : EndsNumber rest) (hafter : skipGap rest = ',' :: after) {members : Members}
    {last : List Char} (hothers : readMembers steps (skipGap after) = .ok (members, last)) :
    readMembers (steps + 1) (text ++ rest) = .ok (m :: members, last) := by
  obtain ⟨key, v⟩ := m
  obtain ⟨name, part, hkey, hpart, htext⟩ := h
  obtain rfl : key = .str name := hkey
  simp only [htext, List.length_append, List.length_cons] at hsteps
  rw [htext, toList_quoted]
  simp only [List.cons_append, List.append_assoc, List.nil_append, readMembers, readText_quoted,
    skipGap_cons (show isGap ':' = false by decide), hpart.skipGap_space,
    hpart.reads steps rest hrest (by omega), hafter, hothers]

end Member

theorem readMembers_intercalate (hgap : IsGapText gap) (hclosing : IsGapText closing)
    {members : Members} (h : List.Forall₂ ReadsAsMember parts members) (hne : parts ≠ []) :
    ∀ steps rest, ((',' :: gap).intercalate parts).length < steps →
      readMembers steps ((',' :: gap).intercalate parts ++ (closing ++ '\x7d' :: rest)) =
        .ok (members, rest) := by
  induction h with
  | nil => exact absurd rfl hne
  | @cons part m parts members hpart hparts ih =>
      intro steps rest hsteps
      obtain ⟨steps, rfl⟩ := exists_eq_succ hsteps
      cases hparts with
      | nil =>
          rw [intercalate_singleton] at hsteps ⊢
          exact readMembers_last hpart (by omega)
            (endsNumber_gap hclosing (endsNumber_cons (by decide) rest))
            (skipGap_closing hclosing (by decide) rest)
      | @cons next w parts members hnext hparts =>
          obtain ⟨more, hmore⟩ := exists_intercalate_cons (',' :: gap) next parts
          obtain ⟨tail, htail⟩ := hnext.exists_eq_cons
          have hrest := ih (List.cons_ne_nil _ _) steps rest
          rw [intercalate_cons_cons] at hsteps ⊢
          simp only [List.length_append, List.length_cons] at hsteps
          have hskip : skipGap (gap ++ ((',' :: gap).intercalate (next :: parts) ++
              (closing ++ '\x7d' :: rest))) =
              (',' :: gap).intercalate (next :: parts) ++ (closing ++ '\x7d' :: rest) := by
            rw [skipGap_append hgap, hmore, htail, List.cons_append, List.cons_append,
              skipGap_cons (by decide)]
          simp only [List.append_assoc, List.cons_append]
          refine readMembers_next hpart (by omega) (endsNumber_cons (by decide) _)
            (skipGap_cons (by decide) _) ?_
          rw [hskip, hrest (by omega)]

section Values

variable {steps : ℕ} {inner rest : List Char}

theorem readValue_elements {elements : List Value} {c : Char} {tail : List Char}
    (hinner : skipGap inner = c :: tail) (hc : c ≠ ']')
    (h : readElements steps (c :: tail) = .ok (elements, rest)) :
    readValue (steps + 1) ('[' :: inner) = .ok (.arr elements, rest) := by
  rw [readValue, hinner]
  split
  · rename_i heq
    exact absurd (List.cons.inj heq).1 hc
  · rw [h]

theorem readValue_members {members : Members} {c : Char} {tail : List Char}
    (hinner : skipGap inner = c :: tail) (hc : c ≠ '\x7d')
    (h : readMembers steps (c :: tail) = .ok (members, rest)) :
    readValue (steps + 1) ('\x7b' :: inner) = .ok (.obj (joinMembers members), rest) := by
  rw [readValue, hinner]
  split
  · rename_i heq
    exact absurd (List.cons.inj heq).1 hc
  · rw [h]

end Values

variable {indent : Option Int} {depth : ℕ}

theorem bracket_cons (opening closing : Char) (part : List Char) (parts : List (List Char)) :
    bracket indent depth opening closing (part :: parts) =
      opening :: (lineStart indent (depth + 1) ++
        ((separator indent (depth + 1)).intercalate (part :: parts) ++
          (lineStart indent depth ++ [closing]))) := by
  simp [bracket]

theorem readsAs_array {elements : List Value} (h : List.Forall₂ ReadsAs parts elements) :
    ReadsAs (bracket indent depth '[' ']' parts) (.arr elements) := by
  obtain ⟨gap, hseparator, hgap⟩ := exists_separator_eq indent (depth + 1)
  cases h with
  | nil =>
      refine ⟨⟨'[', [']'], rfl, by decide, by decide, by decide⟩, ?_⟩
      intro steps rest hrest hsteps
      obtain ⟨steps, rfl⟩ := exists_eq_succ hsteps
      rfl
  | @cons part v parts elements hpart hparts =>
      rw [bracket_cons, hseparator]
      refine ⟨⟨'[', _, rfl, by decide, by decide, by decide⟩, ?_⟩
      intro steps rest hrest hsteps
      obtain ⟨steps, rfl⟩ := exists_eq_succ hsteps
      obtain ⟨more, hmore⟩ := exists_intercalate_cons (',' :: gap) part parts
      obtain ⟨c, tail, hstart, hc, hbracket, -⟩ := hpart.start
      have hread := readElements_intercalate hgap (isGapText_lineStart indent depth)
        (.cons hpart hparts) (List.cons_ne_nil _ _) steps rest
        (by simp only [List.length_append, List.length_cons] at hsteps; omega)
      simp only [List.cons_append, List.append_assoc, List.nil_append]
      rw [hmore, hstart, List.cons_append, List.cons_append] at hread ⊢
      refine readValue_elements ?_ hbracket hread
      rw [skipGap_append (isGapText_lineStart indent (depth + 1)), skipGap_cons hc]

theorem readsAs_object {members : Members} (keys : HasTextKeys members)
    (h : List.Forall₂ ReadsAsMember parts members) :
    ReadsAs (bracket indent depth '\x7b' '\x7d' parts) (.obj members) := by
  obtain ⟨gap, hseparator, hgap⟩ := exists_separator_eq indent (depth + 1)
  have hjoin : joinMembers members = members := foldl_putMember_eq_append [] keys
  cases h with
  | nil =>
      refine ⟨⟨'\x7b', ['\x7d'], rfl, by decide, by decide, by decide⟩, ?_⟩
      intro steps rest hrest hsteps
      obtain ⟨steps, rfl⟩ := exists_eq_succ hsteps
      rfl
  | @cons part m parts members hpart hparts =>
      rw [bracket_cons, hseparator]
      refine ⟨⟨'\x7b', _, rfl, by decide, by decide, by decide⟩, ?_⟩
      intro steps rest hrest hsteps
      obtain ⟨steps, rfl⟩ := exists_eq_succ hsteps
      obtain ⟨more, hmore⟩ := exists_intercalate_cons (',' :: gap) part parts
      obtain ⟨tail, hstart⟩ := hpart.exists_eq_cons
      have hread := readMembers_intercalate hgap (isGapText_lineStart indent depth)
        (.cons hpart hparts) (List.cons_ne_nil _ _) steps rest
        (by simp only [List.length_append, List.length_cons] at hsteps; omega)
      simp only [List.cons_append, List.append_assoc, List.nil_append]
      rw [hmore, hstart, List.cons_append, List.cons_append] at hread ⊢
      rw [readValue_members ?_ (by decide) hread, hjoin]
      rw [skipGap_append (isGapText_lineStart indent (depth + 1)), skipGap_cons (by decide)]

end Brackets

/-! ## Printing -/

section Printing

variable {indent : Option Int} {depth : ℕ}

theorem exists_printElements? {elements : List Value}
    (each : ∀ v ∈ elements, ∃ text, print? indent depth v = some text ∧ ReadsAs text v) :
    ∃ parts, printElements? indent depth elements = some parts ∧
      List.Forall₂ ReadsAs parts elements := by
  induction elements with
  | nil => exact ⟨[], rfl, .nil⟩
  | cons v rest ih =>
      obtain ⟨⟨text, htext, hreads⟩, hrest⟩ := List.forall_mem_cons.mp each
      obtain ⟨parts, hparts, hall⟩ := ih hrest
      refine ⟨text :: parts, ?_, .cons hreads hall⟩
      rw [printElements?, htext, hparts]

theorem exists_printMembers? {members : Members} (keys : HasTextKeys members)
    (each : ∀ m ∈ members, ∃ text, print? indent depth m.2 = some text ∧ ReadsAs text m.2) :
    ∃ parts, printMembers? indent depth members = some parts ∧
      List.Forall₂ ReadsAsMember parts members := by
  induction members with
  | nil => exact ⟨[], rfl, .nil⟩
  | cons m rest ih =>
      obtain ⟨⟨name, hname⟩, -, hkeys⟩ := hasTextKeys_cons_iff.mp keys
      obtain ⟨⟨text, htext, hreads⟩, hrest⟩ := List.forall_mem_cons.mp each
      obtain ⟨parts, hparts, hall⟩ := ih hkeys hrest
      obtain ⟨key, v⟩ := m
      obtain rfl : key = .str name := hname
      refine ⟨((Text.quoted name).toList ++ ':' :: ' ' :: text) :: parts, ?_,
        .cons ⟨name, text, rfl, hreads, rfl⟩ hall⟩
      rw [printMembers?, keyText?, htext, hparts]

/-- A value without fractions has a text in each layout, and is read from it. -/
theorem exists_print? {v : Value} (hv : v.IsWhole) (indent : Option Int) :
    ∀ depth, ∃ text, print? indent depth v = some text ∧ ReadsAs text v := by
  induction hv with
  | @scalar s hs =>
      intro depth
      cases s with
      | null => exact ⟨_, rfl, readsAs_null⟩
      | bool b => exact ⟨_, rfl, readsAs_bool b⟩
      | int i => exact ⟨_, rfl, readsAs_int i⟩
      | str text => exact ⟨_, rfl, readsAs_str text⟩
      | float x => exact hs.elim
      | bytes octets => exact hs.elim
      | date day => exact hs.elim
      | time t => exact hs.elim
  | arr _ ih =>
      intro depth
      obtain ⟨parts, hparts, hreads⟩ := exists_printElements? fun v hv => ih v hv (depth + 1)
      refine ⟨bracket indent depth '[' ']' parts, ?_, readsAs_array hreads⟩
      rw [print?, hparts, Option.map_some]
  | obj keys _ ih =>
      intro depth
      obtain ⟨parts, hparts, hreads⟩ := exists_printMembers? keys fun m hm => ih m hm (depth + 1)
      refine ⟨bracket indent depth '\x7b' '\x7d' parts, ?_, readsAs_object keys hreads⟩
      rw [print?, hparts, Option.map_some]

end Printing

theorem parseChars_of_readsAs {text : List Char} {v : Value} (h : ReadsAs text v) :
    parseChars text = .ok v := by
  have hread := h.reads (2 * text.length + 2) [] endsNumber_nil (by omega)
  have hskip := h.skipGap_eq []
  rw [List.append_nil] at hread hskip
  rw [parseChars, readWholeText, hskip, hread]
  rfl

theorem parse_ofList_of_readsAs {text : List Char} {v : Value} (h : ReadsAs text v) :
    parse (String.ofList text) = .ok v := by
  obtain ⟨c, tail, heq, -, -, hmark⟩ := h.start
  unfold parse
  rw [String.toList_ofList]
  split
  · exact absurd (List.cons.inj heq).1.symm hmark
  · exact parseChars_of_readsAs h

theorem exists_render? {v : Value} (hv : v.IsWhole) (indent : Option Int) :
    ∃ out, render? indent v = some out ∧ parse out = .ok v := by
  obtain ⟨text, htext, hreads⟩ := exists_print? hv indent 0
  refine ⟨String.ofList text, ?_, parse_ofList_of_readsAs hreads⟩
  rw [render?, htext, Option.map_some]

end Json

end StructuralSchema
