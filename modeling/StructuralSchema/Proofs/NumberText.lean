import StructuralSchema.Number.Layout
import StructuralSchema.Number.Numeral
import StructuralSchema.Proofs.JsonText
import StructuralSchema.Proofs.Rounding
import StructuralSchema.Proofs.UriParts
import StructuralSchema.Value.Describe

/-!
# The text of a number

A number is laid out as a numeral, whose value is the shortest decimal that rounds to the number.
So different numbers have different texts, and none of them is the text of an integer.
-/

namespace StructuralSchema

namespace Text

theorem decimalValue_append (front back : List Char) :
    decimalValue (front ++ back) = decimalValue front * 10 ^ back.length + decimalValue back := by
  simp only [decimalValue, ← Nat.ofDigitChars_eq_foldl, Nat.ofDigitChars_append]
  rw [Nat.ofDigitChars_eq_ofDigitChars_zero, mul_comm]

theorem decimalValue_replicate_zero (n : ℕ) : decimalValue (List.replicate n '0') = 0 := by
  simp only [decimalValue, ← Nat.ofDigitChars_eq_foldl, Nat.ofDigitChars_replicate_zero, mul_zero]

theorem startsAt_cons (c : Char) (rest : List Char) : StartsAt (· = c) (c :: rest) := by
  rintro d tail heq
  rw [(List.cons.inj heq).1]
  exact decide_eq_true rfl

end Text

namespace Binary64

open Text

def IsDigits (text : List Char) : Prop :=
  ∀ c ∈ text, c.isDigit = true

theorem isDigits_append {front back : List Char} (hfront : IsDigits front) (hback : IsDigits back) :
    IsDigits (front ++ back) := by
  intro c hc
  rcases List.mem_append.mp hc with hc | hc
  · exact hfront c hc
  · exact hback c hc

theorem isDigits_replicate_zero (n : ℕ) : IsDigits (List.replicate n '0') := by
  intro c hc
  obtain rfl := List.eq_of_mem_replicate hc
  rfl

theorem isDigits_toDigits (n : ℕ) : IsDigits (Nat.toDigits 10 n) :=
  fun _ hc => Json.isDigit_of_mem_toDigits hc

/-! ## Numerals -/

def writtenPower (text : List Char) : ℤ :=
  signed (Numeral.takeSign text).1 (decimalValue (Numeral.takeSign text).2)

/-- The text is an unsigned numeral with this value: digits, with more of them behind a point, with
an exponent, or with both. -/
inductive WritesNumber : List Char → ℚ → Prop
  | point {whole fraction : List Char} (hne : whole ≠ []) (hwhole : IsDigits whole)
      (hfraction : IsDigits fraction) :
      WritesNumber (whole ++ '.' :: fraction)
        (decimalValue (whole ++ fraction) * 10 ^ (-(fraction.length : ℤ)))
  | power {whole sign power : List Char} (hne : whole ≠ []) (hwhole : IsDigits whole)
      (hsign : sign ∈ [[], ['-'], ['+']]) (hpower : IsDigits power) :
      WritesNumber (whole ++ 'e' :: (sign ++ power))
        (decimalValue whole * 10 ^ writtenPower (sign ++ power))
  | both {whole fraction sign power : List Char} (hne : whole ≠ []) (hwhole : IsDigits whole)
      (hfraction : IsDigits fraction) (hsign : sign ∈ [[], ['-'], ['+']])
      (hpower : IsDigits power) :
      WritesNumber (whole ++ '.' :: (fraction ++ 'e' :: (sign ++ power)))
        (decimalValue (whole ++ fraction) *
          10 ^ (writtenPower (sign ++ power) - (fraction.length : ℤ)))

def writtenValue (text : List Char) : ℚ :=
  let (mantissa, exponent) := cutAt (· = 'e') text
  let (whole, point) := cutAt (· = '.') mantissa
  let fraction := point.drop 1
  decimalValue (whole ++ fraction) * 10 ^ (writtenPower (exponent.drop 1) - (fraction.length : ℤ))

section Numerals

variable {text digits : List Char} {value : ℚ}

theorem IsDigits.ne (h : IsDigits digits) {d : Char} (hd : d.isDigit = false) :
    ∀ c ∈ digits, decide (c = d) = false := by
  intro c hc
  rw [decide_eq_false_iff_not]
  rintro rfl
  rw [h c hc] at hd
  cases hd

theorem cutAt_digits (h : IsDigits digits) {c : Char} (hc : c.isDigit = false)
    (rest : List Char) : cutAt (· = c) (digits ++ c :: rest) = (digits, c :: rest) :=
  cutAt_append (h.ne hc) (startsAt_cons c rest)

theorem cutAt_eq_self {stop : Char → Bool} (h : ∀ c ∈ text, stop c = false) :
    cutAt stop text = (text, []) := by
  have hcut := @cutAt_append stop text [] h (by rintro c rest ⟨⟩)
  rwa [List.append_nil] at hcut

theorem writtenPower_nil : writtenPower [] = 0 :=
  rfl

theorem WritesNumber.writtenValue_eq (h : WritesNumber text value) : writtenValue text = value := by
  have he : Char.isDigit 'e' = false := by decide
  have hdot : Char.isDigit '.' = false := by decide
  have hmantissa : ∀ {whole fraction}, IsDigits whole → IsDigits fraction →
      ∀ c ∈ whole ++ '.' :: fraction, decide (c = 'e') = false := by
    intro whole fraction hwhole hfraction c hc
    rcases List.mem_append.mp hc with hc | hc
    · exact hwhole.ne he c hc
    · rcases List.mem_cons.mp hc with rfl | hc
      · decide
      · exact hfraction.ne he c hc
  cases h with
  | @point whole fraction hne hwhole hfraction =>
      simp only [writtenValue, cutAt_eq_self (hmantissa hwhole hfraction),
        cutAt_digits hwhole hdot, List.drop_succ_cons, List.drop_zero, List.drop_nil,
        writtenPower_nil, zero_sub]
  | @power whole sign power hne hwhole hsign hpower =>
      simp only [writtenValue, cutAt_digits hwhole he, cutAt_eq_self (hwhole.ne hdot),
        List.drop_succ_cons, List.drop_zero, List.drop_nil, List.append_nil, List.length_nil,
        Nat.cast_zero, sub_zero]
  | @both whole fraction sign power hne hwhole hfraction hsign hpower =>
      have hcut := cutAt_append (hmantissa hwhole hfraction) (startsAt_cons 'e' (sign ++ power))
      rw [List.append_assoc, List.cons_append] at hcut
      simp only [writtenValue, hcut, cutAt_digits hwhole hdot, List.drop_succ_cons, List.drop_zero]

/-- A numeral has one value. -/
theorem WritesNumber.unique {other : ℚ} (h : WritesNumber text value)
    (hother : WritesNumber text other) : value = other :=
  h.writtenValue_eq.symm.trans hother.writtenValue_eq

theorem WritesNumber.of_eq {other : ℚ} (h : WritesNumber text value) (heq : value = other) :
    WritesNumber text other :=
  heq ▸ h

theorem WritesNumber.exists_digit (h : WritesNumber text value) :
    ∃ c rest, text = c :: rest ∧ c.isDigit = true := by
  have hfirst : ∀ {whole rest : List Char}, whole ≠ [] → IsDigits whole →
      ∃ c more, whole ++ rest = c :: more ∧ c.isDigit = true := by
    intro whole rest hne hwhole
    obtain ⟨c, more, rfl⟩ := List.exists_cons_of_ne_nil hne
    exact ⟨c, more ++ rest, rfl, hwhole c List.mem_cons_self⟩
  cases h with
  | point hne hwhole => exact hfirst hne hwhole
  | power hne hwhole => exact hfirst hne hwhole
  | both hne hwhole => exact hfirst hne hwhole

theorem WritesNumber.mem_or_mem (h : WritesNumber text value) : '.' ∈ text ∨ 'e' ∈ text := by
  cases h <;> simp

theorem WritesNumber.notMem (h : WritesNumber text value) {c : Char} (hc : c.isDigit = false)
    (hmark : c ∉ ['.', 'e', '-', '+']) : c ∉ text := by
  have hnot : ∀ {digits : List Char}, IsDigits digits → c ∉ digits :=
    fun hdigits hmem => absurd rfl (of_decide_eq_false (hdigits.ne hc c hmem))
  have hsign : ∀ {sign : List Char}, sign ∈ [[], ['-'], ['+']] → c ∉ sign := by
    intro sign h
    simp only [List.mem_cons, List.not_mem_nil, or_false, not_or] at h hmark
    rcases h with rfl | rfl | rfl <;> simp [hmark]
  simp only [List.mem_cons, List.not_mem_nil, or_false, not_or] at hmark
  cases h with
  | point hne hwhole hfraction => simp [hnot hwhole, hnot hfraction, hmark]
  | power hne hwhole hs hpower => simp [hnot hwhole, hnot hpower, hsign hs, hmark]
  | both hne hwhole hfraction hs hpower =>
      simp [hnot hwhole, hnot hfraction, hnot hpower, hsign hs, hmark]

end Numerals

/-! ## Layouts -/

section Layouts

variable {digits : List Char} {point : ℤ}

theorem decimalValue_zeros_append (n : ℕ) (digits : List Char) :
    decimalValue (List.replicate n '0' ++ digits) = decimalValue digits := by
  rw [decimalValue_append, decimalValue_replicate_zero, zero_mul, zero_add]

theorem decimalValue_append_zeros (digits : List Char) (n : ℕ) :
    decimalValue (digits ++ List.replicate n '0') = decimalValue digits * 10 ^ n := by
  rw [decimalValue_append, decimalValue_replicate_zero, add_zero, List.length_replicate]

theorem writesNumber_positional (hne : digits ≠ []) (hdigits : IsDigits digits) :
    WritesNumber (positional digits point)
      (decimalValue digits * 10 ^ (point - (digits.length : ℤ))) := by
  unfold positional
  dsimp only
  split_ifs with hpoint hlength
  · -- All digits stand behind the point.
    have h := @WritesNumber.point ['0'] _ (by simp) (isDigits_replicate_zero 1)
      (isDigits_append (isDigits_replicate_zero (-point).toNat) hdigits)
    refine h.of_eq ?_
    have hvalue : decimalValue (['0'] ++ (List.replicate (-point).toNat '0' ++ digits)) =
        decimalValue digits :=
      (decimalValue_zeros_append 1 _).trans (decimalValue_zeros_append _ digits)
    have hpower : -((List.replicate (-point).toNat '0' ++ digits).length : ℤ) =
        point - digits.length := by
      rw [List.length_append, List.length_replicate]
      omega
    rw [hvalue, hpower]
  · -- Zeros fill the place up to the point.
    have hzeros := isDigits_replicate_zero (point.toNat - digits.length)
    have h := @WritesNumber.point (digits ++ List.replicate (point.toNat - digits.length) '0') ['0']
      (by simp [hne]) (isDigits_append hdigits hzeros) (isDigits_replicate_zero 1)
    refine h.of_eq ?_
    have hvalue :
        decimalValue (digits ++ List.replicate (point.toNat - digits.length) '0' ++ ['0']) =
          decimalValue digits * 10 ^ (point.toNat - digits.length) * 10 := by
      rw [decimalValue_append, decimalValue_append_zeros]
      rfl
    have hpower : point - digits.length = ((point.toNat - digits.length : ℕ) : ℤ) := by omega
    rw [hvalue, hpower, zpow_natCast]
    push_cast
    simp
  · -- The point stands among the digits.
    have hwhole : IsDigits (digits.take point.toNat) :=
      fun c hc => hdigits c (List.mem_of_mem_take hc)
    have hfraction : IsDigits (digits.drop point.toNat) :=
      fun c hc => hdigits c (List.mem_of_mem_drop hc)
    have hfirst : digits.take point.toNat ≠ [] := by
      rw [ne_eq, List.take_eq_nil_iff]
      rintro (h | h)
      · omega
      · exact hne h
    refine (WritesNumber.point hfirst hwhole hfraction).of_eq ?_
    have hpower : -((digits.drop point.toNat).length : ℤ) = point - digits.length := by
      rw [List.length_drop]
      omega
    rw [List.take_append_drop, hpower]

theorem takeSign_of_isDigits (hdigits : IsDigits digits) :
    Numeral.takeSign digits = (false, digits) := by
  unfold Numeral.takeSign
  split
  · exact absurd (hdigits '-' List.mem_cons_self) (by decide)
  · exact absurd (hdigits '+' List.mem_cons_self) (by decide)
  · rfl

theorem isDigits_paddedNat (width n : ℕ) : IsDigits (paddedNat width n) :=
  isDigits_append (isDigits_replicate_zero _) (isDigits_toDigits n)

theorem decimalValue_paddedNat (width n : ℕ) : decimalValue (paddedNat width n) = n := by
  rw [paddedNat, decimalValue_zeros_append, Pointer.decimalValue_toDigits]

theorem exists_append_zeros (digits : List Char) :
    ∃ n, digits = (digits.reverse.dropWhile (· = '0')).reverse ++ List.replicate n '0' := by
  have hzeros : ∀ c ∈ digits.reverse.takeWhile (· = '0'), c = '0' := by
    intro c hc
    simpa using List.all_eq_true.mp List.all_takeWhile c hc
  refine ⟨(digits.reverse.takeWhile (· = '0')).length, ?_⟩
  rw [← List.reverse_replicate, ← List.eq_replicate_of_mem hzeros, ← List.reverse_append,
    List.takeWhile_append_dropWhile, List.reverse_reverse]

/-- Without the zeros at their end, and with the point in its place, the digits of a decimal still
write its value. -/
theorem digits_spec {d : Decimal} (h : 0 < d.value) :
    d.digits.1 ≠ [] ∧ IsDigits d.digits.1 ∧
      (decimalValue d.digits.1 : ℚ) * 10 ^ (d.digits.2 - (d.digits.1.length : ℤ)) = d.value := by
  obtain ⟨n, hall⟩ := exists_append_zeros (Nat.toDigits 10 d.coefficient)
  have hdigits : d.digits.1 =
      ((Nat.toDigits 10 d.coefficient).reverse.dropWhile (· = '0')).reverse := rfl
  have hpoint : d.digits.2 = (Nat.toDigits 10 d.coefficient).length + d.power := rfl
  rw [← hdigits] at hall
  have hcoefficient : d.coefficient = decimalValue d.digits.1 * 10 ^ n := by
    rw [← decimalValue_append_zeros, ← hall, Pointer.decimalValue_toDigits]
  have hlength : d.digits.2 - (d.digits.1.length : ℤ) = (n : ℤ) + d.power := by
    rw [hpoint, hall, List.length_append, List.length_replicate]
    omega
  refine ⟨?_, ?_, ?_⟩
  · intro hnil
    rw [Decimal.value, hcoefficient, hnil] at h
    simp [decimalValue] at h
  · intro c hc
    apply isDigits_toDigits d.coefficient c
    rw [hall]
    exact List.mem_append_left _ hc
  · rw [hlength, zpow_add₀ (by norm_num), zpow_natCast, Decimal.value, hcoefficient]
    push_cast
    ring

theorem writesNumber_zero (layout : Layout) : WritesNumber (layMagnitude layout 0) 0 := by
  have h := @WritesNumber.point ['0'] ['0'] (by simp) (isDigits_replicate_zero 1)
    (isDigits_replicate_zero 1)
  exact h.of_eq (by simp [decimalValue])

variable {layout : Layout} (hplus : layout.plus = [] ∨ layout.plus = ['+'])

include hplus

theorem writtenPower_paddedNat (power : ℤ) :
    writtenPower ((if power < 0 then ['-'] else layout.plus) ++
      paddedNat layout.exponentWidth power.natAbs) = power := by
  have hdigits := isDigits_paddedNat layout.exponentWidth power.natAbs
  have hvalue := decimalValue_paddedNat layout.exponentWidth power.natAbs
  split_ifs with hneg
  · simp only [writtenPower, List.singleton_append, Numeral.takeSign, hvalue, signed, if_true]
    omega
  · rcases hplus with hplus | hplus
    · simp only [writtenPower, hplus, List.nil_append, takeSign_of_isDigits hdigits, hvalue, signed,
        Bool.false_eq_true, if_false]
      omega
    · simp only [writtenPower, hplus, List.singleton_append, Numeral.takeSign, hvalue, signed,
        Bool.false_eq_true, if_false]
      omega

theorem writesNumber_scientific (hne : digits ≠ []) (hdigits : IsDigits digits) :
    WritesNumber (scientific layout digits point)
      (decimalValue digits * 10 ^ (point - (digits.length : ℤ))) := by
  have hpower := isDigits_paddedNat layout.exponentWidth (point - 1).natAbs
  have hwritten := writtenPower_paddedNat hplus (point - 1)
  have hsign : (if point - 1 < 0 then ['-'] else layout.plus) ∈ [[], ['-'], ['+']] := by
    split_ifs
    · simp
    · rcases hplus with h | h <;> simp [h]
  unfold scientific
  dsimp only
  match digits, hne with
  | [d], hne =>
      have h := WritesNumber.power hne hdigits hsign hpower
      rw [hwritten] at h
      simpa using h
  | first :: second :: rest, _ =>
      have hwhole : IsDigits [first] := by simpa [IsDigits] using hdigits first List.mem_cons_self
      have hfraction : IsDigits (second :: rest) :=
        fun c hc => hdigits c (List.mem_cons_of_mem _ hc)
      have h := WritesNumber.both (by simp) hwhole hfraction hsign hpower
      rw [hwritten] at h
      have hplace : point - 1 - ((second :: rest).length : ℤ) =
          point - ((first :: second :: rest).length : ℤ) := by
        simp only [List.length_cons]
        omega
      rw [hplace] at h
      simpa using h

theorem writesNumber_layMagnitude {rank : ℕ} (h : 0 < rank) :
    WritesNumber (layMagnitude layout rank) (shortest rank).value := by
  obtain ⟨hne, hdigits, hvalue⟩ := digits_spec ((roundsTo_shortest h).pos h)
  rw [layMagnitude, if_neg (by omega), ← hvalue]
  dsimp only
  split_ifs
  · exact writesNumber_positional hne hdigits
  · exact writesNumber_scientific hplus hne hdigits

theorem exists_writesNumber (rank : ℕ) : ∃ value, WritesNumber (layMagnitude layout rank) value := by
  rcases Nat.eq_zero_or_pos rank with rfl | h
  · exact ⟨0, writesNumber_zero layout⟩
  · exact ⟨_, writesNumber_layMagnitude hplus h⟩

theorem layMagnitude_ne_zero {rank : ℕ} (h : 0 < rank) :
    layMagnitude layout rank ≠ layMagnitude layout 0 := by
  intro heq
  have hwrites := writesNumber_layMagnitude hplus h
  rw [heq] at hwrites
  have hpos := (roundsTo_shortest h).pos h
  rw [hwrites.unique (writesNumber_zero layout)] at hpos
  exact absurd hpos (lt_irrefl 0)

/-- Different magnitudes have different texts, since their texts write numbers that round to
them. -/
theorem layMagnitude_injective : Function.Injective (layMagnitude layout) := by
  intro r s heq
  rcases Nat.eq_zero_or_pos r with rfl | hr
  · rcases Nat.eq_zero_or_pos s with rfl | hs
    · rfl
    · exact absurd heq.symm (layMagnitude_ne_zero hplus hs)
  · rcases Nat.eq_zero_or_pos s with rfl | hs
    · exact absurd heq (layMagnitude_ne_zero hplus hr)
    · have hwrites := writesNumber_layMagnitude hplus hr
      rw [heq] at hwrites
      have hround := roundsTo_shortest hr
      rw [hwrites.unique (writesNumber_layMagnitude hplus hs)] at hround
      exact hround.unique (roundsTo_shortest hs)

end Layouts

/-! ## Described numbers -/

def unsignedText : Binary64 → List Char
  | .nan => ['n', 'a', 'n']
  | .infinite _ => ['i', 'n', 'f']
  | .finite _ rank => layMagnitude describedLayout rank

def isNegative : Binary64 → Bool
  | .nan => false
  | .infinite negative => negative
  | .finite negative _ => negative

theorem toList_lay (x : Binary64) :
    (x.lay describedLayout).toList = laySign x.isNegative x.unsignedText := by
  cases x with
  | nan => rfl
  | infinite negative => exact String.toList_ofList
  | finite negative rank => exact String.toList_ofList

theorem layMagnitude_ne_cons {c : Char} (hc : c.isDigit = false) (rank : ℕ) (rest : List Char) :
    layMagnitude describedLayout rank ≠ c :: rest := by
  intro heq
  obtain ⟨value, hwrites⟩ := @exists_writesNumber describedLayout (.inl rfl) rank
  obtain ⟨d, more, htext, hd⟩ := hwrites.exists_digit
  rw [heq] at htext
  rw [(List.cons.inj htext).1, hd] at hc
  cases hc

theorem unsignedText_ne_cons (x : Binary64) (rest : List Char) : x.unsignedText ≠ '-' :: rest := by
  cases x with
  | nan => simp [unsignedText]
  | infinite negative => simp [unsignedText]
  | finite negative rank => exact layMagnitude_ne_cons (by decide) rank rest

theorem laySign_eq_laySign {x y : Binary64}
    (h : laySign x.isNegative x.unsignedText = laySign y.isNegative y.unsignedText) :
    x.isNegative = y.isNegative ∧ x.unsignedText = y.unsignedText := by
  unfold laySign at h
  split_ifs at h with hx hy hy
  · exact ⟨hx.trans hy.symm, (List.cons.inj h).2⟩
  · exact absurd h.symm (unsignedText_ne_cons y _)
  · exact absurd h (unsignedText_ne_cons x _)
  · exact ⟨(Bool.eq_false_of_not_eq_true hx).trans (Bool.eq_false_of_not_eq_true hy).symm, h⟩

/-- Different numbers have different texts. -/
theorem lay_injective : Function.Injective (lay describedLayout) := by
  intro x y heq
  obtain ⟨hsign, htext⟩ := laySign_eq_laySign (x := x) (y := y) (by
    rw [← toList_lay, ← toList_lay, heq])
  cases x with
  | nan =>
      cases y with
      | nan => rfl
      | infinite negative => cases htext
      | finite negative rank => exact absurd htext.symm (layMagnitude_ne_cons (by decide) rank _)
  | infinite negative =>
      cases y with
      | nan => cases htext
      | infinite other => exact congrArg Binary64.infinite hsign
      | finite other rank => exact absurd htext.symm (layMagnitude_ne_cons (by decide) rank _)
  | finite negative rank =>
      cases y with
      | nan => exact absurd htext (layMagnitude_ne_cons (by decide) rank _)
      | infinite other => exact absurd htext (layMagnitude_ne_cons (by decide) rank _)
      | finite other rank' =>
          have hrank : rank = rank' := Fin.ext (layMagnitude_injective (.inl rfl) htext)
          rw [show negative = other from hsign, hrank]

theorem notMem_lay (x : Binary64) : ')' ∉ (x.lay describedLayout).toList := by
  have htext : ')' ∉ x.unsignedText := by
    cases x with
    | nan => simp [unsignedText]
    | infinite negative => simp [unsignedText]
    | finite negative rank =>
        obtain ⟨value, hwrites⟩ := @exists_writesNumber describedLayout (.inl rfl) rank
        exact hwrites.notMem (by decide) (by decide)
  rw [toList_lay, laySign]
  split_ifs
  · simpa using htext
  · exact htext

theorem exists_mem_lay (x : Binary64) :
    ∃ c ∈ ['.', 'e', 'n'], c ∈ (x.lay describedLayout).toList := by
  have htext : ∃ c ∈ ['.', 'e', 'n'], c ∈ x.unsignedText := by
    cases x with
    | nan => exact ⟨'n', by simp, by simp [unsignedText]⟩
    | infinite negative => exact ⟨'n', by simp, by simp [unsignedText]⟩
    | finite negative rank =>
        obtain ⟨value, hwrites⟩ := @exists_writesNumber describedLayout (.inl rfl) rank
        rcases hwrites.mem_or_mem with h | h
        · exact ⟨'.', by simp, h⟩
        · exact ⟨'e', by simp, h⟩
  obtain ⟨c, hc, hmem⟩ := htext
  refine ⟨c, hc, ?_⟩
  rw [toList_lay, laySign]
  split_ifs
  · exact List.mem_cons_of_mem _ hmem
  · exact hmem

end Binary64

end StructuralSchema
