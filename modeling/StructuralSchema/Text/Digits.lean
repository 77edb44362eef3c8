/-!
# Digits

Numbers in text are read from their decimal digits.  Escapes in quoted text, percent
escapes and octets in messages write numbers as a fixed count of lower-case hexadecimal
digits and read them in either case.
-/

namespace StructuralSchema.Text

def decimalValue (digits : List Char) : Nat :=
  digits.foldl (fun n c => 10 * n + (c.toNat - '0'.toNat)) 0

/-- The number as `width` lower-case hexadecimal digits, higher ones dropped. -/
def hexDigits : Nat → Nat → List Char
  | 0, _ => []
  | width + 1, n => hexDigits width (n / 16) ++ [Nat.digitChar (n % 16)]

def hexValue? (c : Char) : Option Nat :=
  if '0' ≤ c ∧ c ≤ '9' then some (c.toNat - '0'.toNat)
  else if 'a' ≤ c ∧ c ≤ 'f' then some (c.toNat - 'a'.toNat + 10)
  else if 'A' ≤ c ∧ c ≤ 'F' then some (c.toNat - 'A'.toNat + 10)
  else none

def readHex? (digits : List Char) : Option Nat :=
  digits.foldlM (fun n c => (hexValue? c).map (16 * n + ·)) 0

@[simp] theorem length_hexDigits (width n : Nat) : (hexDigits width n).length = width := by
  induction width generalizing n with
  | zero => rfl
  | succ width ih => simp [hexDigits, ih]

theorem hexValue?_digitChar {d : Nat} (h : d < 16) : hexValue? (Nat.digitChar d) = some d := by
  have all : ∀ d : Fin 16, hexValue? (Nat.digitChar d) = some d.val := by decide
  exact all ⟨d, h⟩

theorem readHex?_hexDigits {width n : Nat} (h : n < Nat.pow 16 width) :
    readHex? (hexDigits width n) = some n := by
  induction width generalizing n with
  | zero => simp_all [hexDigits, readHex?]
  | succ width ih =>
    have hn : n / 16 < Nat.pow 16 width := by
      rw [Nat.pow_eq, Nat.pow_succ] at h
      rw [Nat.pow_eq]
      omega
    have digit := hexValue?_digitChar (Nat.mod_lt n (by decide : 0 < 16))
    have high := ih hn
    simp only [readHex?] at high
    simp only [hexDigits, readHex?, List.foldlM_append, high, List.foldlM_cons, digit,
      List.foldlM_nil]
    simp [Nat.div_add_mod]

end StructuralSchema.Text
