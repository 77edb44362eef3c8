import Mathlib.Data.List.Basic
import Mathlib.Tactic.IntervalCases
import Mathlib.Tactic.SplitIfs
import StructuralSchema.Text.Utf8

/-!
# Octets of characters

Characters are read back from the octets they are written as. What a first octet announces
is just what the octets of a character with its leading bits are: the shortest form, and no
surrogate.
-/

namespace StructuralSchema.Text.Utf8

variable {rest : List UInt8}

theorem readTail_cons {bits taken following x : ℕ} {least greatest : UInt8} (hx : x < 64)
    (hleast : least.toNat ≤ x + 128) (hgreatest : x + 128 ≤ greatest.toNat) :
    readTail bits taken (following + 1) least greatest (UInt8.ofNat (x + 128) :: rest) =
      readTail (bits * 64 + x) (taken + 1) following 0x80 0xbf rest := by
  have hoctet : (UInt8.ofNat (x + 128)).toNat = x + 128 :=
    UInt8.toNat_ofNat_of_lt' (show x + 128 < 256 by omega)
  have hrange : least ≤ UInt8.ofNat (x + 128) ∧ UInt8.ofNat (x + 128) ≤ greatest := by
    rw [UInt8.le_iff_toNat_le, UInt8.le_iff_toNat_le, hoctet]
    exact ⟨hleast, hgreatest⟩
  rw [readTail, if_pos hrange, hoctet, Nat.add_sub_cancel]

theorem readTail_cons_of_lt {bits taken following x : ℕ} (hx : x < 64) :
    readTail bits taken (following + 1) 0x80 0xbf (UInt8.ofNat (x + 128) :: rest) =
      readTail (bits * 64 + x) (taken + 1) following 0x80 0xbf rest :=
  readTail_cons hx (by simp) (by show x + 128 ≤ 191; omega)

theorem lead?_two {h : ℕ} (hleast : 2 ≤ h) (hlt : h < 32) :
    lead? (UInt8.ofNat (h + 192)) = some ⟨h, 1, 0x80, 0xbf⟩ := by
  interval_cases h <;> rfl

/-- The shortest form has no leading zeros, and surrogates are left out. -/
theorem lead?_three {h : ℕ} (hlt : h < 16) :
    lead? (UInt8.ofNat (h + 224)) =
      some ⟨h, 2, if h = 0 then 0xa0 else 0x80, if h = 13 then 0x9f else 0xbf⟩ := by
  interval_cases h <;> rfl

theorem lead?_four {h : ℕ} (hlt : h < 5) :
    lead? (UInt8.ofNat (h + 240)) =
      some ⟨h, 3, if h = 0 then 0x90 else 0x80, if h = 4 then 0x8f else 0xbf⟩ := by
  interval_cases h <;> rfl

theorem readChar_of_lead? {octet : UInt8} {lead : Lead} (h : lead? octet = some lead) :
    readChar octet rest = readTail lead.bits 1 lead.following lead.least lead.greatest rest := by
  have hlarge : ¬ octet < 0x80 := by
    intro hsmall
    have hnone : octet < 0xc2 := UInt8.lt_trans hsmall (by decide : (0x80 : UInt8) < 0xc2)
    simp [lead?, hnone] at h
  rw [readChar, if_neg hlarge, h]

section Lengths

variable {v : ℕ}

theorem readChar_one (h : v ≤ 127) :
    readChar (UInt8.ofNat v) rest = .character (Char.ofNat v) 1 rest := by
  have hoctet : (UInt8.ofNat v).toNat = v :=
    UInt8.toNat_ofNat_of_lt' (show v < 256 by omega)
  have hsmall : UInt8.ofNat v < 0x80 := by
    rw [UInt8.lt_iff_toNat_lt, hoctet]
    exact Nat.lt_succ_of_le h
  rw [readChar, if_pos hsmall, hoctet]

theorem readChar_two (hleast : 127 < v) (h : v ≤ 2047) :
    readChar (UInt8.ofNat (v / 64 % 32 + 192)) (UInt8.ofNat (v % 64 + 128) :: rest) =
      .character (Char.ofNat v) 2 rest := by
  have hlead := lead?_two (h := v / 64 % 32) (by omega) (by omega)
  have hbits : v / 64 % 32 * 64 + v % 64 = v := by omega
  rw [readChar_of_lead? hlead, readTail_cons_of_lt (by omega), hbits]
  rfl

theorem readChar_three (hleast : 2047 < v) (h : v ≤ 65535)
    (hsurrogate : v < 0xd800 ∨ 0xdfff < v) :
    readChar (UInt8.ofNat (v / 4096 % 16 + 224))
        (UInt8.ofNat (v / 64 % 64 + 128) :: UInt8.ofNat (v % 64 + 128) :: rest) =
      .character (Char.ofNat v) 3 rest := by
  have hlead := lead?_three (h := v / 4096 % 16) (by omega)
  have hfirst : (if v / 4096 % 16 = 0 then 0xa0 else 0x80 : UInt8).toNat ≤ v / 64 % 64 + 128 := by
    rw [apply_ite UInt8.toNat]
    change (if _ then 160 else 128) ≤ _
    split_ifs <;> omega
  have hlast : v / 64 % 64 + 128 ≤ (if v / 4096 % 16 = 13 then 0x9f else 0xbf : UInt8).toNat := by
    rw [apply_ite UInt8.toNat]
    change _ ≤ if _ then 159 else 191
    split_ifs <;> omega
  have hbits : (v / 4096 % 16 * 64 + v / 64 % 64) * 64 + v % 64 = v := by omega
  rw [readChar_of_lead? hlead, readTail_cons (by omega) hfirst hlast,
    readTail_cons_of_lt (by omega), hbits]
  rfl

theorem readChar_four (hleast : 65535 < v) (h : v < 0x110000) :
    readChar (UInt8.ofNat (v / 262144 % 8 + 240))
        (UInt8.ofNat (v / 4096 % 64 + 128) :: UInt8.ofNat (v / 64 % 64 + 128) ::
          UInt8.ofNat (v % 64 + 128) :: rest) =
      .character (Char.ofNat v) 4 rest := by
  have hlead := lead?_four (h := v / 262144 % 8) (by omega)
  have hfirst : (if v / 262144 % 8 = 0 then 0x90 else 0x80 : UInt8).toNat ≤
      v / 4096 % 64 + 128 := by
    rw [apply_ite UInt8.toNat]
    change (if _ then 144 else 128) ≤ _
    split_ifs <;> omega
  have hlast : v / 4096 % 64 + 128 ≤
      (if v / 262144 % 8 = 4 then 0x8f else 0xbf : UInt8).toNat := by
    rw [apply_ite UInt8.toNat]
    change _ ≤ if _ then 143 else 191
    split_ifs <;> omega
  have hbits : ((v / 262144 % 8 * 64 + v / 4096 % 64) * 64 + v / 64 % 64) * 64 + v % 64 = v := by
    omega
  rw [readChar_of_lead? hlead, readTail_cons (by omega) hfirst hlast,
    readTail_cons_of_lt (by omega), readTail_cons_of_lt (by omega), hbits]
  rfl

end Lengths

theorem readChar_utf8EncodeChar (c : Char) (rest : List UInt8) :
    ∃ octet tail, String.utf8EncodeChar c = octet :: tail ∧
      readChar octet (tail ++ rest) = .character c (tail.length + 1) rest := by
  have hvalid : c.toNat < 0xd800 ∨ 0xdfff < c.toNat ∧ c.toNat < 0x110000 := c.valid
  have hback : Char.ofNat c.toNat = c := Char.ofNat_toNat c
  have hencode : String.utf8EncodeChar c =
      if c.toNat ≤ 127 then [UInt8.ofNat c.toNat]
      else if c.toNat ≤ 2047 then
        [UInt8.ofNat (c.toNat / 64 % 32 + 192), UInt8.ofNat (c.toNat % 64 + 128)]
      else if c.toNat ≤ 65535 then
        [UInt8.ofNat (c.toNat / 4096 % 16 + 224), UInt8.ofNat (c.toNat / 64 % 64 + 128),
          UInt8.ofNat (c.toNat % 64 + 128)]
      else
        [UInt8.ofNat (c.toNat / 262144 % 8 + 240), UInt8.ofNat (c.toNat / 4096 % 64 + 128),
          UInt8.ofNat (c.toNat / 64 % 64 + 128), UInt8.ofNat (c.toNat % 64 + 128)] := rfl
  rw [hencode]
  clear hencode
  generalize c.toNat = v at *
  subst hback
  split_ifs with hone htwo hthree
  · exact ⟨_, _, rfl, readChar_one hone⟩
  · exact ⟨_, _, rfl, readChar_two (by omega) htwo⟩
  · exact ⟨_, _, rfl, readChar_three (by omega) hthree (by omega)⟩
  · exact ⟨_, _, rfl, readChar_four (by omega) (by omega)⟩

theorem decodeLossyFrom_encode {text : List Char} {steps : ℕ} (h : text.length ≤ steps) :
    decodeLossyFrom steps (encode text) = text := by
  induction text generalizing steps with
  | nil => simp [encode, decodeLossyFrom]
  | cons c text ih =>
      obtain ⟨octet, tail, hencode, hread⟩ := readChar_utf8EncodeChar c (encode text)
      have hcons : encode (c :: text) = octet :: (tail ++ encode text) := by
        rw [encode, List.flatMap_cons, hencode]
        rfl
      obtain ⟨steps, rfl⟩ : ∃ k, steps = k + 1 := ⟨steps - 1, by simp at h; omega⟩
      have hlength : text.length ≤ steps := by simpa using h
      rw [hcons, decodeLossyFrom, hread]
      simp only [ih hlength]

theorem length_le_length_encode (text : List Char) : text.length ≤ (encode text).length := by
  induction text with
  | nil => exact Nat.le_refl 0
  | cons c text ih =>
      obtain ⟨octet, tail, hencode, -⟩ := readChar_utf8EncodeChar c []
      rw [encode, List.flatMap_cons, hencode]
      change _ ≤ (octet :: tail ++ encode text).length
      simp
      omega

/-- Texts are read back from their octets. -/
theorem decodeLossy_encode (text : List Char) : decodeLossy (encode text) = text :=
  decodeLossyFrom_encode (length_le_length_encode text)

end StructuralSchema.Text.Utf8
