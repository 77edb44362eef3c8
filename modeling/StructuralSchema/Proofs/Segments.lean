import Mathlib.Tactic.SplitIfs
import StructuralSchema.Proofs.Octets
import StructuralSchema.Proofs.PointerText
import StructuralSchema.Reference.Walk

/-!
# Segments of references

A segment of a reference may be written with any of its characters as percent escapes, as long
as percent signs are. The escapes of a character give its octets, so characters may be mixed with
escapes in any way, and a reference is read as the segments it was written from.
-/

namespace StructuralSchema

namespace Text.Percent

/-! ## Percent escapes -/

def IsDigitOf (n : ℕ) (c : Char) : Prop :=
  c = Nat.digitChar n ∨ c = (Nat.digitChar n).toUpper

/-- The text writes each of the octets as an escape. -/
inductive WritesOctets : List UInt8 → List Char → Prop
  | nil : WritesOctets [] []
  | cons {octet : UInt8} {octets : List UInt8} {high low : Char} {written : List Char}
      (hhigh : IsDigitOf (octet.toNat / 16) high) (hlow : IsDigitOf (octet.toNat % 16) low)
      (h : WritesOctets octets written) :
      WritesOctets (octet :: octets) ('%' :: high :: low :: written)

/-- The text is written with escapes for the octets of some of its characters, at least of the
percent signs. -/
inductive Writes : List Char → List Char → Prop
  | nil : Writes [] []
  | plain {c : Char} {text written : List Char} (hc : c ≠ '%') (h : Writes text written) :
      Writes (c :: text) (c :: written)
  | escaped {c : Char} {text escapes written : List Char}
      (hescapes : WritesOctets (String.utf8EncodeChar c) escapes) (h : Writes text written) :
      Writes (c :: text) (escapes ++ written)

theorem IsDigitOf.hexValue?_eq {n : ℕ} {c : Char} (h : IsDigitOf n c) (hn : n < 16) :
    hexValue? c = some n := by
  rcases h with rfl | rfl
  · exact hexValue?_digitChar hn
  · have hcapital : ∀ d : Fin 16, hexValue? (Nat.digitChar d).toUpper = some d.val := by decide
    exact hcapital ⟨n, hn⟩

theorem octet?_eq_some {octet : UInt8} {high low : Char}
    (hhigh : IsDigitOf (octet.toNat / 16) high) (hlow : IsDigitOf (octet.toNat % 16) low) :
    octet? high low = some octet := by
  have hsize := octet.toNat_lt
  rw [octet?, hhigh.hexValue?_eq (by omega), hlow.hexValue?_eq (by omega)]
  simp only [Nat.div_add_mod, UInt8.ofNat_toNat]

theorem decodeAfter_escapes {octets : List UInt8} {escapes : List Char}
    (h : WritesOctets octets escapes) (pending : List UInt8) (rest : List Char) :
    decodeAfter pending (escapes ++ rest) = decodeAfter (octets.reverse ++ pending) rest := by
  induction h generalizing pending with
  | nil => rfl
  | cons hhigh hlow h ih =>
      rw [List.cons_append, List.cons_append, List.cons_append, decodeAfter,
        octet?_eq_some hhigh hlow]
      simp only [ih, List.reverse_cons, List.append_assoc, List.singleton_append]

theorem decodeAfter_cons_of_ne {c : Char} (h : c ≠ '%') (pending : List UInt8)
    (text : List Char) :
    decodeAfter pending (c :: text) = Utf8.decodeLossy pending.reverse ++ c :: decodeAfter [] text := by
  rw [decodeAfter]
  rintro high low rest rfl
  exact absurd rfl h

/-- A text is read from what it is written as, right behind escapes of other characters. -/
theorem decodeAfter_of_writes {text written : List Char} (h : Writes text written)
    (done : List Char) :
    decodeAfter (Utf8.encode done).reverse written = done ++ text := by
  induction h generalizing done with
  | nil =>
      change Utf8.decodeLossy (Utf8.encode done).reverse.reverse = _
      rw [List.reverse_reverse, Utf8.decodeLossy_encode, List.append_nil]
  | @plain c text written hc h ih =>
      have hrest : decodeAfter [] written = text := ih []
      rw [decodeAfter_cons_of_ne hc, List.reverse_reverse, Utf8.decodeLossy_encode, hrest]
  | @escaped c text escapes written hescapes h ih =>
      have hmore : Utf8.encode (done ++ [c]) = Utf8.encode done ++ String.utf8EncodeChar c := by
        simp [Utf8.encode]
      have hnext := ih (done ++ [c])
      rw [hmore, List.reverse_append] at hnext
      rw [decodeAfter_escapes hescapes, hnext, List.append_assoc, List.singleton_append]

theorem decode_of_writes {text written : List Char} (h : Writes text written) :
    decode written = text :=
  decodeAfter_of_writes h []

/-! ## Slashes -/

theorem IsDigitOf.ne_slash {n : ℕ} {c : Char} (h : IsDigitOf n c) (hn : n < 16) : c ≠ '/' := by
  rintro rfl
  have hnone : hexValue? '/' = none := by decide
  rw [h.hexValue?_eq hn] at hnone
  cases hnone

theorem slash_notMem_of_writesOctets {octets : List UInt8} {escapes : List Char}
    (h : WritesOctets octets escapes) : '/' ∉ escapes := by
  induction h with
  | nil => simp
  | @cons octet octets high low escapes hhigh hlow h ih =>
      have hsize := octet.toNat_lt
      have hfirst : high ≠ '/' := hhigh.ne_slash (by omega)
      have hsecond : low ≠ '/' := hlow.ne_slash (by omega)
      simp [hfirst.symm, hsecond.symm, ih]

theorem slash_notMem_of_writes {text written : List Char} (h : Writes text written)
    (htext : '/' ∉ text) : '/' ∉ written := by
  induction h with
  | nil => exact htext
  | @plain c text written hc h ih =>
      obtain ⟨hhead, hrest⟩ : '/' ≠ c ∧ '/' ∉ text := by simpa using htext
      simp [hhead, ih hrest]
  | @escaped c text escapes written hescapes h ih =>
      obtain ⟨-, hrest⟩ : '/' ≠ c ∧ '/' ∉ text := by simpa using htext
      rw [List.mem_append, not_or]
      exact ⟨slash_notMem_of_writesOctets hescapes, ih hrest⟩

end Text.Percent

namespace Reference

/-! ## Segments -/

theorem pieces_joinPieces {pieces : List (List Char)} (hne : pieces ≠ [])
    (h : ∀ piece ∈ pieces, '/' ∉ piece) :
    Text.pieces '/' (Text.joinPieces '/' pieces) = pieces := by
  induction pieces with
  | nil => exact absurd rfl hne
  | cons piece others ih =>
      obtain ⟨hpiece, hothers⟩ := List.forall_mem_cons.mp h
      cases others with
      | nil => exact Pointer.pieces_of_notMem hpiece
      | cons second others =>
          rw [Text.joinPieces, Pointer.pieces_append_cons hpiece,
            ih (List.cons_ne_nil second others) hothers]
          simp

/-- Pieces without slashes, put together as a reference, are taken apart and read one by one. -/
theorem segments?_joinPieces {pieces : List (List Char)} (hne : pieces ≠ [])
    (h : ∀ piece ∈ pieces, '/' ∉ piece) :
    segments? (String.ofList ('#' :: '/' :: Text.joinPieces '/' pieces)) =
      some (pieces.map fun piece =>
        String.ofList (Pointer.unescapeChars (Text.Percent.decode piece))) := by
  simp [segments?, Text.after?, pieces_joinPieces hne h]

/-- The text is a segment in written form: its tildes and slashes are escaped, and then any of
its characters once more, at least the percent signs. -/
def WritesSegment (segment : String) (written : List Char) : Prop :=
  Text.Percent.Writes (Pointer.escape segment).toList written

theorem WritesSegment.slash_notMem {segment : String} {written : List Char}
    (h : WritesSegment segment written) : '/' ∉ written := by
  apply Text.Percent.slash_notMem_of_writes h
  rw [Pointer.escape, String.toList_ofList]
  exact (Pointer.isToken_escapeChars segment.toList).slash_notMem

theorem WritesSegment.read_eq {segment : String} {written : List Char}
    (h : WritesSegment segment written) :
    String.ofList (Pointer.unescapeChars (Text.Percent.decode written)) = segment := by
  rw [Text.Percent.decode_of_writes h, Pointer.escape, String.toList_ofList,
    Pointer.unescapeChars_escapeChars, String.ofList_toList]

theorem read_of_writesSegments {segments : List String} {pieces : List (List Char)}
    (h : List.Forall₂ WritesSegment segments pieces) :
    (∀ piece ∈ pieces, '/' ∉ piece) ∧
      (pieces.map fun piece =>
        String.ofList (Pointer.unescapeChars (Text.Percent.decode piece))) = segments := by
  induction h with
  | nil => exact ⟨by simp, rfl⟩
  | cons hpiece h ih =>
      obtain ⟨hslash, hread⟩ := ih
      refine ⟨List.forall_mem_cons.mpr ⟨hpiece.slash_notMem, hslash⟩, ?_⟩
      rw [List.map_cons, hpiece.read_eq, hread]

/-- A reference is read as the segments it was written from, whatever characters they have and
whichever of these are written as escapes. -/
theorem segments?_of_writesSegment {segments : List String} {pieces : List (List Char)}
    (hne : segments ≠ []) (h : List.Forall₂ WritesSegment segments pieces) :
    segments? (String.ofList ('#' :: '/' :: Text.joinPieces '/' pieces)) = some segments := by
  obtain ⟨hslash, hread⟩ := read_of_writesSegments h
  have hpieces : pieces ≠ [] := by
    rintro rfl
    exact hne hread.symm
  rw [segments?_joinPieces hpieces hslash, hread]

theorem mixedEscapes_read :
    ["a/b", "", "é~1%2F"] ≠ [] ∧
      List.Forall₂ WritesSegment ["a/b", "", "é~1%2F"]
        [['a', '%', '7', 'e', '1', 'b'], [],
          ['%', 'C', '3', '%', 'a', '9', '~', '0', '%', '3', '1', '%', '2', '5', '2', 'F']] ∧
      segments? "#/a%7e1b//%C3%a9~0%31%252F" = some ["a/b", "", "é~1%2F"] := by
  have htilde : Text.Percent.WritesOctets (String.utf8EncodeChar '~') ['%', '7', 'e'] :=
    .cons (.inl rfl) (.inl rfl) .nil
  have haccent : Text.Percent.WritesOctets (String.utf8EncodeChar 'é')
      ['%', 'C', '3', '%', 'a', '9'] :=
    .cons (.inr rfl) (.inl rfl) (.cons (.inl rfl) (.inl rfl) .nil)
  have hone : Text.Percent.WritesOctets (String.utf8EncodeChar '1') ['%', '3', '1'] :=
    .cons (.inl rfl) (.inl rfl) .nil
  have hpercent : Text.Percent.WritesOctets (String.utf8EncodeChar '%') ['%', '2', '5'] :=
    .cons (.inl rfl) (.inl rfl) .nil
  have hfirst : Text.Percent.Writes ['a', '~', '1', 'b'] ['a', '%', '7', 'e', '1', 'b'] :=
    .plain (by decide) (.escaped htilde (.plain (by decide) (.plain (by decide) .nil)))
  have hlast : Text.Percent.Writes ['é', '~', '0', '1', '%', '2', 'F']
      ['%', 'C', '3', '%', 'a', '9', '~', '0', '%', '3', '1', '%', '2', '5', '2', 'F'] :=
    .escaped haccent (.plain (by decide) (.plain (by decide) (.escaped hone
      (.escaped hpercent (.plain (by decide) (.plain (by decide) .nil))))))
  have hall : List.Forall₂ WritesSegment ["a/b", "", "é~1%2F"]
      [['a', '%', '7', 'e', '1', 'b'], [],
        ['%', 'C', '3', '%', 'a', '9', '~', '0', '%', '3', '1', '%', '2', '5', '2', 'F']] :=
    .cons hfirst (.cons .nil (.cons hlast .nil))
  exact ⟨by simp, hall, segments?_of_writesSegment (by simp) hall⟩

end Reference

end StructuralSchema
