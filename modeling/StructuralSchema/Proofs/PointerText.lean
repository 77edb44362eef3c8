import Mathlib.Tactic.IntervalCases
import StructuralSchema.Pointer
import StructuralSchema.Proofs.JsonValue
import StructuralSchema.Text.Digits

/-!
# Pointers as text

The grammar of the text of pointers, and the part of a JSON value that such a text
designates: a token is a key of an object or the decimal index of an element. Whatever
characters the tokens of a place have, its text keeps to the grammar and reads back.
-/

namespace StructuralSchema

namespace Pointer

/-- The written form of a token, where slash and tilde stand as escapes only. -/
inductive IsToken : List Char → Prop
  | nil : IsToken []
  | tilde {rest : List Char} (h : IsToken rest) : IsToken ('~' :: '0' :: rest)
  | slash {rest : List Char} (h : IsToken rest) : IsToken ('~' :: '1' :: rest)
  | plain {c : Char} {rest : List Char} (htilde : c ≠ '~') (hslash : c ≠ '/')
      (h : IsToken rest) : IsToken (c :: rest)

/-- The text of a pointer: written tokens, each after a slash. -/
inductive IsPointer : List Char → Prop
  | whole : IsPointer []
  | part {token rest : List Char} (htoken : IsToken token) (h : IsPointer rest) :
      IsPointer ('/' :: (token ++ rest))

theorem escapeChars_cons (c : Char) (token : List Char) :
    escapeChars (c :: token) =
      (if c = '~' then ['~', '0'] else if c = '/' then ['~', '1'] else [c]) ++
        escapeChars token := rfl

theorem isToken_escapeChars (token : List Char) : IsToken (escapeChars token) := by
  induction token with
  | nil => exact .nil
  | cons c rest ih =>
      rw [escapeChars_cons]
      split_ifs with htilde hslash
      · exact .tilde ih
      · exact .slash ih
      · exact .plain htilde hslash ih

theorem IsToken.slash_notMem {token : List Char} (h : IsToken token) : '/' ∉ token := by
  induction h with
  | nil => simp
  | tilde _ ih => simpa using ih
  | slash _ ih => simpa using ih
  | plain _ hslash _ ih => simpa [Ne.symm hslash] using ih

theorem isPointer_toText (p : Pointer) : IsPointer p.toText.toList := by
  rw [toText, String.toList_ofList]
  induction p.tokens with
  | nil => exact .whole
  | cons token rest ih => exact .part (isToken_escapeChars token.toList) ih

theorem pieces_of_notMem {separator : Char} {piece : List Char} (h : separator ∉ piece) :
    Text.pieces separator piece = [piece] := by
  induction piece with
  | nil => rfl
  | cons c piece ih =>
      obtain ⟨hc, hpiece⟩ : separator ≠ c ∧ separator ∉ piece := by simpa using h
      simp [Text.pieces, Ne.symm hc, ih hpiece]

theorem pieces_append (separator : Char) (front back : List Char) :
    Text.pieces separator (front ++ separator :: back) =
      Text.pieces separator front ++ Text.pieces separator back := by
  induction front with
  | nil => simp [Text.pieces]
  | cons c front ih =>
      rw [List.cons_append, Text.pieces, Text.pieces, ih]
      split_ifs with hc
      · rfl
      · cases hpieces : Text.pieces separator front with
        | nil => exact absurd hpieces (Text.pieces_ne_nil separator front)
        | cons piece others => rfl

theorem pieces_append_cons {separator : Char} {piece : List Char} (h : separator ∉ piece)
    (rest : List Char) :
    Text.pieces separator (piece ++ separator :: rest) = piece :: Text.pieces separator rest := by
  rw [pieces_append, pieces_of_notMem h, List.singleton_append]

theorem pieces_escaped (token : String) (rest : List String) :
    Text.pieces '/' (escapeChars token.toList ++
        rest.flatMap fun token => '/' :: escapeChars token.toList) =
      (token :: rest).map fun token => escapeChars token.toList := by
  induction rest generalizing token with
  | nil => simpa using pieces_of_notMem (isToken_escapeChars token.toList).slash_notMem
  | cons next rest ih =>
      rw [List.flatMap_cons, List.cons_append,
        pieces_append_cons (isToken_escapeChars token.toList).slash_notMem, ih next]
      simp

/-- The text of a pointer reads back as the same tokens. -/
theorem ofText_toText (p : Pointer) : ofText p.toText = p := by
  obtain ⟨tokens⟩ := p
  cases tokens with
  | nil => rfl
  | cons token rest =>
      simp only [ofText, toText, String.toList_ofList, List.flatMap_cons, List.cons_append,
        pieces_escaped]
      simp [unescapeChars_escapeChars, Function.comp_def]

/-- The index that a token writes in decimal digits, without needless zeros in front. -/
def index? (token : String) : Option ℕ :=
  match token.toList with
  | [] => none
  | c :: rest =>
    if (c :: rest).all Char.isDigit && (c ≠ '0' || rest.isEmpty) then
      some (Text.decimalValue (c :: rest))
    else none

theorem decimalValue_toDigits (i : ℕ) : Text.decimalValue (Nat.toDigits 10 i) = i := by
  rw [Text.decimalValue, ← Nat.ofDigitChars_eq_foldl]
  simp

theorem toDigits_eq_cons_of_pos {i : ℕ} (h : 0 < i) :
    ∃ c rest, Nat.toDigits 10 i = c :: rest ∧ c ≠ '0' := by
  induction i using Nat.strongRecOn with
  | ind i ih =>
      by_cases hi : i < 10
      · refine ⟨Nat.digitChar i, [], Nat.toDigits_of_lt_base hi, ?_⟩
        interval_cases i <;> decide
      · obtain ⟨c, rest, hdigits, hc⟩ := ih (i / 10) (by omega) (by omega)
        refine ⟨c, rest ++ [Nat.digitChar (i % 10)], ?_, hc⟩
        rw [Nat.toDigits_of_base_le (by decide) (by omega), hdigits, List.cons_append]

theorem toDigits_eq_cons (i : ℕ) :
    ∃ c rest, Nat.toDigits 10 i = c :: rest ∧ (c ≠ '0' ∨ rest = []) := by
  rcases Nat.eq_zero_or_pos i with rfl | hi
  · exact ⟨'0', [], Nat.toDigits_zero 10, .inr rfl⟩
  · obtain ⟨c, rest, hdigits, hc⟩ := toDigits_eq_cons_of_pos hi
    exact ⟨c, rest, hdigits, .inl hc⟩

theorem index?_toString (i : ℕ) : index? (toString i) = some i := by
  obtain ⟨c, rest, hdigits, hlead⟩ := toDigits_eq_cons i
  have htext : (toString i).toList = c :: rest := by
    rw [Nat.toString_eq_repr, Nat.toList_repr, hdigits]
  have hall : (c :: rest).all Char.isDigit = true := by
    rw [← hdigits, List.all_eq_true]
    exact fun d hd => Nat.isDigit_of_mem_toDigits (by decide) (by decide) hd
  have hcheck : (decide (c ≠ '0') || rest.isEmpty) = true := by simpa using hlead
  have hvalue : Text.decimalValue (c :: rest) = i := by rw [← hdigits, decimalValue_toDigits]
  simp only [index?, htext, hall, hcheck, Bool.and_self, if_true, hvalue]

end Pointer

namespace Value

/-- The part of a value that a token designates: the member with that key, or the element
with that index. -/
def part? (token : String) : Value → Option Value
  | .obj members => lookup token members
  | .arr elements => (Pointer.index? token).bind fun i => elements[i]?
  | _ => none

def descend? : List String → Value → Option Value
  | [], v => some v
  | token :: rest, v => (v.part? token).bind (descend? rest)

theorem descend?_append (front back : List String) (v : Value) :
    v.descend? (front ++ back) = (v.descend? front).bind (descend? back) := by
  induction front generalizing v with
  | nil => rfl
  | cons token rest ih =>
      rw [List.cons_append, descend?, descend?, Option.bind_assoc]
      exact Option.bind_congr fun next _ => ih next

theorem descend?_singleton (token : String) (v : Value) :
    v.descend? [token] = v.part? token := by
  cases hpart : v.part? token <;> simp [descend?, hpart]

/-- The part of a value that the text of a pointer designates. -/
def at? (text : String) (v : Value) : Option Value :=
  v.descend? (Pointer.ofText text).tokens

theorem at?_toText (p : Pointer) (v : Value) : v.at? p.toText = v.descend? p.tokens := by
  rw [at?, Pointer.ofText_toText]

theorem part?_toString {elements : List Value} {i : ℕ} :
    (Value.arr elements).part? (toString i) = elements[i]? := by
  simp only [part?, Pointer.index?_toString, Option.bind_some]

end Value

end StructuralSchema
