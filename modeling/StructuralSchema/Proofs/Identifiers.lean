import Mathlib.Tactic.SplitIfs
import StructuralSchema.Identifier
import StructuralSchema.Proofs.PointerText

/-!
# Pointers as identifiers

An identifier that is a pointer is the written form of its tokens, and tokens without blanks
are read back from what they are written as: neither a fragment nor a URI starts like a
pointer. Escaping and its inverse go through a token once; they do the same as replacing one
after the other the characters to be escaped, or their escapes.
-/

namespace StructuralSchema

namespace Pointer

/-! ## Escapes as replacements -/

def replaceChar (old digit : Char) (text : List Char) : List Char :=
  text.flatMap fun c => if c = old then ['~', digit] else [c]

def replaceEscape (digit new : Char) : List Char → List Char
  | [] => []
  | [c] => [c]
  | c :: d :: rest =>
    if c = '~' ∧ d = digit then new :: replaceEscape digit new rest
    else c :: replaceEscape digit new (d :: rest)

/-- Tildes are escaped first, so the tildes of escaped slashes stay as they are. -/
theorem escapeChars_eq_replaceChar (token : List Char) :
    escapeChars token = replaceChar '/' '1' (replaceChar '~' '0' token) := by
  induction token with
  | nil => rfl
  | cons c rest ih =>
      have hcons : replaceChar '/' '1' (replaceChar '~' '0' (c :: rest)) =
          replaceChar '/' '1' (if c = '~' then ['~', '0'] else [c]) ++
            replaceChar '/' '1' (replaceChar '~' '0' rest) := by
        simp [replaceChar]
      rw [escapeChars_cons, ih, hcons]
      by_cases htilde : c = '~'
      · subst htilde
        rfl
      · by_cases hslash : c = '/'
        · subst hslash
          rfl
        · simp [htilde, hslash, replaceChar]

theorem replaceEscape_cons_of_ne {digit new c : Char} (h : c ≠ '~') (rest : List Char) :
    replaceEscape digit new (c :: rest) = c :: replaceEscape digit new rest := by
  cases rest <;> simp [replaceEscape, h]

theorem replaceEscape_tilde {digit new : Char} {rest : List Char} (h : rest.head? ≠ some digit) :
    replaceEscape digit new ('~' :: rest) = '~' :: replaceEscape digit new rest := by
  cases rest with
  | nil => rfl
  | cons d rest =>
      have hd : d ≠ digit := by simpa using h
      simp [replaceEscape, hd]

theorem head?_replaceEscape (digit new : Char) (text : List Char) :
    (replaceEscape digit new text).head? = text.head? ∨
      (replaceEscape digit new text).head? = some new := by
  match text with
  | [] => exact .inl rfl
  | [c] => exact .inl rfl
  | c :: d :: rest =>
      rw [replaceEscape]
      split_ifs
      · exact .inr rfl
      · exact .inl rfl

/-- Escapes of slashes are read first, so no tilde that was read gets a digit behind it. -/
theorem unescapeChars_eq_replaceEscape (token : List Char) :
    unescapeChars token = replaceEscape '0' '~' (replaceEscape '1' '/' token) := by
  fun_induction unescapeChars token with
  | case1 => rfl
  | case2 rest ih =>
      have hinner : replaceEscape '1' '/' ('~' :: '0' :: rest) =
          '~' :: '0' :: replaceEscape '1' '/' rest := by
        rw [replaceEscape_tilde (by simp), replaceEscape_cons_of_ne (by decide)]
      rw [hinner, replaceEscape, if_pos ⟨rfl, rfl⟩, ih]
  | case3 rest ih =>
      rw [replaceEscape, if_pos ⟨rfl, rfl⟩, replaceEscape_cons_of_ne (by decide), ih]
  | case4 c rest hzero hone ih =>
      by_cases hc : c = '~'
      · subst hc
        have hhead : ∀ d, d = '0' ∨ d = '1' → rest.head? ≠ some d := by
          rintro d hd hrest
          obtain ⟨tail, rfl⟩ := List.head?_eq_some_iff.mp hrest
          rcases hd with rfl | rfl
          · exact hzero tail rfl rfl
          · exact hone tail rfl rfl
        have hnext : (replaceEscape '1' '/' rest).head? ≠ some '0' := by
          rcases head?_replaceEscape '1' '/' rest with heq | heq
          · rw [heq]
            exact hhead '0' (.inl rfl)
          · rw [heq]
            decide
        rw [replaceEscape_tilde (hhead '1' (.inr rfl)), replaceEscape_tilde hnext, ih]
      · rw [replaceEscape_cons_of_ne hc, replaceEscape_cons_of_ne hc, ih]

/-! ## Texts of pointers -/

theorem escapeChars_unescapeChars {token : List Char} (h : IsToken token) :
    escapeChars (unescapeChars token) = token := by
  induction h with
  | nil => rfl
  | @tilde rest h ih =>
      have hread : unescapeChars ('~' :: '0' :: rest) = '~' :: unescapeChars rest := rfl
      rw [hread, escapeChars_cons, ih]
      rfl
  | @slash rest h ih =>
      have hread : unescapeChars ('~' :: '1' :: rest) = '/' :: unescapeChars rest := rfl
      rw [hread, escapeChars_cons, ih]
      rfl
  | @plain c rest htilde hslash h ih =>
      have hread : unescapeChars (c :: rest) = c :: unescapeChars rest := by
        simp [unescapeChars, htilde]
      rw [hread, escapeChars_cons, ih, if_neg htilde, if_neg hslash]
      rfl

theorem IsToken.exists_eq_cons {d : Char} {text token rest : List Char} (htoken : IsToken token)
    (hrest : IsPointer rest) (htilde : d ≠ '~') (hslash : d ≠ '/') (h : d :: text = token ++ rest) :
    ∃ tail, IsToken tail ∧ text = tail ++ rest := by
  cases htoken with
  | nil =>
      cases hrest with
      | whole => simp at h
      | part => simp [hslash] at h
  | tilde => simp [htilde] at h
  | slash => simp [htilde] at h
  | plain _ _ htail =>
      obtain ⟨rfl, rfl⟩ : d = _ ∧ text = _ := by simpa using h
      exact ⟨_, htail, rfl⟩

/-- A text in which every tilde starts an escape is a token and the text of a pointer. -/
theorem exists_token_of_tildesEscape {text : List Char} (h : tildesEscape text = true) :
    ∃ token rest, text = token ++ rest ∧ IsToken token ∧ IsPointer rest := by
  fun_induction tildesEscape text with
  | case1 => exact ⟨[], [], rfl, .nil, .whole⟩
  | case2 tail ih =>
      obtain ⟨token, rest, heq, htoken, hrest⟩ := ih h
      obtain ⟨after, hafter, rfl⟩ := htoken.exists_eq_cons hrest (by decide) (by decide) heq
      exact ⟨'~' :: '0' :: after, rest, rfl, .tilde hafter, hrest⟩
  | case3 tail ih =>
      obtain ⟨token, rest, heq, htoken, hrest⟩ := ih h
      obtain ⟨after, hafter, rfl⟩ := htoken.exists_eq_cons hrest (by decide) (by decide) heq
      exact ⟨'~' :: '1' :: after, rest, rfl, .slash hafter, hrest⟩
  | case4 => simp at h
  | case5 c text htilde ih =>
      obtain ⟨token, rest, rfl, htoken, hrest⟩ := ih h
      by_cases hslash : c = '/'
      · subst hslash
        exact ⟨[], '/' :: (token ++ rest), rfl, .nil, .part htoken hrest⟩
      · have hc : c ≠ '~' := fun heq => htilde heq
        exact ⟨c :: token, rest, rfl, .plain hc hslash htoken, hrest⟩

theorem isPointer_of_isPointerText {text : String} (h : isPointerText text = true) :
    IsPointer text.toList := by
  unfold isPointerText at h
  split at h
  · rename_i hnil
    rw [hnil]
    exact .whole
  · rename_i c rest hcons
    obtain ⟨⟨rfl, -⟩, htildes⟩ : (c = '/' ∧ _) ∧ tildesEscape rest = true := by simpa using h
    obtain ⟨token, after, rfl, htoken, hafter⟩ := exists_token_of_tildesEscape htildes
    rw [hcons]
    exact .part htoken hafter

theorem isToken_of_mem_pieces {text : List Char} (h : IsPointer ('/' :: text)) :
    ∀ piece ∈ Text.pieces '/' text, IsToken piece := by
  generalize hwhole : '/' :: text = whole at h
  induction h generalizing text with
  | whole => cases hwhole
  | part htoken hrest ih =>
      obtain rfl := (List.cons.inj hwhole).2
      cases hrest with
      | whole =>
          rw [List.append_nil, pieces_of_notMem htoken.slash_notMem]
          simpa using htoken
      | part =>
          rw [pieces_append_cons htoken.slash_notMem]
          exact List.forall_mem_cons.mpr ⟨htoken, ih rfl⟩

theorem flatMap_cons_eq_joinPieces {pieces : List (List Char)} (h : pieces ≠ []) :
    (pieces.flatMap fun piece => '/' :: piece) = '/' :: Text.joinPieces '/' pieces := by
  induction pieces with
  | nil => exact absurd rfl h
  | cons piece others ih =>
      cases others with
      | nil => simp [Text.joinPieces]
      | cons second others =>
          have hjoin : Text.joinPieces '/' (piece :: second :: others) =
              piece ++ '/' :: Text.joinPieces '/' (second :: others) := rfl
          rw [List.flatMap_cons, ih (List.cons_ne_nil second others), hjoin, List.cons_append]

theorem toText_ofText {text : String} (h : IsPointer text.toList) :
    (ofText text).toText = text := by
  apply String.toList_inj.mp
  cases hchars : text.toList with
  | nil => simp [ofText, hchars, toText]
  | cons c rest =>
      rw [hchars] at h
      obtain rfl : c = '/' := by
        cases h
        rfl
      have htokens := isToken_of_mem_pieces h
      have hwritten : ((Text.pieces '/' rest).flatMap fun piece =>
            '/' :: escapeChars (unescapeChars piece)) =
          (Text.pieces '/' rest).flatMap fun piece => '/' :: piece :=
        List.flatMap_congr fun piece hpiece => by rw [escapeChars_unescapeChars (htokens piece hpiece)]
      calc (ofText text).toText.toList
          = (Text.pieces '/' rest).flatMap fun piece =>
              '/' :: escapeChars (unescapeChars piece) := by
            simp [ofText, hchars, toText, List.flatMap_map]
        _ = '/' :: Text.joinPieces '/' (Text.pieces '/' rest) := by
            rw [hwritten, flatMap_cons_eq_joinPieces (Text.pieces_ne_nil '/' rest)]
        _ = '/' :: rest := by rw [Text.joinPieces_pieces]

/-! ## Texts without blanks -/

theorem tildesEscape_of_isToken_append {token rest : List Char} (htoken : IsToken token)
    (hrest : tildesEscape rest = true) : tildesEscape (token ++ rest) = true := by
  induction htoken with
  | nil => exact hrest
  | tilde _ ih => simpa [tildesEscape] using ih
  | slash _ ih => simpa [tildesEscape] using ih
  | plain htilde _ _ ih => simpa [tildesEscape, htilde] using ih

theorem tildesEscape_of_isPointer {text : List Char} (h : IsPointer text) :
    tildesEscape text = true := by
  induction h with
  | whole => rfl
  | part htoken _ ih => simpa [tildesEscape] using tildesEscape_of_isToken_append htoken ih

theorem toText_eq_join (tokens : List String) :
    toText ⟨tokens⟩ = String.join (tokens.map fun token => "/" ++ escape token) := by
  apply String.toList_inj.mp
  rw [toText, String.toList_ofList, String.toList_join, List.flatMap_map]
  exact List.flatMap_congr fun token _ => by simp [escape]

theorem mem_or_of_mem_escapeChars {c : Char} {token : List Char} (h : c ∈ escapeChars token) :
    c ∈ token ∨ c ∈ ['~', '0', '1'] := by
  obtain ⟨d, hd, hc⟩ := List.mem_flatMap.mp h
  split_ifs at hc
  · have hsub : ['~', '0'] ⊆ ['~', '0', '1'] := by decide
    exact .inr (hsub hc)
  · have hsub : ['~', '1'] ⊆ ['~', '0', '1'] := by decide
    exact .inr (hsub hc)
  · obtain rfl : c = d := by simpa using hc
    exact .inl hd

theorem hasBlank_toText {p : Pointer} (h : ∀ token ∈ p.tokens, Text.hasBlank token = false) :
    Text.hasBlank p.toText = false := by
  rw [Text.hasBlank, List.any_eq_false]
  intro c hc
  rw [toText, String.toList_ofList] at hc
  obtain ⟨token, htoken, hc⟩ := List.mem_flatMap.mp hc
  have hmarks : ∀ d ∈ ['/', '~', '0', '1'], ¬ Text.isBlank d = true := by
    intro d hd
    have hd : d = '/' ∨ d = '~' ∨ d = '0' ∨ d = '1' := by simpa using hd
    rcases hd with rfl | rfl | rfl | rfl <;> decide
  rcases List.mem_cons.mp hc with rfl | hc
  · exact hmarks '/' (by decide)
  · rcases mem_or_of_mem_escapeChars hc with hc | hc
    · have hplain := h token htoken
      rw [Text.hasBlank, List.any_eq_false] at hplain
      exact hplain c hc
    · exact hmarks c (List.mem_cons_of_mem _ hc)

theorem isPointerText_iff {text : String} :
    isPointerText text = true ↔ IsPointer text.toList ∧ Text.hasBlank text = false := by
  refine ⟨fun h => ⟨isPointer_of_isPointerText h, ?_⟩, ?_⟩
  · unfold isPointerText at h
    split at h
    · rename_i hnil
      rw [Text.hasBlank, hnil]
      rfl
    · rename_i c rest hcons
      rw [Bool.and_eq_true, Bool.and_eq_true] at h
      rw [Text.hasBlank, hcons]
      simpa using h.1.2
  · rintro ⟨hpointer, hblank⟩
    unfold isPointerText
    unfold Text.hasBlank at hblank
    split
    · rfl
    · rename_i c rest hcons
      rw [hcons] at hpointer hblank
      have htildes := tildesEscape_of_isPointer hpointer
      obtain rfl : c = '/' := by
        cases hpointer
        rfl
      rw [hblank]
      simpa [tildesEscape] using htildes

end Pointer

/-! ## Identifiers -/

theorem Uri.ofText?_slash (rest : List Char) : Uri.ofText? ('/' :: rest) = none := by
  have hcut : Text.cutAt (· = ':') ('/' :: rest) =
      ('/' :: (Text.cutAt (· = ':') rest).1, (Text.cutAt (· = ':') rest).2) := by
    simp [Text.cutAt]
  have hscheme : Uri.isScheme ('/' :: (Text.cutAt (· = ':') rest).1) = false := rfl
  rw [Uri.ofText?, hcut]
  cases (Text.cutAt (· = ':') rest).2 with
  | nil => rfl
  | cons mark after => simp [hscheme]

namespace SchemaId

theorem ofText?_of_isPointerText {text : String} (h : Pointer.isPointerText text = true) :
    ofText? text = some (.pointer text) := by
  have hpointer := (Pointer.isPointerText_iff.mp h).1
  unfold ofText?
  cases hchars : text.toList with
  | nil =>
      have habsolute : Uri.isAbsolute text = false := by
        simp [Uri.isAbsolute, hchars, Uri.ofText?, Text.cutAt]
      simp [habsolute, h]
  | cons c rest =>
      rw [hchars] at hpointer
      obtain rfl : c = '/' := by
        cases hpointer
        rfl
      have habsolute : Uri.isAbsolute text = false := by
        simp [Uri.isAbsolute, hchars, Uri.ofText?_slash]
      simp [habsolute, h]

theorem isPointerText_of_ofText? {text name : String} (h : ofText? text = some (.pointer name)) :
    name = text ∧ Pointer.isPointerText text = true := by
  unfold ofText? at h
  split at h
  · cases h
  · split_ifs at h with habsolute hpointer hblank
    · cases h
    · obtain rfl : text = name := by simpa using h
      exact ⟨rfl, hpointer⟩
    · cases h

end SchemaId

/-- Tokens without blanks are written as an identifier that is a pointer and has these tokens,
and every identifier that is a pointer is what its tokens are written as. -/
theorem pointer_identifies_tokens :
    (∀ tokens : List String, (∀ token ∈ tokens, Text.hasBlank token = false) →
        ∃ name, SchemaId.ofText? (String.join (tokens.map fun token => "/" ++ Pointer.escape token)) =
            some (.pointer name) ∧ (Pointer.ofText name).tokens = tokens) ∧
      ∀ text name, SchemaId.ofText? text = some (.pointer name) →
        String.join ((Pointer.ofText name).tokens.map fun token => "/" ++ Pointer.escape token) =
          text := by
  constructor
  · intro tokens hplain
    refine ⟨Pointer.toText ⟨tokens⟩, ?_, ?_⟩
    · rw [← Pointer.toText_eq_join]
      apply SchemaId.ofText?_of_isPointerText
      exact Pointer.isPointerText_iff.mpr
        ⟨Pointer.isPointer_toText ⟨tokens⟩, Pointer.hasBlank_toText hplain⟩
    · rw [Pointer.ofText_toText]
  · intro text name h
    obtain ⟨rfl, hname⟩ := SchemaId.isPointerText_of_ofText? h
    rw [← Pointer.toText_eq_join]
    exact Pointer.toText_ofText (Pointer.isPointerText_iff.mp hname).1

/-- Tokens that look like escapes, or have a slash in them. -/
theorem escapedTokens_identified :
    (∀ token ∈ ["", "~1", "a/b", "~~10"], Text.hasBlank token = false) ∧
      (∃ name, SchemaId.ofText? "//~01/a~1b/~0~010" = some (.pointer name) ∧
        (Pointer.ofText name).tokens = ["", "~1", "a/b", "~~10"]) ∧
      SchemaId.ofText? "/~01" = some (.pointer "/~01") ∧
      String.join ((Pointer.ofText "/~01").tokens.map fun token => "/" ++ Pointer.escape token) =
        "/~01" := by
  have hplain : ∀ token ∈ ["", "~1", "a/b", "~~10"], Text.hasBlank token = false := by decide
  have hwritten : String.join (["", "~1", "a/b", "~~10"].map fun token =>
      "/" ++ Pointer.escape token) = "//~01/a~1b/~0~010" := by decide
  have hname : SchemaId.ofText? "/~01" = some (.pointer "/~01") := by decide
  obtain ⟨hread, hwrite⟩ := pointer_identifies_tokens
  have htokens := hread _ hplain
  rw [hwritten] at htokens
  exact ⟨hplain, htokens, hname, hwrite _ _ hname⟩

end StructuralSchema
