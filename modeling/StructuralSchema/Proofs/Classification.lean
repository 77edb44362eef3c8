import StructuralSchema.Proofs.Identifiers
import StructuralSchema.Proofs.UriParts

/-!
# The shapes of identifiers

Which texts are identifiers, and of which shape. A fragment starts with its mark and may hold
blanks. A URL has a scheme with more behind it than empty parts, a pointer has slashes and
escapes in the right places, and any other text without blanks is a path.
-/

namespace StructuralSchema

theorem Text.hasBlank_eq_false_iff {text : String} :
    Text.hasBlank text = false ↔ ∀ c ∈ text.toList, Text.isBlank c = false := by
  simp [Text.hasBlank]

namespace Uri

/-- An authority stands behind two slashes and ends at the next mark. -/
def HasAuthority (authority rest : List Char) : Prop :=
  ∃ after, rest = '/' :: '/' :: (authority ++ after) ∧
    (∀ c ∈ authority, endsAuthority c = false) ∧ Text.StartsAt endsAuthority after

/-- Nothing but the marks of an empty authority, an empty query and an empty fragment. -/
def IsHollow (rest : List Char) : Prop :=
  ∃ slashes ∈ [[], ['/', '/']], ∃ question ∈ [[], ['?']], ∃ hash ∈ [[], ['#']],
    rest = slashes ++ (question ++ hash)

/-- A text without blanks that starts with a scheme, which is a letter and then letters, digits
and three other marks up to a colon, and goes on with more than empty parts. -/
def IsUrlText (text : List Char) : Prop :=
  (∀ c ∈ text, Text.isBlank c = false) ∧
    ∃ first scheme rest, text = first :: (scheme ++ ':' :: rest) ∧ first.isAlpha = true ∧
      (∀ c ∈ scheme, c.isAlphanum = true ∨ c = '+' ∨ c = '.' ∨ c = '-') ∧ ¬ IsHollow rest ∧
      ∀ authority, HasAuthority authority rest → isAuthority authority = true

section

variable {scheme rest authority : List Char} {uri : Uri}

theorem isScheme_cons_iff {first : Char} :
    isScheme (first :: scheme) = true ↔ first.isAlpha = true ∧
      ∀ c ∈ scheme, c.isAlphanum = true ∨ c = '+' ∨ c = '.' ∨ c = '-' := by
  simp only [isScheme, isSchemeChar, Bool.and_eq_true, List.all_eq_true, Bool.or_eq_true,
    decide_eq_true_eq, or_assoc]
  refine and_congr_right fun _ => forall₂_congr fun c _ => or_congr_right (or_congr_right ?_)
  exact or_comm

theorem HasAuthority.splitAuthority_eq (h : HasAuthority authority rest) :
    (splitAuthority rest).1 = authority := by
  obtain ⟨after, rfl, hmarks, hafter⟩ := h
  show (Text.cutAt endsAuthority (authority ++ after)).1 = authority
  rw [Text.cutAt_append hmarks hafter]

theorem hasContent_eq_false_of_isHollow (hscheme : isScheme uri.scheme = true)
    (huri : uri.TailIsWrittenAs rest) (h : IsHollow rest) : uri.hasContent = false := by
  obtain ⟨slashes, hslashes, question, hquestion, hash, hhash, rfl⟩ := h
  have hhierarchy : Hierarchy [] [] slashes := by
    have hcases : slashes = [] ∨ slashes = ['/', '/'] := by simpa using hslashes
    rcases hcases with rfl | rfl
    · exact .path (by simp)
    · exact .authority (by simp) (by simp)
  have hquery : Marked '?' [] question := by
    have hcases : question = [] ∨ question = ['?'] := by simpa using hquestion
    rcases hcases with rfl | rfl
    · exact .absent
    · exact .present []
  have hfragment : Marked '#' [] hash := by
    have hcases : hash = [] ∨ hash = ['#'] := by simpa using hhash
    rcases hcases with rfl | rfl
    · exact .absent
    · exact .present []
  -- The text is also that of a URI without these parts, and it is the text of one URI only.
  have hempty : IsWrittenAs ⟨uri.scheme, [], [], [], []⟩
      (uri.scheme ++ ':' :: (slashes ++ (question ++ hash))) :=
    ⟨_, rfl, hscheme, .parts hhierarchy (by simp) hquery (by simp) hfragment⟩
  have htext := hempty.ofText?_eq
  rw [if_pos (by rfl)] at htext
  have hwritten : uri.IsWrittenAs (uri.scheme ++ ':' :: (slashes ++ (question ++ hash))) :=
    ⟨_, rfl, hscheme, huri⟩
  rw [hwritten.eq_of_ofText? htext]
  rfl

theorem Marked.mem_of_nil {mark : Char} {written : List Char} (h : Marked mark [] written) :
    written ∈ [[], [mark]] := by
  cases h <;> simp

theorem TailIsWrittenAs.splitAuthority_eq (huri : uri.TailIsWrittenAs rest) :
    (splitAuthority rest).1 = uri.authority := by
  obtain ⟨hhierarchy, -, hquery, -, hfragment⟩ := huri
  rw [hhierarchy.splitAuthority_eq hquery hfragment]

theorem isHollow_of_hasContent_eq_false (huri : uri.TailIsWrittenAs rest)
    (h : uri.hasContent = false) : IsHollow rest := by
  obtain ⟨⟨⟨hauthority, hpath⟩, hquery⟩, hfragment⟩ :
      ((uri.authority = [] ∧ uri.path = []) ∧ uri.query = []) ∧ uri.fragment = [] := by
    simpa [hasContent] using h
  obtain ⟨hhierarchy, -, hqueryText, -, hfragmentText⟩ := huri
  rw [hquery] at hqueryText
  rw [hfragment] at hfragmentText
  refine ⟨_, ?_, _, hqueryText.mem_of_nil, _, hfragmentText.mem_of_nil, rfl⟩
  rw [hauthority, hpath] at hhierarchy
  cases hhierarchy <;> simp

theorem isAuthority_of_tailIsWrittenAs (huri : uri.TailIsWrittenAs rest)
    (h : ∀ authority, HasAuthority authority rest → isAuthority authority = true) :
    isAuthority uri.authority = true := by
  obtain ⟨scheme, authority, path, query, fragment⟩ := uri
  obtain ⟨hhierarchy, hpath, hquery, hhash, hfragment⟩ := huri
  cases hhierarchy with
  | path => rfl
  | authority hmarks hstart =>
      exact h authority ⟨_, by simp, hmarks, startsAt_path hstart hquery hfragment⟩

end

theorem isAbsolute_iff {text : String} : isAbsolute text = true ↔ IsUrlText text.toList := by
  rw [isAbsolute_eq_true_iff, IsUrlText, Text.hasBlank_eq_false_iff]
  refine and_congr_right fun _ => ?_
  constructor
  · rintro ⟨uri, hwritten, hauthority, hcontent⟩
    obtain ⟨rest, htext, hscheme, htail⟩ := hwritten
    obtain ⟨first, others, hfirst⟩ : ∃ first others, uri.scheme = first :: others := by
      cases hcases : uri.scheme with
      | nil => simp [hcases, isScheme] at hscheme
      | cons first others => exact ⟨first, others, rfl⟩
    obtain ⟨hletter, hothers⟩ := isScheme_cons_iff.mp (hfirst ▸ hscheme)
    refine ⟨first, others, rest, by simp [htext, hfirst], hletter, hothers, ?_, ?_⟩
    · intro hhollow
      rw [hasContent_eq_false_of_isHollow hscheme htail hhollow] at hcontent
      cases hcontent
    · intro authority h
      rwa [← h.splitAuthority_eq, htail.splitAuthority_eq]
  · rintro ⟨first, scheme, rest, htext, hfirst, hscheme, hhollow, hauthority⟩
    obtain ⟨uri, huri, htail⟩ := exists_tailIsWrittenAs (first :: scheme) rest
    have hform : isScheme uri.scheme = true := by
      rw [huri]
      exact isScheme_cons_iff.mpr ⟨hfirst, hscheme⟩
    refine ⟨uri, ⟨rest, by simp [htext, huri], hform, htail⟩,
      isAuthority_of_tailIsWrittenAs htail hauthority, ?_⟩
    · by_contra hcontent
      exact hhollow (isHollow_of_hasContent_eq_false htail (by simpa using hcontent))

end Uri

namespace Pointer

/-- A text without blanks that is empty or starts with a slash, and in which zero or one stands
behind every tilde. -/
def IsPointerForm (text : List Char) : Prop :=
  (text = [] ∨ text.head? = some '/') ∧ (∀ c ∈ text, Text.isBlank c = false) ∧
    ∀ front back, text = front ++ '~' :: back → back.head? = some '0' ∨ back.head? = some '1'

theorem forall_cons_eq_append_iff {c d : Char} {text : List Char} {P : List Char → Prop} :
    (∀ front back, c :: text = front ++ d :: back → P back) ↔
      (c = d → P text) ∧ ∀ front back, text = front ++ d :: back → P back := by
  constructor
  · intro h
    refine ⟨fun hc => h [] text (by simp [hc]), fun front back htext => ?_⟩
    exact h (c :: front) back (by simp [htext])
  · rintro ⟨hhead, htail⟩ front back heq
    cases front with
    | nil =>
        obtain ⟨hc, rfl⟩ := List.cons.inj heq
        exact hhead hc
    | cons e front => exact htail front back (List.cons.inj heq).2

theorem tildesEscape_iff {text : List Char} :
    tildesEscape text = true ↔
      ∀ front back, text = front ++ '~' :: back →
        back.head? = some '0' ∨ back.head? = some '1' := by
  fun_induction tildesEscape text with
  | case1 => simp
  | case2 tail ih | case3 tail ih =>
      rw [ih, forall_cons_eq_append_iff (c := '~')]
      simp
  | case4 rest hzero hone =>
      rw [forall_cons_eq_append_iff]
      have hhead : ¬ (rest.head? = some '0' ∨ rest.head? = some '1') := by
        cases rest with
        | nil => simp
        | cons c tail =>
            rintro (h | h)
            · exact hzero tail (by simpa using h)
            · exact hone tail (by simpa using h)
      simp [hhead]
  | case5 c text htilde ih =>
      rw [ih, forall_cons_eq_append_iff]
      simp [show c ≠ '~' from fun h => htilde h]

theorem isPointerText_iff_isPointerForm {text : String} :
    isPointerText text = true ↔ IsPointerForm text.toList := by
  unfold isPointerText IsPointerForm
  cases text.toList with
  | nil => simp
  | cons c rest =>
      rw [forall_cons_eq_append_iff, ← tildesEscape_iff]
      have hblank : (!(c :: rest).any Text.isBlank) = true ↔
          ∀ d ∈ c :: rest, Text.isBlank d = false := by simp
      show (decide (c = '/') && !(c :: rest).any Text.isBlank && tildesEscape rest) = true ↔ _
      rw [Bool.and_eq_true, Bool.and_eq_true, decide_eq_true_eq, hblank, and_assoc]
      have htilde : c = '/' → ¬ c = '~' := by
        rintro rfl
        decide
      simp only [List.head?_cons, Option.some.injEq, List.cons_ne_nil, false_or]
      exact and_congr_right fun hslash =>
        and_congr_right fun _ => (and_iff_right fun hc => absurd hc (htilde hslash)).symm

end Pointer

namespace SchemaId

inductive IsShapeOf (text : String) : SchemaId → Prop
  | fragment {name : String} (h : text = "#" ++ name) : IsShapeOf text (.fragment name)
  | url (h : Uri.IsUrlText text.toList) : IsShapeOf text (.url text)
  | pointer (h : Pointer.IsPointerForm text.toList) : IsShapeOf text (.pointer text)
  | path (hfragment : text.toList.head? ≠ some '#') (hurl : ¬ Uri.IsUrlText text.toList)
      (hpointer : ¬ Pointer.IsPointerForm text.toList)
      (hplain : ∀ c ∈ text.toList, Text.isBlank c = false) : IsShapeOf text (.path text)

variable {text : String}

theorem ofText?_fragment (name : String) : ofText? ("#" ++ name) = some (.fragment name) := by
  simp [ofText?]

theorem ofText?_of_head?_ne (h : text.toList.head? ≠ some '#') :
    ofText? text =
      if Uri.isAbsolute text then some (.url text)
      else if Pointer.isPointerText text then some (.pointer text)
      else if Text.hasBlank text then none
      else some (.path text) := by
  unfold ofText?
  split
  · rename_i hname
    exact absurd (by rw [hname]; rfl) h
  · rfl

theorem exists_fragment_of_head? (h : text.toList.head? = some '#') :
    ∃ name, text = "#" ++ name := by
  cases hchars : text.toList with
  | nil => simp [hchars] at h
  | cons c rest =>
      obtain rfl : c = '#' := by simpa [hchars] using h
      exact ⟨String.ofList rest, String.toList_inj.mp (by simp [hchars])⟩

theorem head?_ne_of_isUrlText (h : Uri.IsUrlText text.toList) : text.toList.head? ≠ some '#' := by
  obtain ⟨-, first, scheme, rest, htext, hfirst, -⟩ := h
  rw [htext, List.head?_cons]
  rintro hmark
  rw [Option.some.inj hmark] at hfirst
  exact absurd hfirst (by decide)

theorem ofText?_eq_some_iff {id : SchemaId} : ofText? text = some id ↔ id.IsShapeOf text := by
  constructor
  · intro h
    by_cases hmark : text.toList.head? = some '#'
    · obtain ⟨name, rfl⟩ := exists_fragment_of_head? hmark
      rw [ofText?_fragment] at h
      obtain rfl := Option.some.inj h
      exact .fragment rfl
    · rw [ofText?_of_head?_ne hmark] at h
      split_ifs at h with hurl hpointer hblank
      · obtain rfl := Option.some.inj h
        exact .url (Uri.isAbsolute_iff.mp hurl)
      · obtain rfl := Option.some.inj h
        exact .pointer (Pointer.isPointerText_iff_isPointerForm.mp hpointer)
      · obtain rfl := Option.some.inj h
        rw [Uri.isAbsolute_iff] at hurl
        rw [Pointer.isPointerText_iff_isPointerForm] at hpointer
        exact .path hmark hurl hpointer (Text.hasBlank_eq_false_iff.mp (by simpa using hblank))
  · intro h
    cases h with
    | @fragment name h => rw [h, ofText?_fragment]
    | url h =>
        rw [ofText?_of_head?_ne (head?_ne_of_isUrlText h), if_pos (Uri.isAbsolute_iff.mpr h)]
    | pointer h =>
        exact ofText?_of_isPointerText (Pointer.isPointerText_iff_isPointerForm.mpr h)
    | path hfragment hurl hpointer hplain =>
        rw [← Uri.isAbsolute_iff] at hurl
        rw [← Pointer.isPointerText_iff_isPointerForm] at hpointer
        have hblank := Text.hasBlank_eq_false_iff.mpr hplain
        rw [ofText?_of_head?_ne hfragment, if_neg hurl, if_neg hpointer, hblank]
        rfl

theorem ofText?_eq_none_iff :
    ofText? text = none ↔
      text.toList.head? ≠ some '#' ∧ ∃ c ∈ text.toList, Text.isBlank c = true := by
  have hblank : Text.hasBlank text = true ↔ ∃ c ∈ text.toList, Text.isBlank c = true :=
    List.any_eq_true
  rw [← hblank]
  by_cases hmark : text.toList.head? = some '#'
  · obtain ⟨name, rfl⟩ := exists_fragment_of_head? hmark
    simp [ofText?_fragment]
  · rw [ofText?_of_head?_ne hmark]
    constructor
    · intro h
      split_ifs at h with _ _ hfound
      exact ⟨hmark, hfound⟩
    · -- URLs and pointers hold no blanks.
      rintro ⟨-, hfound⟩
      have hurl : ¬ Uri.isAbsolute text = true := by simp [Uri.isAbsolute, hfound]
      have hpointer : ¬ Pointer.isPointerText text = true := by
        simp [Pointer.isPointerText_iff, hfound]
      rw [if_neg hurl, if_neg hpointer, if_pos hfound]

/-- A text is refused exactly if it is no fragment and holds a blank. Otherwise it is the
identifier of the one shape that it has, and stays as it is. -/
theorem read_classifies (text : String) :
    (∀ id, read text = .ok id ↔ id.IsShapeOf text ∧ id.toText = text) ∧
      ∀ e, read text = .error e ↔ e = .malformed text ∧ text.toList.head? ≠ some '#' ∧
        ∃ c ∈ text.toList, Text.isBlank c = true := by
  rw [← ofText?_eq_none_iff]
  cases htext : ofText? text with
  | none =>
      have hread : read text = .error (.malformed text) := by rw [read, htext]
      constructor
      · intro id
        rw [hread, ← ofText?_eq_some_iff, htext]
        simp
      · intro e
        rw [hread]
        simp [eq_comm]
  | some found =>
      have hread : read text = .ok found := by rw [read, htext]
      constructor
      · intro id
        rw [hread, ← ofText?_eq_some_iff, htext, Except.ok.injEq, Option.some.injEq]
        refine ⟨?_, fun h => h.1⟩
        rintro rfl
        exact ⟨rfl, toText_of_ofText? htext⟩
      · intro e
        rw [hread]
        simp

example : ofText? "http://?#" = some (.path "http://?#") := by decide +kernel

end SchemaId

end StructuralSchema
