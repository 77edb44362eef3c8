import Mathlib.Data.List.Basic
import Mathlib.Tactic.SplitIfs
import StructuralSchema.Uri.Basic

/-!
# The parts of a URI

The grammar by which the parts of a URI make up its text: each part stands behind its mark and
holds no mark that would end it. A text has at most one scheme, authority, path, query and
fragment by this grammar, and these are the ones that taking it apart gives.
-/

namespace StructuralSchema

namespace Text

variable {stop : Char → Bool} {front back : List Char}

def StartsAt (stop : Char → Bool) (text : List Char) : Prop :=
  ∀ c rest, text = c :: rest → stop c = true

theorem cutAt_append (hfront : ∀ c ∈ front, stop c = false) (hback : StartsAt stop back) :
    cutAt stop (front ++ back) = (front, back) := by
  have hpass : ∀ c ∈ front, (!stop c) = true := by simpa using hfront
  rw [cutAt, List.takeWhile_append_of_pos hpass, List.dropWhile_append_of_pos hpass]
  cases back with
  | nil => simp
  | cons c rest => simp [hback c rest rfl]

theorem append_of_cutAt {text : List Char} (h : cutAt stop text = (front, back)) :
    text = front ++ back ∧ (∀ c ∈ front, stop c = false) ∧ StartsAt stop back := by
  obtain ⟨rfl, rfl⟩ := Prod.mk.inj h
  refine ⟨List.takeWhile_append_dropWhile.symm, ?_, ?_⟩
  · intro c hc
    simpa using List.all_eq_true.mp (List.all_takeWhile (p := fun d => !stop d) (l := text)) c hc
  · intro c rest hrest
    have hhead := List.head?_dropWhile_not (fun d => !stop d) text
    rw [hrest] at hhead
    simpa using hhead

end Text

namespace Uri

/-- A part that stands behind its mark, or is left out together with the mark. -/
inductive Marked (mark : Char) : List Char → List Char → Prop
  | absent : Marked mark [] []
  | present (part : List Char) : Marked mark part (mark :: part)

def endsAuthority (c : Char) : Bool :=
  c = '/' || c = '?' || c = '#'

/-- An authority stands behind two slashes and the path behind it, if it has any segments,
starts with a slash. Without an authority the path does not start with two. -/
inductive Hierarchy : List Char → List Char → List Char → Prop
  | path {path : List Char} (h : ¬ ['/', '/'] <+: path) : Hierarchy [] path path
  | authority {authority path : List Char} (hmarks : ∀ c ∈ authority, endsAuthority c = false)
      (hpath : ∀ c rest, path = c :: rest → c = '/') :
      Hierarchy authority path ('/' :: '/' :: (authority ++ path))

inductive TailIsWrittenAs (uri : Uri) : List Char → Prop
  | parts {hierarchy queryText fragmentText : List Char}
      (hhierarchy : Hierarchy uri.authority uri.path hierarchy)
      (hpath : '?' ∉ uri.path ∧ '#' ∉ uri.path) (hquery : Marked '?' uri.query queryText)
      (hhash : '#' ∉ uri.query) (hfragment : Marked '#' uri.fragment fragmentText) :
      TailIsWrittenAs uri (hierarchy ++ (queryText ++ fragmentText))

def IsWrittenAs (uri : Uri) (text : List Char) : Prop :=
  ∃ rest, text = uri.scheme ++ ':' :: rest ∧ isScheme uri.scheme = true ∧ uri.TailIsWrittenAs rest

variable {uri : Uri} {text : List Char}

theorem colon_notMem_of_isScheme {scheme : List Char} (h : isScheme scheme = true) :
    ':' ∉ scheme := by
  cases scheme with
  | nil => simp
  | cons c rest =>
      obtain ⟨hc, hrest⟩ : c.isAlpha = true ∧ ∀ d ∈ rest, isSchemeChar d = true := by
        simpa [isScheme] using h
      rintro hcolon
      rcases List.mem_cons.mp hcolon with rfl | hcolon
      · exact absurd hc (by decide)
      · exact absurd (hrest ':' hcolon) (by decide)

theorem Marked.drop_one {mark : Char} {part written : List Char} (h : Marked mark part written) :
    written.drop 1 = part := by
  cases h <;> rfl

theorem Marked.startsAt {mark : Char} {part written : List Char} (h : Marked mark part written) :
    Text.StartsAt (· = mark) written := by
  intro c rest hrest
  cases h with
  | absent => cases hrest
  | present => simpa using (List.cons.inj hrest).1.symm

theorem marked_of_startsAt {mark : Char} {written : List Char}
    (h : Text.StartsAt (· = mark) written) : Marked mark (written.drop 1) written := by
  cases written with
  | nil => exact .absent
  | cons c rest =>
      obtain rfl : c = mark := by simpa using h c rest rfl
      exact .present rest

theorem Marked.notMem {mark c : Char} {part written : List Char} (h : Marked mark part written)
    (hmark : c ≠ mark) (hpart : c ∉ part) : c ∉ written := by
  cases h with
  | absent => simp
  | present => simp [hmark, hpart]

theorem cutAt_mark {mark : Char} {front part written : List Char} (hfront : mark ∉ front)
    (h : Marked mark part written) :
    Text.cutAt (· = mark) (front ++ written) = (front, written) := by
  refine Text.cutAt_append ?_ h.startsAt
  intro c hc
  have hne : c ≠ mark := fun heq => hfront (heq ▸ hc)
  simpa using hne

theorem mark_notMem_of_cutAt {mark : Char} {front back : List Char}
    (h : Text.cutAt (· = mark) text = (front, back)) : mark ∉ front := by
  intro hmem
  simpa using (Text.append_of_cutAt h).2.1 mark hmem

/-! ## Taking a text apart -/

section

variable {authority path query queryText fragment fragmentText hierarchy : List Char}

/-- Behind an authority stands nothing or one of the marks that end it. -/
theorem startsAt_path (hpath : ∀ c rest, path = c :: rest → c = '/')
    (hquery : Marked '?' query queryText) (hfragment : Marked '#' fragment fragmentText) :
    Text.StartsAt endsAuthority (path ++ (queryText ++ fragmentText)) := by
  intro c rest hrest
  cases path with
  | nil =>
      cases hquery with
      | absent =>
          have hc : c = '#' := by simpa using hfragment.startsAt c rest hrest
          rw [hc]
          rfl
      | present =>
          obtain ⟨rfl, -⟩ := List.cons.inj hrest
          rfl
  | cons d path =>
      obtain ⟨rfl, -⟩ := List.cons.inj hrest
      rw [hpath d path rfl]
      rfl

theorem Hierarchy.splitAuthority_eq (h : Hierarchy authority path hierarchy)
    (hquery : Marked '?' query queryText) (hfragment : Marked '#' fragment fragmentText) :
    splitAuthority (hierarchy ++ (queryText ++ fragmentText)) =
      (authority, path ++ (queryText ++ fragmentText)) := by
  cases h with
  | path h =>
      unfold splitAuthority
      split
      · rename_i rest heq
        -- No query and no fragment starts with a slash, so both slashes are the path's.
        exfalso
        match path, h, heq with
        | [], _, heq => cases hquery <;> cases hfragment <;> simp at heq
        | [c], _, heq =>
            obtain ⟨rfl, heq⟩ := List.cons.inj heq
            cases hquery <;> cases hfragment <;> simp at heq
        | c :: d :: _, h, heq =>
            simp only [List.cons_append, List.cons.injEq] at heq
            obtain ⟨rfl, rfl, -⟩ := heq
            exact h ⟨_, rfl⟩
      · rfl
  | authority hmarks hstart =>
      simp only [List.cons_append, List.append_assoc, splitAuthority]
      exact Text.cutAt_append hmarks (startsAt_path hstart hquery hfragment)

end

theorem exists_hierarchy_of_splitAuthority {rest authority after : List Char}
    (h : splitAuthority rest = (authority, after)) {path queryText fragmentText : List Char}
    (hafter : after = path ++ (queryText ++ fragmentText)) (hpath : '?' ∉ path ∧ '#' ∉ path) :
    ∃ hierarchy, Hierarchy authority path hierarchy ∧
      rest = hierarchy ++ (queryText ++ fragmentText) := by
  unfold splitAuthority at h
  split at h
  · obtain ⟨rfl, hmarks, hstart⟩ := Text.append_of_cutAt h
    refine ⟨_, .authority hmarks ?_, by simp [hafter]⟩
    rintro c tail rfl
    have hc : endsAuthority c = true := hstart c _ (by simpa using hafter)
    obtain ⟨hquestion, hhash⟩ : c ≠ '?' ∧ c ≠ '#' := by
      simp only [List.mem_cons, not_or] at hpath
      exact ⟨fun heq => hpath.1.1 heq.symm, fun heq => hpath.2.1 heq.symm⟩
    simpa [endsAuthority, hquestion, hhash] using hc
  · rename_i hslashes
    obtain ⟨rfl, rfl⟩ := Prod.mk.inj h
    refine ⟨path, .path ?_, hafter⟩
    rintro ⟨tail, rfl⟩
    exact hslashes _ hafter

theorem exists_tailIsWrittenAs (scheme rest : List Char) :
    ∃ uri : Uri, uri.scheme = scheme ∧ uri.TailIsWrittenAs rest := by
  obtain ⟨authority, after, hsplit⟩ : ∃ authority after, splitAuthority rest = (authority, after) :=
    ⟨_, _, rfl⟩
  obtain ⟨front, fragmentText, hfragment⟩ :
      ∃ front fragmentText, Text.cutAt (· = '#') after = (front, fragmentText) := ⟨_, _, rfl⟩
  obtain ⟨path, queryText, hquery⟩ :
      ∃ path queryText, Text.cutAt (· = '?') front = (path, queryText) := ⟨_, _, rfl⟩
  have hhash := mark_notMem_of_cutAt hfragment
  have hquestion := mark_notMem_of_cutAt hquery
  obtain ⟨hafter, -, hmarked⟩ := Text.append_of_cutAt hfragment
  obtain ⟨rfl, -, hmarkedQuery⟩ := Text.append_of_cutAt hquery
  rw [List.append_assoc] at hafter
  have hpath : '?' ∉ path ∧ '#' ∉ path :=
    ⟨hquestion, fun hc => hhash (List.mem_append_left _ hc)⟩
  obtain ⟨hierarchy, hhierarchy, rfl⟩ := exists_hierarchy_of_splitAuthority hsplit hafter hpath
  refine ⟨⟨scheme, authority, path, queryText.drop 1, fragmentText.drop 1⟩, rfl,
    .parts hhierarchy hpath (marked_of_startsAt hmarkedQuery) ?_ (marked_of_startsAt hmarked)⟩
  exact fun hc => hhash (List.mem_append_right _ (List.mem_of_mem_drop hc))

/-- Taking a text apart gives the parts that make it up, unless the authority among them is
malformed. -/
theorem IsWrittenAs.ofText?_eq (h : uri.IsWrittenAs text) :
    ofText? text = if isAuthority uri.authority then some uri else none := by
  obtain ⟨scheme, authority, path, query, fragment⟩ := uri
  obtain ⟨rest, rfl, hscheme, htail⟩ := h
  obtain @⟨hierarchy, queryText, fragmentText, hhierarchy, hpath, hquery, hhash, hfragment⟩ := htail
  have hcolon := cutAt_mark (colon_notMem_of_isScheme hscheme)
    (.present (hierarchy ++ (queryText ++ fragmentText)))
  have hfragmentCut :=
    cutAt_mark (List.not_mem_append hpath.2 (hquery.notMem (by decide) hhash)) hfragment
  have hqueryCut := cutAt_mark hpath.1 hquery
  rw [List.append_assoc] at hfragmentCut
  simp only [ofText?, hcolon, hscheme, hhierarchy.splitAuthority_eq hquery hfragment,
    hfragmentCut, hqueryCut, hquery.drop_one, hfragment.drop_one, if_true]

theorem ofText?_eq_some_iff :
    ofText? text = some uri ↔ uri.IsWrittenAs text ∧ isAuthority uri.authority = true := by
  constructor
  · intro h
    obtain ⟨scheme, rest, hscheme, rfl⟩ :
        ∃ scheme rest, isScheme scheme = true ∧ text = scheme ++ ':' :: rest := by
      unfold ofText? at h
      split at h
      · cases h
      · rename_i scheme mark rest hcut
        obtain ⟨hwhole, -, hmark⟩ := Text.append_of_cutAt hcut
        obtain rfl : mark = ':' := by simpa using hmark mark rest rfl
        split_ifs at h with hscheme
        exact ⟨scheme, rest, hscheme, hwhole⟩
    obtain ⟨written, rfl, htail⟩ := exists_tailIsWrittenAs scheme rest
    have hwritten : written.IsWrittenAs (written.scheme ++ ':' :: rest) :=
      ⟨rest, rfl, hscheme, htail⟩
    rw [hwritten.ofText?_eq] at h
    split_ifs at h with hauthority
    obtain rfl := Option.some.inj h
    exact ⟨hwritten, hauthority⟩
  · rintro ⟨hwritten, hauthority⟩
    rw [hwritten.ofText?_eq, if_pos hauthority]

/-- A text that can be taken apart is made up of these parts only. -/
theorem IsWrittenAs.eq_of_ofText? {other : Uri} (h : other.IsWrittenAs text)
    (htext : ofText? text = some uri) : other = uri := by
  rw [h.ofText?_eq] at htext
  split_ifs at htext
  exact Option.some.inj htext

theorem isAbsolute_eq_true_iff {text : String} :
    isAbsolute text = true ↔ Text.hasBlank text = false ∧
      ∃ uri : Uri, uri.IsWrittenAs text.toList ∧ isAuthority uri.authority = true ∧
        uri.hasContent = true := by
  unfold isAbsolute
  rw [Bool.and_eq_true, Bool.not_eq_true']
  refine and_congr_right fun _ => ?_
  constructor
  · intro h
    split at h
    · rename_i uri htext
      obtain ⟨hwritten, hauthority⟩ := ofText?_eq_some_iff.mp htext
      exact ⟨uri, hwritten, hauthority, h⟩
    · cases h
  · rintro ⟨uri, hwritten, hauthority, hcontent⟩
    rw [ofText?_eq_some_iff.mpr ⟨hwritten, hauthority⟩]
    exact hcontent

end Uri

end StructuralSchema
