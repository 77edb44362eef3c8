import StructuralSchema.Proofs.Decoding
import StructuralSchema.Proofs.RoundTrip
import StructuralSchema.Proofs.UriParts

/-!
# Drafts

The draft of a schema is looked for in the path of its dialect. Whatever was read as a dialect
can be taken apart, so looking for the draft does not fail on any schema that was read, and it
finds the first segment of the path where there is one.
-/

namespace StructuralSchema

namespace Uri

/-- The path has a first segment that is not empty, and this is its name. -/
def StartsWithSegment (uri : Uri) (name : String) : Prop :=
  name ≠ "" ∧ '/' ∉ name.toList ∧
    ∃ after, uri.path = '/' :: (name.toList ++ after) ∧ (after = [] ∨ after.head? = some '/')

theorem startsAt_slash_iff {after : List Char} :
    Text.StartsAt (· = '/') after ↔ after = [] ∨ after.head? = some '/' := by
  cases after with
  | nil => simp [Text.StartsAt]
  | cons c rest => simp [Text.StartsAt]

theorem cutAt_slash (rest : List Char) :
    Text.cutAt (· = '/') rest = (rest.takeWhile (· ≠ '/'), rest.dropWhile (· ≠ '/')) := by
  simp [Text.cutAt]

theorem firstSegment?_eq_some_iff {uri : Uri} {name : String} :
    uri.firstSegment? = some name ↔ uri.StartsWithSegment name := by
  constructor
  · intro h
    unfold firstSegment? at h
    split at h
    · rename_i rest hpath
      split at h
      · cases h
      · rename_i hne
        obtain rfl := Option.some.inj h
        obtain ⟨hrest, -, hafter⟩ := Text.append_of_cutAt (cutAt_slash rest)
        have hslash := mark_notMem_of_cutAt (cutAt_slash rest)
        refine ⟨by simpa using hne, by simpa using hslash, rest.dropWhile (· ≠ '/'), ?_,
          startsAt_slash_iff.mp hafter⟩
        rw [hpath, String.toList_ofList, ← hrest]
    · cases h
  · rintro ⟨hne, hslash, after, hpath, hafter⟩
    have hcut : Text.cutAt (· = '/') (name.toList ++ after) = (name.toList, after) := by
      refine Text.cutAt_append ?_ (startsAt_slash_iff.mpr hafter)
      intro c hc
      have hother : c ≠ '/' := fun heq => hslash (heq ▸ hc)
      simpa using hother
    rw [cutAt_slash] at hcut
    unfold firstSegment?
    rw [hpath]
    simp only [(Prod.mk.inj hcut).1]
    split
    · rename_i hnil
      exact absurd (String.toList_inj.mp hnil) hne
    · rw [String.ofList_toList]

end Uri

namespace Schema

/-- The document gives a dialect whose path starts with this segment. -/
def GivesDraft (v : Value) (name : String) : Prop :=
  ∃ members dialect uri, v.unlooped = .obj members ∧
    lookup "$schema" members = some (.str dialect) ∧ Uri.IsWrittenAs uri dialect.toList ∧
    uri.StartsWithSegment name

theorem dialect_eq_some_iff {place : Pointer} {members : Members} {dialect : Option String}
    (h : decodeDialect place members = .ok dialect) {text : String} :
    dialect = some text ↔ lookup "$schema" members = some (.str text) := by
  unfold decodeDialect at h
  cases hlookup : lookup "$schema" members with
  | none =>
      obtain rfl : none = dialect := by simpa [hlookup] using h
      simp
  | some v =>
      rw [hlookup, Option.getD_some] at h
      split at h
      · obtain rfl : none = dialect := by simpa using h
        simp
      · split_ifs at h
        · obtain rfl := Except.ok.inj h
          simp
        · simp [refuse] at h
      · simp [refuse] at h

theorem exists_uri_of_regular {d : Definition} (hd : d.Regular) {dialect : String}
    (h : d.dialect = some dialect) :
    ∃ uri, Uri.ofText? dialect.toList = some uri ∧ uri.IsWrittenAs dialect.toList := by
  obtain ⟨-, hdialect, -, -⟩ := hd
  obtain ⟨-, uri, hwritten, hauthority, -⟩ := Uri.isAbsolute_eq_true_iff.mp (hdialect dialect h)
  exact ⟨uri, Uri.ofText?_eq_some_iff.mpr ⟨hwritten, hauthority⟩, hwritten⟩

theorem givesDraft_iff {v : Value} {members : Members} {d : Definition} {name : String}
    (hv : v.unlooped = .obj members) (hd : ReadFrom .root members d) :
    GivesDraft v name ↔ ∃ dialect uri, d.dialect = some dialect ∧
      Uri.IsWrittenAs uri dialect.toList ∧ uri.StartsWithSegment name := by
  constructor
  · rintro ⟨others, dialect, uri, hobj, hlookup, hrest⟩
    rw [hv] at hobj
    obtain rfl : members = others := by simpa using hobj
    exact ⟨dialect, uri, (dialect_eq_some_iff hd.dialect).mpr hlookup, hrest⟩
  · rintro ⟨dialect, uri, hdialect, hrest⟩
    exact ⟨members, dialect, uri, hv, (dialect_eq_some_iff hd.dialect).mp hdialect, hrest⟩

/-- Looking for the draft of a schema that was read does not fail. It finds the first segment of
the path of the dialect, and nothing where there is none. -/
theorem draft_of_decode {v : Value} {s : Schema} (h : decode v = .ok s) :
    s.draft = .ok s.draft? ∧ ∀ name, s.draft? = some name ↔ GivesDraft v name := by
  rcases unlooped_eq_obj_or_bool_of_decode h with ⟨b, hv, rfl⟩ | ⟨members, d, hv, rfl, hd⟩
  · have hnone : ∀ name, ¬ GivesDraft v name := by
      rintro name ⟨members, -, -, hobj, -⟩
      rw [hv] at hobj
      cases hobj
    exact ⟨rfl, fun name => iff_of_false (by simp [draft?, draft, definition?]) (hnone name)⟩
  · have hread := readFrom_of_decodeDefinition hd
    cases hcase : d.dialect with
    | none =>
        have hdraft : (definition d).draft = .ok none := by simp [draft, definition?, hcase]
        refine ⟨by rw [draft?, hdraft], fun name => ?_⟩
        rw [draft?, hdraft, givesDraft_iff hv hread, hcase]
        simp
    | some dialect =>
        -- What was decoded as a dialect is a URL, so it can be taken apart again.
        obtain ⟨uri, huri, hwritten⟩ :=
          exists_uri_of_regular ((readsRegularDefinition _).1 _ _ hd) hcase
        have hdraft : (definition d).draft = .ok uri.firstSegment? := by
          simp [draft, definition?, hcase, huri]
        refine ⟨by rw [draft?, hdraft], fun name => ?_⟩
        rw [draft?, hdraft, Uri.firstSegment?_eq_some_iff, givesDraft_iff hv hread]
        constructor
        · exact fun hname => ⟨dialect, uri, hcase, hwritten, hname⟩
        · rintro ⟨other, found, hother, hfound, hname⟩
          obtain rfl := Option.some.inj (hcase.symm.trans hother)
          rwa [← hfound.eq_of_ofText? huri]

def bracketedDialect : Value :=
  .obj [(.str "$schema", .str "http://me@[::1]:80/draft-07//x?y=/z#/w"), (.str "type", .str "null")]

theorem bracketedDialect_draft :
    ∃ s, decode bracketedDialect = .ok s ∧ s.draft = .ok (some "draft-07") := by
  obtain ⟨s, hs⟩ : ∃ s, decode bracketedDialect = .ok s := ⟨_, rfl⟩
  obtain ⟨hdraft, hname⟩ := draft_of_decode hs
  have huri : Uri.IsWrittenAs ⟨"http".toList, "me@[::1]:80".toList, "/draft-07//x".toList,
      "y=/z".toList, "/w".toList⟩ "http://me@[::1]:80/draft-07//x?y=/z#/w".toList := by
    refine ⟨_, rfl, by decide, .parts (.authority ?_ ?_) (by decide) (.present _) (by decide)
      (.present _)⟩
    · simp [Uri.endsAuthority]
    · intro c rest h
      have hhead : some '/' = some c := congrArg List.head? h
      exact (Option.some.inj hhead).symm
  refine ⟨s, hs, ?_⟩
  rw [hdraft, (hname "draft-07").mpr ?_]
  exact ⟨_, _, _, rfl, rfl, huri, by decide, by decide, "//x".toList, rfl, .inr rfl⟩

end Schema

end StructuralSchema
