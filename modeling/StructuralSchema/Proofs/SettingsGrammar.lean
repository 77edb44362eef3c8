import Mathlib.Logic.Basic
import StructuralSchema.Proofs.Statuses

/-!
# The grammar of configurations

Which values are configurations, and the settings that they give. Everything else is refused in
words, but for one kind of section: where several names of no settings stand in it that belong
to no common order, they cannot be listed, and loading the configuration breaks down.
-/

namespace StructuralSchema

/-- Keys have no order if there are several of them and no order is that of them all. -/
theorem sortKeys?_eq_none_iff {keys : List Scalar} :
    sortKeys? keys = none ↔
      2 ≤ keys.length ∧ ∀ order, ∃ key ∈ keys, KeyOrder.of? key ≠ some order := by
  match keys with
  | [] => simp [sortKeys?]
  | [key] => simp [sortKeys?]
  | key :: other :: rest =>
      cases hkey : KeyOrder.of? key with
      | none => simp [sortKeys?, hkey]
      | some order =>
          have hnone : sortKeys? (key :: other :: rest) = none ↔
              ∃ k ∈ other :: rest, KeyOrder.of? k ≠ some order := by
            simp only [sortKeys?, hkey]
            split_ifs with hall
            · have hall : ∀ k ∈ other :: rest, KeyOrder.of? k = some order := by simpa using hall
              simpa using hall
            · have hall : ¬ ∀ k ∈ other :: rest, KeyOrder.of? k = some order := by simpa using hall
              simpa only [not_forall, exists_prop, true_iff] using hall
          have hlong : 2 ≤ (key :: other :: rest).length := by simp
          -- The order of all keys could only be that of the first one.
          rw [hnone, and_iff_right hlong]
          constructor
          · rintro ⟨k, hk, hne⟩ o
            by_cases ho : o = order
            · subst ho
              exact ⟨k, List.mem_cons_of_mem _ hk, hne⟩
            · exact ⟨key, List.mem_cons_self, by simpa [hkey] using Ne.symm ho⟩
          · intro h
            obtain ⟨k, hk, hne⟩ := h order
            rcases List.mem_cons.mp hk with rfl | hk
            · exact absurd hkey hne
            · exact ⟨k, hk, hne⟩

namespace Configuration

/-- The limit is the one that is given, which has to be positive, or the usual one. -/
def GivesDepth (found : Option Value) (depth : Int) : Prop :=
  found = none ∧ depth = 32 ∨ found = some (.int depth) ∧ 1 ≤ depth

/-- The policy is the one that a word names, whatever blanks stand around it and whatever case it
is in, or the usual one. -/
def GivesPolicy (found : Option Value) (policy : Validation.Policy) : Prop :=
  found = none ∧ policy = .report ∨
    ∃ word, found = some (.str word) ∧ Text.lowerAscii (Text.trimBlanks word) = policy.text

/-- The value is a configuration with these settings. -/
inductive GivesSettings (v : Value) : Validation.Settings → Prop
  | empty (h : v.unlooped = .null) : GivesSettings v ⟨32, .report⟩
  | bare {root : Members} (h : v.unlooped = .obj root)
      (hsection : ∀ content, lookup "validation" root = some content → content.unlooped = .null) :
      GivesSettings v ⟨32, .report⟩
  | given {root members : Members} {content : Value} {depth : Int} {policy : Validation.Policy}
      (h : v.unlooped = .obj root) (hsection : lookup "validation" root = some content)
      (hcontent : content.unlooped = .obj members)
      (hnames : ∀ m ∈ members, m.1 = .str "max_reference_depth" ∨ m.1 = .str "unsupported_keywords")
      (hdepth : GivesDepth (lookup "max_reference_depth" members) depth)
      (hpolicy : GivesPolicy (lookup "unsupported_keywords" members) policy) :
      GivesSettings v ⟨depth, policy⟩

/-- In the section stand several names of no settings, and no order is that of them all. -/
def HasMixedNames (v : Value) : Prop :=
  ∃ root content members, v.unlooped = .obj root ∧ lookup "validation" root = some content ∧
    content.unlooped = .obj members ∧ 2 ≤ (unknownNames members).length ∧
    ∀ order, ∃ name ∈ unknownNames members, KeyOrder.of? name ≠ some order

theorem hasUnorderedSettings_iff {v : Value} :
    CommandLine.HasUnorderedSettings v ↔ HasMixedNames v := by
  constructor
  · rintro ⟨root, members, hroot, hsection, hsort⟩
    obtain ⟨content, hlookup, hcontent⟩ := Option.map_eq_some_iff.mp hsection
    exact ⟨root, content, members, hroot, hlookup, hcontent, sortKeys?_eq_none_iff.mp hsort⟩
  · rintro ⟨root, content, members, hroot, hlookup, hcontent, hmixed⟩
    refine ⟨root, members, hroot, ?_, sortKeys?_eq_none_iff.mpr hmixed⟩
    rw [hlookup, Option.map_some, hcontent]

theorem depthOf_eq_ok_iff {found : Option Value} {depth : Int} :
    depthOf found = .ok depth ↔ GivesDepth found depth := by
  unfold depthOf GivesDepth
  split
  · simp [eq_comm]
  · rename_i given
    split_ifs with hle
    · suffices ¬ (given = depth ∧ 1 ≤ depth) by simpa using this
      omega
    · suffices given = depth ↔ given = depth ∧ 1 ≤ depth by simpa using this
      omega
  · rename_i v hv
    have hne : v ≠ .int depth := hv depth
    simp [hne]

theorem ofText?_eq_some_iff {text : String} {policy : Validation.Policy} :
    Validation.Policy.ofText? text = some policy ↔ text = policy.text := by
  constructor
  · intro h
    have htext := List.find?_some h
    exact (beq_iff_eq.mp htext).symm
  · rintro rfl
    cases policy <;> decide

theorem policyOf_eq_ok_iff {found : Option Value} {policy : Validation.Policy} :
    policyOf found = .ok policy ↔ GivesPolicy found policy := by
  unfold policyOf GivesPolicy
  split
  · simp [eq_comm]
  · rename_i word
    suffices _ ↔ Text.lowerAscii (Text.trimBlanks word) = policy.text by simpa using this
    rw [← ofText?_eq_some_iff]
    cases Validation.Policy.ofText? (Text.lowerAscii (Text.trimBlanks word)) <;> simp
  · rename_i v hv
    have hne : ∀ word, v ≠ .str word := hv
    simp [hne]

theorem unknownNames_eq_nil_iff {members : Members} :
    unknownNames members = [] ↔
      ∀ m ∈ members, m.1 = .str "max_reference_depth" ∨ m.1 = .str "unsupported_keywords" := by
  simp [unknownNames, settingNames, List.filter_eq_nil_iff, Classical.or_iff_not_imp_left]

theorem settingsOfMembers_eq_ok_iff {members : Members} {depth : Int}
    {policy : Validation.Policy} :
    settingsOfMembers members = .ok ⟨depth, policy⟩ ↔
      (∀ m ∈ members, m.1 = .str "max_reference_depth" ∨ m.1 = .str "unsupported_keywords") ∧
        GivesDepth (lookup "max_reference_depth" members) depth ∧
        GivesPolicy (lookup "unsupported_keywords" members) policy := by
  rw [← unknownNames_eq_nil_iff, ← depthOf_eq_ok_iff, ← policyOf_eq_ok_iff]
  unfold settingsOfMembers
  split
  · rename_i hnames
    rw [hnames]
    cases depthOf (lookup "max_reference_depth" members) <;>
      cases policyOf (lookup "unsupported_keywords" members) <;>
      simp [bind, Except.bind, pure, Except.pure]
  · rename_i hnames
    have hne : unknownNames members ≠ [] := hnames
    cases sortKeys? (unknownNames members) <;> simp [hne]

theorem settingsOf_eq_ok_iff {v : Value} {settings : Validation.Settings} :
    settingsOf v = .ok settings ↔ GivesSettings v settings := by
  constructor
  · intro h
    unfold settingsOf at h
    split at h
    · rename_i hnull
      obtain rfl := Except.ok.inj h
      exact .empty hnull
    · rename_i root hroot
      unfold settingsOfSection at h
      cases hlookup : lookup "validation" root with
      | none =>
          obtain rfl : ({} : Validation.Settings) = settings := by simpa [hlookup] using h
          exact .bare hroot (by simp [hlookup])
      | some content =>
          rw [hlookup, Option.map_some] at h
          split at h
          · rename_i hnone
            cases hnone
          · rename_i hnull
            obtain rfl := Except.ok.inj h
            refine .bare hroot fun other hother => ?_
            obtain rfl : content = other := by simpa [hlookup] using hother
            exact Option.some.inj hnull
          · rename_i members hcontent
            obtain ⟨hnames, hdepth, hpolicy⟩ := settingsOfMembers_eq_ok_iff.mp h
            exact .given hroot hlookup (Option.some.inj hcontent) hnames hdepth hpolicy
          · cases h
    · cases h
  · intro h
    cases h with
    | empty hnull => simp [settingsOf, hnull]
    | @bare root hroot hsection =>
        simp only [settingsOf, hroot, settingsOfSection]
        cases hlookup : lookup "validation" root with
        | none => rfl
        | some content => simp [hsection content hlookup]
    | @given root members content depth policy hroot hsection hcontent hnames hdepth hpolicy =>
        simp only [settingsOf, hroot, settingsOfSection, hsection, Option.map_some, hcontent]
        exact settingsOfMembers_eq_ok_iff.mpr ⟨hnames, hdepth, hpolicy⟩

theorem GivesSettings.one_le {v : Value} {settings : Validation.Settings}
    (h : GivesSettings v settings) : 1 ≤ settings.maxReferenceDepth := by
  cases h with
  | empty => simp
  | bare => simp
  | given _ _ _ _ hdepth =>
      rcases hdepth with ⟨-, rfl⟩ | ⟨-, hle⟩
      · simp
      · exact hle

section File

variable {host : Host} {path : FilePath} {text : String} {v : Value}

theorem load_eq_map (htext : host.text path = .ok text) (hv : host.readYaml text = .ok v) :
    load host path = (settingsOf v).map fun settings => ⟨some path, settings⟩ := by
  simp only [load, htext, settingsOfText, hv]

theorem load_eq_ok_iff (htext : host.text path = .ok text) (hv : host.readYaml text = .ok v)
    {c : Configuration} :
    load host path = .ok c ↔ c.path = some path ∧ GivesSettings v c.settings := by
  rw [load_eq_map htext hv, ← settingsOf_eq_ok_iff]
  constructor
  · intro h
    cases hsettings : settingsOf v with
    | error e => simp [hsettings, Except.map] at h
    | ok settings =>
        obtain rfl : ⟨some path, settings⟩ = c := by simpa [hsettings, Except.map] using h
        exact ⟨rfl, rfl⟩
  · obtain ⟨source, settings⟩ := c
    rintro ⟨rfl, hsettings⟩
    simp only at hsettings
    rw [hsettings]
    rfl

/-- The configuration at a path is loaded exactly if what it holds gives settings, which become
those in force and allow at least one reference. A configuration that gives none is refused in
words, unless names are mixed in its section: then it is not, and loading it breaks down. -/
theorem load_of_parse (htext : host.text path = .ok text) (hv : host.readYaml text = .ok v) :
    (∀ c, load host path = .ok c ↔ c.path = some path ∧ GivesSettings v c.settings) ∧
      (∀ c, load host path = .ok c → 1 ≤ c.settings.maxReferenceDepth) ∧
      ((∃ e reason, load host path = .error e ∧ e.explain = .ok reason) ↔
        (¬ ∃ settings, GivesSettings v settings) ∧ ¬ HasMixedNames v) ∧
      (HasMixedNames v → load host path = .error (.unusable .unorderedSettings)) := by
  have hload := load_eq_map htext hv
  have hmixed : HasMixedNames v → load host path = .error (.unusable .unorderedSettings) := by
    intro h
    rw [hload, (hasUnorderedSettings_iff.mpr h).settingsOf_eq]
    rfl
  refine ⟨fun c => load_eq_ok_iff htext hv, ?_, ⟨?_, ?_⟩, hmixed⟩
  · intro c h
    exact ((load_eq_ok_iff htext hv).mp h).2.one_le
  · rintro ⟨e, reason, he, hreason⟩
    constructor
    · rintro ⟨settings, hsettings⟩
      rw [(load_eq_ok_iff htext hv (c := ⟨some path, settings⟩)).mpr ⟨rfl, hsettings⟩] at he
      cases he
    · intro h
      obtain rfl := Except.error.inj (he.symm.trans (hmixed h))
      cases hreason
  · rintro ⟨hnone, hordered⟩
    cases hsettings : settingsOf v with
    | ok settings => exact absurd ⟨settings, settingsOf_eq_ok_iff.mp hsettings⟩ hnone
    | error e =>
        rcases CommandLine.explained_or_unordered hsettings with ⟨reason, hreason⟩ | ⟨-, h⟩
        · exact ⟨e, reason, by rw [hload, hsettings, Except.map], hreason⟩
        · exact absurd (hasUnorderedSettings_iff.mp h) hordered

theorem text_of_toOption {disk : Disk} (h : (disk.text path).toOption = some text) :
    disk.text path = .ok text := by
  cases htext : disk.text path with
  | error e =>
      rw [htext] at h
      cases h
  | ok found =>
      rw [htext] at h
      exact congrArg Except.ok (Option.some.inj h)

end File

def settingsDisk : Disk where
  entry path :=
    if path.toText = "c.yaml" then
      .file (CommandLine.plainOctets
        "validation: \x7bmax_reference_depth: 7, unsupported_keywords: Ignore \x7d\n")
    else .absent

theorem settingsDisk_loaded :
    ∃ text v, settingsDisk.text (.ofText "c.yaml") = .ok text ∧
      Host.readYaml settingsDisk text = .ok v ∧
      GivesSettings v ⟨7, .ignore⟩ ∧
      load settingsDisk (.ofText "c.yaml") = .ok ⟨some (.ofText "c.yaml"), ⟨7, .ignore⟩⟩ := by
  have htext : settingsDisk.text (.ofText "c.yaml") =
      .ok "validation: \x7bmax_reference_depth: 7, unsupported_keywords: Ignore \x7d\n" :=
    text_of_toOption (by decide +kernel)
  have hsettings : settingsOfText settingsDisk
      "validation: \x7bmax_reference_depth: 7, unsupported_keywords: Ignore \x7d\n" =
        .ok ⟨7, .ignore⟩ := by
    decide +kernel
  unfold settingsOfText at hsettings
  split at hsettings
  · rename_i v hv
    have hgives := settingsOf_eq_ok_iff.mp hsettings
    exact ⟨_, v, htext, hv, hgives, ((load_of_parse htext hv).1 _).mpr ⟨rfl, hgives⟩⟩
  · cases hsettings
  · cases hsettings

def mixedNamesDisk : Disk where
  entry path :=
    if path.toText = "c.yaml" then
      .file (CommandLine.plainOctets "validation: \x7b1: x, a: y\x7d\n")
    else .absent

/-- Names without a common order are not refused in words. -/
theorem mixedNamesDisk_breaks :
    ¬ ∀ (host : Host) (path : FilePath) (text : String) (v : Value),
      host.text path = .ok text → host.readYaml text = .ok v →
        (∃ c, load host path = .ok c) ∨
          ∃ e reason, load host path = .error e ∧ e.explain = .ok reason := by
  intro h
  have htext : mixedNamesDisk.text (.ofText "c.yaml") =
      .ok "validation: \x7b1: x, a: y\x7d\n" :=
    text_of_toOption (by decide +kernel)
  have hload : load mixedNamesDisk (.ofText "c.yaml") = .error (.unusable .unorderedSettings) := by
    decide +kernel
  cases hv : Host.readYaml mixedNamesDisk "validation: \x7b1: x, a: y\x7d\n" with
  | error e =>
      have hparses : (Host.readYaml mixedNamesDisk
          "validation: \x7b1: x, a: y\x7d\n").toBool = true := by
        decide +kernel
      rw [hv] at hparses
      cases hparses
  | ok v =>
      rcases h mixedNamesDisk _ _ v htext hv with ⟨c, hc⟩ | ⟨e, reason, he, hreason⟩
      · rw [hload] at hc
        cases hc
      · obtain rfl := Except.error.inj (he.symm.trans hload)
        cases hreason

end Configuration

end StructuralSchema
