import Mathlib.Tactic.SplitIfs
import StructuralSchema.CommandLine.Outcome

/-!
# What is refused and what breaks

What a command does with a file depends on what lies at its path. A file that is no document
or no schema is refused for a reason, which the user is told. Other files are not refused
though nothing can be made of them: a configuration that is no text, or a document with values or
names that no JSON document has. With these the program breaks down.
-/

namespace StructuralSchema.CommandLine

section Files

variable {host : Host} {path : FilePath}

/-- There is no document at the path, for this reason. -/
inductive DocumentRefused (host : Host) (path : FilePath) : String → Prop
  | missing (h : host.entry path = .absent ∨ host.entry path = .blocked) :
      DocumentRefused host path ("Document file not found: " ++ path.toText)
  | directory (h : host.entry path = .directory) :
      DocumentRefused host path ("Failed to read document " ++ path.toText ++ ": " ++
        SystemFault.isDirectory.message path)
  | notUtf8 {octets : List UInt8} {e : Text.EncodingError} (h : host.entry path = .file octets)
      (he : Text.decodeUtf8 octets = .error e) :
      DocumentRefused host path ("Failed to read document " ++ path.toText ++ ": " ++ e.message)
  | malformed {text words : String} (htext : host.text path = .ok text)
      (he : host.readerOf path text = .error (.malformed words)) :
      DocumentRefused host path
        ("Invalid " ++ formatName path ++ " in " ++ path.toText ++ ": " ++ words)

/-- The path cannot be looked at, or the reader breaks down at the text there. -/
inductive DocumentBreaks (host : Host) (path : FilePath) : Prop
  | overlong (h : host.entry path = .overlong)
  | reader {text : String} {fault : Yaml.Fault} (htext : host.text path = .ok text)
      (he : host.readerOf path text = .error (.fault fault))

/-- There is no schema at the path, for this reason. -/
inductive SchemaRefused (host : Host) (path : FilePath) : String → Prop
  | document {reason : String} (h : DocumentRefused host path reason) :
      SchemaRefused host path reason
  | grammar {v : Value} {e : SchemaError} {reason : String} (hv : readDocument host path = .ok v)
      (he : Schema.decode v = .error e) (hreason : e.message? = some reason) :
      SchemaRefused host path reason

/-- The document at the path has a name that is no text where a schema has names, or holds
itself where a schema has parts. -/
inductive SchemaBreaks (host : Host) (path : FilePath) : Prop
  | document (h : DocumentBreaks host path)
  | keyNotText {v : Value} {place : Pointer} {key : Scalar} (hv : readDocument host path = .ok v)
      (he : Schema.decode v = .error (.keyNotText place key))
  | endless {v : Value} (hv : readDocument host path = .ok v)
      (he : Schema.decode v = .error .endless)

/-- Among the members of the section for validation are names of no settings, and they cannot
be put in order. -/
def HasUnorderedSettings (v : Value) : Prop :=
  ∃ root members, v.unlooped = .obj root ∧
    (lookup "validation" root).map Value.unlooped = some (.obj members) ∧
    sortKeys? (Configuration.unknownNames members) = none

/-- There is no configuration at the path, for this reason. -/
inductive ConfigurationRefused (host : Host) (path : FilePath) : String → Prop
  | missing (h : host.entry path = .absent ∨ host.entry path = .blocked) :
      ConfigurationRefused host path ("Configuration file not found: " ++ path.toText)
  | notYaml {text words : String} (htext : host.text path = .ok text)
      (he : host.readYaml text = .error (.malformed words)) :
      ConfigurationRefused host path ("Failed to parse configuration file: " ++ words)
  | notSettings {text : String} {v : Value} {e : ConfigurationError} {reason : String}
      (htext : host.text path = .ok text) (hv : host.readYaml text = .ok v)
      (he : Configuration.settingsOf v = .error e) (hreason : e.explain = .ok reason) :
      ConfigurationRefused host path reason

/-- The path of the configuration cannot be read as a text, the reader breaks down at the text, or
unknown settings are to be listed that have no order. -/
inductive ConfigurationBreaks (host : Host) (path : FilePath) : Prop
  | directory (h : host.entry path = .directory)
  | overlong (h : host.entry path = .overlong)
  | notUtf8 {octets : List UInt8} {e : Text.EncodingError} (h : host.entry path = .file octets)
      (he : Text.decodeUtf8 octets = .error e)
  | reader {text : String} {fault : Yaml.Fault} (htext : host.text path = .ok text)
      (he : host.readYaml text = .error (.fault fault))
  | unordered {text : String} {v : Value} (htext : host.text path = .ok text)
      (hv : host.readYaml text = .ok v) (hnames : HasUnorderedSettings v)

def LiesThere (disk : Disk) (path : FilePath) : TextError → Prop
  | .missing => disk.entry path = .absent ∨ disk.entry path = .blocked
  | .directory => disk.entry path = .directory
  | .overlongName => disk.entry path = .overlong
  | .encoding e => ∃ octets, disk.entry path = .file octets ∧ Text.decodeUtf8 octets = .error e

theorem text_eq_error_iff {disk : Disk} {e : TextError} :
    disk.text path = .error e ↔ LiesThere disk path e := by
  unfold Disk.text
  cases hentry : disk.entry path with
  | file octets =>
      cases hread : Text.decodeUtf8 octets <;> cases e <;> simp [LiesThere, hentry, hread]
  | _ => cases e <;> simp [LiesThere, hentry]

theorem documentRefused_or_breaks {e : LoadError} (h : readDocument host path = .error e) :
    (∃ reason, loadFailure e = .message reason ∧ DocumentRefused host path reason) ∨
      ∃ cause, loadFailure e = .breakdown cause ∧ DocumentBreaks host path := by
  unfold readDocument at h
  cases htext : host.text path with
  | error error =>
      have hthere := text_eq_error_iff.mp htext
      cases error with
      | missing =>
          obtain rfl : .notFound path = e := by simpa [htext] using h
          exact .inl ⟨_, rfl, .missing hthere⟩
      | directory =>
          obtain rfl : .directory path = e := by simpa [htext] using h
          exact .inl ⟨_, rfl, .directory hthere⟩
      | overlongName =>
          obtain rfl : .unusable .overlongName = e := by simpa [htext] using h
          exact .inr ⟨_, rfl, .overlong hthere⟩
      | encoding error =>
          obtain ⟨octets, hentry, he⟩ := hthere
          obtain rfl : .encoding path error = e := by simpa [htext] using h
          exact .inl ⟨_, rfl, .notUtf8 hentry he⟩
  | ok text =>
      simp only [htext] at h
      cases hread : host.readerOf path text with
      | ok v => simp [hread] at h
      | error error =>
          cases error with
          | malformed words =>
              obtain rfl : .malformed path words = e := by simpa [hread] using h
              exact .inl ⟨_, rfl, .malformed htext hread⟩
          | fault fault =>
              obtain rfl : .unusable (.badScalar fault) = e := by simpa [hread] using h
              exact .inr ⟨_, rfl, .reader htext hread⟩

theorem DocumentRefused.readDocument_eq {reason : String} (h : DocumentRefused host path reason) :
    ∃ e, readDocument host path = .error e ∧ loadFailure e = .message reason := by
  unfold readDocument
  cases h with
  | missing h =>
      rw [text_eq_error_iff (e := .missing) |>.mpr h]
      exact ⟨_, rfl, rfl⟩
  | directory h =>
      rw [text_eq_error_iff (e := .directory) |>.mpr h]
      exact ⟨_, rfl, rfl⟩
  | @notUtf8 octets e h he =>
      rw [text_eq_error_iff (e := .encoding e) |>.mpr ⟨octets, h, he⟩]
      exact ⟨_, rfl, rfl⟩
  | malformed htext he =>
      simp only [htext, he]
      exact ⟨_, rfl, rfl⟩

theorem DocumentBreaks.readDocument_eq (h : DocumentBreaks host path) :
    ∃ e cause, readDocument host path = .error e ∧ loadFailure e = .breakdown cause := by
  unfold readDocument
  cases h with
  | overlong h =>
      rw [text_eq_error_iff (e := .overlongName) |>.mpr h]
      exact ⟨_, _, rfl, rfl⟩
  | reader htext he =>
      simp only [htext, he]
      exact ⟨_, _, rfl, rfl⟩

/-! ## Schemas -/

variable {name : String}

theorem schemaRefused_or_breaks {f : Failure} (h : schema host name = .error f) :
    (∃ reason, f = .message reason ∧ SchemaRefused host (.ofText name) reason) ∨
      ∃ cause, f = .breakdown cause ∧ SchemaBreaks host (.ofText name) := by
  unfold schema loadSchema at h
  cases hread : readDocument host (.ofText name) with
  | error e =>
      obtain rfl : loadFailure e = f := by simpa [hread, schemaFailure] using h
      rcases documentRefused_or_breaks hread with ⟨reason, hreason, hrefused⟩ |
        ⟨cause, hcause, hbreaks⟩
      · exact .inl ⟨reason, hreason, .document hrefused⟩
      · exact .inr ⟨cause, hcause, .document hbreaks⟩
  | ok v =>
      cases hdecode : Schema.decode v with
      | ok s => simp [hread, hdecode] at h
      | error e =>
          obtain rfl : schemaFailure (.schema e) = f := by simpa [hread, hdecode] using h
          cases e with
          | keyNotText place key => exact .inr ⟨_, rfl, .keyNotText hread hdecode⟩
          | endless => exact .inr ⟨_, rfl, .endless hread hdecode⟩
          | notJson error => exact .inl ⟨_, rfl, .grammar hread hdecode rfl⟩
          | notText error => exact .inl ⟨_, rfl, .grammar hread hdecode rfl⟩
          | badRoot found => exact .inl ⟨_, rfl, .grammar hread hdecode rfl⟩
          | complaint place wrong => exact .inl ⟨_, rfl, .grammar hread hdecode rfl⟩

theorem SchemaRefused.schema_eq {reason : String} (h : SchemaRefused host (.ofText name) reason) :
    schema host name = .error (.message reason) := by
  unfold schema loadSchema
  cases h with
  | document h =>
      obtain ⟨e, hread, hreason⟩ := h.readDocument_eq
      simp only [hread, schemaFailure, hreason]
  | @grammar v e _ hv he hreason =>
      simp only [hv, he]
      cases e with
      | keyNotText place key => cases hreason
      | endless => cases hreason
      | _ => simp only [schemaFailure, hreason]

theorem SchemaBreaks.schema_eq (h : SchemaBreaks host (.ofText name)) :
    ∃ cause, schema host name = .error (.breakdown cause) := by
  unfold schema loadSchema
  cases h with
  | document h =>
      obtain ⟨e, cause, hread, hcause⟩ := h.readDocument_eq
      simp only [hread, schemaFailure, hcause]
      exact ⟨_, rfl⟩
  | keyNotText hv he =>
      simp only [hv, he]
      exact ⟨_, rfl⟩
  | endless hv he =>
      simp only [hv, he]
      exact ⟨_, rfl⟩

/-! ## Configurations -/

theorem explained_of_depthOf {found : Option Value} {e : ConfigurationError}
    (h : Configuration.depthOf found = .error e) : ∃ reason, e.explain = .ok reason := by
  unfold Configuration.depthOf at h
  split at h
  · cases h
  · split_ifs at h
    obtain rfl := Except.error.inj h
    exact ⟨_, rfl⟩
  · obtain rfl := Except.error.inj h
    exact ⟨_, rfl⟩

theorem explained_of_policyOf {found : Option Value} {e : ConfigurationError}
    (h : Configuration.policyOf found = .error e) : ∃ reason, e.explain = .ok reason := by
  unfold Configuration.policyOf at h
  split at h
  · cases h
  · split at h
    · cases h
    · obtain rfl := Except.error.inj h
      exact ⟨_, rfl⟩
  · obtain rfl := Except.error.inj h
    exact ⟨_, rfl⟩

theorem explained_or_unsorted {members : Members} {e : ConfigurationError}
    (h : Configuration.settingsOfMembers members = .error e) :
    (∃ reason, e.explain = .ok reason) ∨
      e = .unusable .unorderedSettings ∧ sortKeys? (Configuration.unknownNames members) = none := by
  unfold Configuration.settingsOfMembers at h
  split at h
  · left
    cases hdepth : Configuration.depthOf (lookup "max_reference_depth" members) with
    | error error =>
        obtain rfl : error = e := by simpa [hdepth, bind, Except.bind] using h
        exact explained_of_depthOf hdepth
    | ok depth =>
        cases hpolicy : Configuration.policyOf (lookup "unsupported_keywords" members) with
        | error error =>
            obtain rfl : error = e := by simpa [hdepth, hpolicy, bind, Except.bind] using h
            exact explained_of_policyOf hpolicy
        | ok policy => simp [hdepth, hpolicy, bind, Except.bind, pure, Except.pure] at h
  · split at h
    · obtain rfl := Except.error.inj h
      exact .inl ⟨_, rfl⟩
    · rename_i hsort
      exact .inr ⟨(Except.error.inj h).symm, hsort⟩

/-- What is wrong with the settings in a value can be said, unless they cannot be listed. -/
theorem explained_or_unordered {v : Value} {e : ConfigurationError}
    (h : Configuration.settingsOf v = .error e) :
    (∃ reason, e.explain = .ok reason) ∨
      e = .unusable .unorderedSettings ∧ HasUnorderedSettings v := by
  unfold Configuration.settingsOf at h
  split at h
  · cases h
  · rename_i root hroot
    unfold Configuration.settingsOfSection at h
    split at h
    · cases h
    · cases h
    · rename_i members hsection
      refine (explained_or_unsorted h).imp id ?_
      rintro ⟨he, hsort⟩
      exact ⟨he, root, members, hroot, hsection, hsort⟩
    · obtain rfl := Except.error.inj h
      exact .inl ⟨_, rfl⟩
  · obtain rfl := Except.error.inj h
    exact .inl ⟨_, rfl⟩

theorem HasUnorderedSettings.settingsOf_eq {v : Value} (h : HasUnorderedSettings v) :
    Configuration.settingsOf v = .error (.unusable .unorderedSettings) := by
  obtain ⟨root, members, hroot, hsection, hsort⟩ := h
  -- No names at all would be in order.
  have hnames : Configuration.unknownNames members ≠ [] := by
    intro hnil
    rw [hnil] at hsort
    cases hsort
  simp only [Configuration.settingsOf, hroot, Configuration.settingsOfSection, hsection,
    Configuration.settingsOfMembers, hsort]

theorem configurationRefused_or_breaks {config : Option String} {f : Failure}
    (h : configuration host config = .error f) :
    ∃ name, config = some name ∧
      ((∃ reason, f = .message reason ∧ ConfigurationRefused host (.ofText name) reason) ∨
        ∃ cause, f = .breakdown cause ∧ ConfigurationBreaks host (.ofText name)) := by
  cases config with
  | none => cases h
  | some name =>
      refine ⟨name, rfl, ?_⟩
      unfold configuration Configuration.load at h
      cases htext : host.text (.ofText name) with
      | error error =>
          have hthere := text_eq_error_iff.mp htext
          simp only [htext] at h
          cases error with
          | missing => exact .inl ⟨_, (Except.error.inj h).symm, .missing hthere⟩
          | directory => exact .inr ⟨_, (Except.error.inj h).symm, .directory hthere⟩
          | overlongName => exact .inr ⟨_, (Except.error.inj h).symm, .overlong hthere⟩
          | encoding error =>
              obtain ⟨octets, hentry, he⟩ := hthere
              exact .inr ⟨_, (Except.error.inj h).symm, .notUtf8 hentry he⟩
      | ok text =>
          simp only [htext, Configuration.settingsOfText] at h
          cases hparse : host.readYaml text with
          | error error =>
              simp only [hparse] at h
              cases error with
              | malformed words =>
                  exact .inl ⟨_, (Except.error.inj h).symm, .notYaml htext hparse⟩
              | fault fault => exact .inr ⟨_, (Except.error.inj h).symm, .reader htext hparse⟩
          | ok v =>
              cases hsettings : Configuration.settingsOf v with
              | ok settings => simp [hparse, hsettings, Except.map] at h
              | error error =>
                  obtain rfl : configurationFailure error = f := by
                    simpa [hparse, hsettings, Except.map] using h
                  rcases explained_or_unordered hsettings with ⟨reason, hreason⟩ | ⟨rfl, hnames⟩
                  · refine .inl ⟨reason, ?_, .notSettings htext hparse hsettings hreason⟩
                    simp only [configurationFailure, hreason]
                  · exact .inr ⟨_, rfl, .unordered htext hparse hnames⟩

theorem ConfigurationRefused.configuration_eq {reason : String}
    (h : ConfigurationRefused host (.ofText name) reason) :
    configuration host (some name) = .error (.message reason) := by
  unfold configuration Configuration.load
  cases h with
  | missing h =>
      simp only [text_eq_error_iff (e := .missing) |>.mpr h]
      rfl
  | notYaml htext he =>
      simp only [htext, Configuration.settingsOfText, he]
      rfl
  | notSettings htext hv he hreason =>
      simp only [htext, Configuration.settingsOfText, hv, he, Except.map, configurationFailure,
        hreason]

theorem ConfigurationBreaks.configuration_eq (h : ConfigurationBreaks host (.ofText name)) :
    ∃ cause, configuration host (some name) = .error (.breakdown cause) := by
  unfold configuration Configuration.load
  cases h with
  | directory h =>
      simp only [text_eq_error_iff (e := .directory) |>.mpr h]
      exact ⟨_, rfl⟩
  | overlong h =>
      simp only [text_eq_error_iff (e := .overlongName) |>.mpr h]
      exact ⟨_, rfl⟩
  | @notUtf8 octets e h he =>
      simp only [text_eq_error_iff (e := .encoding e) |>.mpr ⟨octets, h, he⟩]
      exact ⟨_, rfl⟩
  | reader htext he =>
      simp only [htext, Configuration.settingsOfText, he]
      exact ⟨_, rfl⟩
  | unordered htext hv hnames =>
      simp only [htext, Configuration.settingsOfText, hv, hnames.settingsOf_eq]
      exact ⟨_, rfl⟩

end Files

end StructuralSchema.CommandLine
