import StructuralSchema.Storage.Host
import StructuralSchema.Text.Blank
import StructuralSchema.Validation.Settings
import StructuralSchema.Value.Literal
import StructuralSchema.Configuration.Keys

/-!
# Configuration

A configuration file may hold a section with the settings of validation.  Settings that
it leaves out keep their defaults; anything else in the section is refused.
-/

namespace StructuralSchema

structure Configuration where
  path : Option FilePath
  settings : Validation.Settings
  deriving DecidableEq, Repr

/-- Why a configuration cannot be looked at or complained about. -/
inductive ConfigurationFault
  | directory
  | overlongName
  | encoding (error : Text.EncodingError)
  /-- The reader breaks down, as at a scalar that is not what its form says. -/
  | badScalar (fault : Yaml.Fault)
  | unorderedSettings
  deriving DecidableEq, Repr

inductive ConfigurationError
  | notFound (path : FilePath)
  | notYaml (words : String)
  | rootNotMapping
  | sectionNotMapping
  | unknownSettings (names : List Scalar)
  | depthNotInteger
  | depthNotPositive
  | policyNotText
  | unknownPolicy
  | unusable (fault : ConfigurationFault)
  deriving DecidableEq, Repr

/-- The wording of an error; an unusable file has none. -/
def ConfigurationError.explain : ConfigurationError → Except ConfigurationFault String
  | .notFound path => .ok ("Configuration file not found: " ++ path.toText)
  | .notYaml words => .ok ("Failed to parse configuration file: " ++ words)
  | .rootNotMapping => .ok "Configuration root must be a mapping."
  | .sectionNotMapping => .ok "Configuration section 'validation' must be a mapping."
  | .unknownSettings names =>
    .ok ("Unknown validation settings: " ++ ", ".intercalate (names.map Scalar.plain))
  | .depthNotInteger => .ok "validation.max_reference_depth must be an integer."
  | .depthNotPositive => .ok "validation.max_reference_depth must be greater than zero."
  | .policyNotText => .ok "validation.unsupported_keywords must be a string."
  | .unknownPolicy =>
    .ok ("validation.unsupported_keywords must be one of: " ++
      ", ".intercalate (Validation.Policy.all.map Validation.Policy.text) ++ ".")
  | .unusable fault => .error fault

namespace Configuration

def default : Configuration :=
  ⟨none, {}⟩

def settingNames : List String :=
  ["max_reference_depth", "unsupported_keywords"]

def unknownNames (members : Members) : List Scalar :=
  (members.map Prod.fst).filter fun key =>
    !settingNames.any fun name => key = .str name

/-- The limit on chains of references: a positive whole number. -/
def depthOf : Option Value → Except ConfigurationError Int
  | none => .ok 32
  | some (.int depth) => if depth ≤ 0 then .error .depthNotPositive else .ok depth
  | some _ => .error .depthNotInteger

/-- What becomes of unsupported keywords; case and blanks around the word do not count. -/
def policyOf : Option Value → Except ConfigurationError Validation.Policy
  | none => .ok .report
  | some (.str word) =>
    -- ASCII is enough: no other letter has one of the words' letters as its lower case.
    match Validation.Policy.ofText? (Text.lowerAscii (Text.trimBlanks word)) with
    | some policy => .ok policy
    | none => .error .unknownPolicy
  | some _ => .error .policyNotText

def settingsOfMembers (members : Members) : Except ConfigurationError Validation.Settings :=
  -- Unknown names come first: what stands under the known ones is not looked at then.
  match unknownNames members with
  | [] => do
    let depth ← depthOf (lookup "max_reference_depth" members)
    let policy ← policyOf (lookup "unsupported_keywords" members)
    return ⟨depth, policy⟩
  | unknown =>
    match sortKeys? unknown with
    | some names => .error (.unknownSettings names)
    | none => .error (.unusable .unorderedSettings)

def settingsOfSection (section? : Option Value) :
    Except ConfigurationError Validation.Settings :=
  match section?.map Value.unlooped with
  | none => .ok {}
  | some .null => .ok {}
  | some (.obj members) => settingsOfMembers members
  | some _ => .error .sectionNotMapping

/-- The settings of a whole configuration file; an empty file leaves all as it is. -/
def settingsOf (v : Value) : Except ConfigurationError Validation.Settings :=
  match v.unlooped with
  | .null => .ok {}
  | .obj members => settingsOfSection (lookup "validation" members)
  | _ => .error .rootNotMapping

def settingsOfText (host : Host) (text : String) :
    Except ConfigurationError Validation.Settings :=
  match host.readYaml text with
  | .ok v => settingsOf v
  | .error (.malformed words) => .error (.notYaml words)
  | .error (.fault fault) => .error (.unusable (.badScalar fault))

def load (host : Host) (path : FilePath) : Except ConfigurationError Configuration :=
  match host.text path with
  | .ok text => (settingsOfText host text).map fun settings => ⟨some path, settings⟩
  | .error .missing => .error (.notFound path)
  | .error .directory => .error (.unusable .directory)
  | .error .overlongName => .error (.unusable .overlongName)
  | .error (.encoding e) => .error (.unusable (.encoding e))

end Configuration

end StructuralSchema
