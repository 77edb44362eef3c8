import StructuralSchema.Schema.Decode
import StructuralSchema.Storage.Host

/-!
# Loading documents

A file whose name ends in `.json` holds JSON; any other holds YAML, of which JSON is
nearly a part.
-/

namespace StructuralSchema

/-- Why a file cannot be looked at or complained about. -/
inductive LoadFault
  | overlongName
  | badScalar (fault : Yaml.Fault)
  deriving DecidableEq, Repr

inductive LoadError
  | notFound (path : FilePath)
  | directory (path : FilePath)
  | encoding (path : FilePath) (error : Text.EncodingError)
  | malformed (path : FilePath) (words : String)
  | unusable (fault : LoadFault)

def isJsonPath (path : FilePath) : Bool :=
  Text.lowerAscii path.suffix == ".json"

def formatName (path : FilePath) : String :=
  if isJsonPath path then "JSON" else "YAML"

/-- The wording of an error; an unusable file has none. -/
def LoadError.explain : LoadError → Except LoadFault String
  | .notFound path => .ok ("Document file not found: " ++ path.toText)
  | .directory path =>
    .ok ("Failed to read document " ++ path.toText ++ ": " ++
      SystemFault.isDirectory.message path)
  | .encoding path e => .ok ("Failed to read document " ++ path.toText ++ ": " ++ e.message)
  | .malformed path words =>
    .ok ("Invalid " ++ formatName path ++ " in " ++ path.toText ++ ": " ++ words)
  | .unusable fault => .error fault

/-- The reader that the name of a file asks for. -/
def Host.readerOf (host : Host) (path : FilePath) : String → Except ReadError Value :=
  if isJsonPath path then host.readJson else host.readYaml

def readDocument (host : Host) (path : FilePath) : Except LoadError Value :=
  match host.text path with
  | .ok text =>
    match host.readerOf path text with
    | .ok v => .ok v
    | .error (.malformed words) => .error (.malformed path words)
    | .error (.fault fault) => .error (.unusable (.badScalar fault))
  | .error .missing => .error (.notFound path)
  | .error .directory => .error (.directory path)
  | .error .overlongName => .error (.unusable .overlongName)
  | .error (.encoding e) => .error (.encoding path e)

inductive SchemaLoadError
  | document (error : LoadError)
  | schema (error : SchemaError)

def loadSchema (host : Host) (path : FilePath) : Except SchemaLoadError Schema :=
  match readDocument host path with
  | .error e => .error (.document e)
  | .ok v =>
    match Schema.decode v with
    | .error e => .error (.schema e)
    | .ok s => .ok s

end StructuralSchema
