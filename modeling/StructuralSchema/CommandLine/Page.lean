/-!
# Help pages

The program has one page of help for itself and one for each of its commands.
-/

namespace StructuralSchema.CommandLine

inductive Page
  | program
  | generateConfig
  | inspect
  | resolve
  | validate
  deriving DecidableEq, Repr

def programName : String :=
  "json-schema-lite"

def versionText : String :=
  "json-schema-lite, version 0.3.0"

namespace Page

def commands : List Page :=
  [.generateConfig, .inspect, .resolve, .validate]

def word : Page → String
  | .program => programName
  | .generateConfig => "generate-config"
  | .inspect => "inspect"
  | .resolve => "resolve"
  | .validate => "validate"

def path : Page → String
  | .program => programName
  | page => programName ++ " " ++ page.word

def pattern : Page → String
  | .program => "[OPTIONS] COMMAND [ARGS]..."
  | .resolve => "[OPTIONS] REFERENCE"
  | _ => "[OPTIONS]"

def usage (page : Page) : String :=
  "Usage: " ++ page.path ++ " " ++ page.pattern

def hint (page : Page) : String :=
  "Try '" ++ page.path ++ " -h' for help."

def body : Page → List String
  | .program =>
    ["  Parse JSON Schema documents and validate JSON instances against them.",
     "",
     "Options:",
     "  --version      Show the version and exit.",
     "  -v, --verbose  Log diagnostics to stderr.",
     "  -h, --help     Show this message and exit.",
     "",
     "Commands:",
     "  generate-config  Generate a YAML validator configuration with guidance...",
     "  inspect          Print the identifying metadata and root shape of a...",
     "  resolve          Print the schema node a `#/...` REFERENCE points at.",
     "  validate         Validate instance documents against a schema and list..."]
  | .generateConfig =>
    ["  Generate a YAML validator configuration with guidance comments.",
     "",
     "Options:",
     "  --output PATH  Path to the YAML validator configuration template to write",
     "                 [default: json-schema-lite.yaml]",
     "  -h, --help     Show this message and exit."]
  | .inspect =>
    ["  Print the identifying metadata and root shape of a schema.",
     "",
     "Options:",
     "  --schema PATH  Path to the JSON/YAML schema document  [required]",
     "  -h, --help     Show this message and exit."]
  | .resolve =>
    ["  Print the schema node a `#/...` REFERENCE points at.",
     "",
     "Options:",
     "  --schema PATH  Path to the JSON/YAML schema document  [required]",
     "  --config PATH  Optional YAML/JSON validator configuration file",
     "  -h, --help     Show this message and exit."]
  | .validate =>
    ["  Validate instance documents against a schema and list every mismatch.",
     "",
     "Options:",
     "  --schema PATH    Path to the JSON/YAML schema document  [required]",
     "  --instance PATH  Path to a JSON/YAML instance document; repeat for several",
     "                   documents  [required]",
     "  --config PATH    Optional YAML/JSON validator configuration file",
     "  -h, --help       Show this message and exit."]

def help (page : Page) : String :=
  "\n".intercalate (page.usage :: "" :: page.body)

end Page

end StructuralSchema.CommandLine
