import StructuralSchema.CommandLine.Plan
import StructuralSchema.CommandLine.Shell
import StructuralSchema.Json.Printer
import StructuralSchema.Reference.Chain
import StructuralSchema.Schema.Encode
import StructuralSchema.Validation.Course

/-!
# Outcomes of commands

A command reads files and says what it finds: its plan is what it prints, the file it
writes and how it ends.  A validation of several documents is that of each of them, one
after the other, up to the first that cannot be read.
-/

namespace StructuralSchema.CommandLine

/-- Why a command cannot be carried out: a message for the user, or a breakdown. -/
inductive Failure
  | message (text : String)
  | breakdown (cause : Breakdown)
  deriving DecidableEq, Repr

/-- The plan of a command that fails after it has printed something. -/
def Failure.plan (f : Failure) (prints : List Print) : Plan :=
  match f with
  | .message text => { prints := prints ++ [.err (echo text)], ending := .status 1 }
  | .breakdown cause => { prints := prints, ending := .breakdown cause }

def loadFailure (e : LoadError) : Failure :=
  match e.explain with
  | .ok text => .message text
  | .error fault => .breakdown (.document fault)

def schemaFailure : SchemaLoadError → Failure
  | .document e => loadFailure e
  | .schema (.keyNotText _ key) => .breakdown (.keyNotText key)
  | .schema e =>
    match e.message? with
    | some text => .message text
    | none => .breakdown .endless

def configurationFailure (e : ConfigurationError) : Failure :=
  match e.explain with
  | .ok text => .message text
  | .error fault => .breakdown (.configuration fault)

def configuration (host : Host) : Option String → Except Failure Configuration
  | none => .ok .default
  | some name =>
    match Configuration.load host (.ofText name) with
    | .ok c => .ok c
    | .error e => .error (configurationFailure e)

def schema (host : Host) (name : String) : Except Failure Schema :=
  match loadSchema host (.ofText name) with
  | .ok s => .ok s
  | .error e => .error (schemaFailure e)

def logLine : Validation.LogEntry → String
  | .acceptsEverything =>
    "INFO json_schema_lite.instance_validation.node_validator: " ++
      Validation.LogEntry.acceptsEverything.message
  | .warning text =>
    "WARNING json_schema_lite.reference_resolution.ref_resolver: " ++ text

/-- The lines of a log that are shown: warnings, and the rest if asked for. -/
def logLines (verbose : Bool) (log : List Validation.LogEntry) : List String :=
  (log.filter fun entry => verbose || entry ≠ .acceptsEverything).map logLine

/-- What is printed for a document: the notices, then that it is valid or what is wrong
with it.  The place of the whole document shows as a slash. -/
def reportLines (name : String) (r : Validation.Report) : List String :=
  (r.notices.map fun n => echo (name ++ ": " ++ n.place ++ ": " ++ n.message)) ++
    (if r.isOk then [echo (name ++ ": valid")]
     else r.mismatches.map fun m =>
      let place := m.place.toText
      echo (name ++ ": " ++ (if place = "" then "/" else place) ++ ": " ++ m.message))

def reportPrints (verbose : Bool) (name : String) (r : Validation.Report) : List Print :=
  (logLines verbose r.log).map .err ++ (reportLines name r).map .out

structure Batch where
  prints : List Print := []
  failed : Nat := 0
  failure : Option Failure := none

/-- Validates documents one after the other, up to the first that cannot be read. -/
def batch (host : Host) (verbose : Bool) (s : Schema) (settings : Validation.Settings) :
    List String → Batch
  | [] => {}
  | name :: rest =>
    match readDocument host (.ofText name) with
    | .error e => { failure := some (loadFailure e) }
    | .ok v =>
      match Validation.warningsBeforeStop? s settings v with
      | some warnings =>
        { prints := (logLines verbose (warnings.map .warning)).map .err
          failure := some (.breakdown .endless) }
      | none =>
        let r := Validation.validate s settings v
        let b := batch host verbose s settings rest
        { prints := reportPrints verbose name r ++ b.prints
          failed := (if r.isOk then 0 else 1) + b.failed
          failure := b.failure }

def failedText (failed all : Nat) : String :=
  toString failed ++ " of " ++ toString all ++ " instance document(s) failed validation."

def planValidate (host : Host) (verbose : Bool) (schemaName : String) (names : List String)
    (config : Option String) : Plan :=
  match configuration host config with
  | .error f => f.plan []
  | .ok c =>
    match schema host schemaName with
    | .error f => f.plan []
    | .ok s =>
      let b := batch host verbose s c.settings names
      match b.failure with
      | some f => f.plan b.prints
      | none =>
        if b.failed = 0 then { prints := b.prints }
        else (Failure.message (failedText b.failed names.length)).plan b.prints

def orDash (text : Option String) : String :=
  match text with
  | none => "-"
  | some "" => "-"
  | some text => text

def namesOrDash (names : List String) : String :=
  orDash (some (", ".intercalate names))

def rootText : Option Property → String
  | none => "(any)"
  | some (.reference text) => "$ref " ++ text
  | some (.node n) => n.typeName.text

def inspectLines (s : Schema) : List String :=
  match s with
  | .boolean b => ["boolean schema: " ++ (if b then "true" else "false")]
  | .definition d =>
    ["draft: " ++ orDash s.draft?,
     "id: " ++ ((d.id.map SchemaId.toText).getD "-"),
     "description: " ++ orDash d.description,
     "root: " ++ rootText s.rootNode?] ++
    (match s.properties? with
      | some properties =>
        ["properties: " ++ namesOrDash (properties.map Prod.fst),
         "required: " ++ namesOrDash (s.required?.getD [])]
      | none => []) ++
    -- An empty map of definitions has no line; an empty map of properties shows as a dash.
    (match d.definitions with
      | some (first :: rest) =>
        ["definitions: " ++ ", ".intercalate ((first :: rest).map Prod.fst)]
      | _ => [])

def planInspect (host : Host) (schemaName : String) : Plan :=
  match schema host schemaName with
  | .error f => f.plan []
  | .ok s => { prints := (inspectLines s).map fun line => .out (echo line) }

/-- The members of the node that a reference leads to; a definition without a type has
none. -/
def resolvedMembers : Option Node → Members
  | none => []
  | some n => n.encode

def planResolve (host : Host) (schemaName : String) (config : Option String)
    (reference : String) : Plan :=
  match configuration host config with
  | .error f => f.plan []
  | .ok c =>
    match schema host schemaName with
    | .error f => f.plan []
    | .ok s =>
      match Reference.dereference s c.settings.maxReferenceDepth reference with
      | .error e =>
        (Failure.message e.message).plan
          ((logLines false (e.warning?.toList.map .warning)).map .err)
      | .ok found =>
        match Json.render? (some 2) (.obj (resolvedMembers found)) with
        | some text => { prints := [.out (echo text)] }
        | none => (Failure.breakdown .noJsonForm).plan []

/-- Writes a configuration to start from, unless something is in its place. -/
def planGenerateConfig (disk : Disk) (base : FilePath) (output : String) : Plan :=
  let path := FilePath.ofText output
  let full := (path.absolute base).toText
  if disk.entry path = .overlong then
    (Failure.message (SystemFault.nameTooLong.message path)).plan []
  else if (disk.entry path).isPresent then
    (Failure.message ("Configuration file already exists: " ++ full)).plan []
  else
    match disk.entry path.parent with
    | .directory =>
      { prints := [.out (echo full)], written := some (path, Configuration.template) }
    | .absent => (Failure.message (SystemFault.noSuchFile.message path)).plan []
    | .overlong => (Failure.message (SystemFault.nameTooLong.message path)).plan []
    | _ => (Failure.message (SystemFault.notDirectory.message path)).plan []

/-- The plan of a command.  The directory `base` is the one that paths start from. -/
def planCommand (host : Host) (base : FilePath) (verbose : Bool) : Command → Plan
  | .generateConfig output => planGenerateConfig host.toDisk base output
  | .inspect schemaName => planInspect host schemaName
  | .resolve schemaName config reference => planResolve host schemaName config reference
  | .validate schemaName names config => planValidate host verbose schemaName names config

/-- The outcome of a command, where all that it prints can be printed. -/
def runCommand (host : Host) (base : FilePath) (verbose : Bool) (command : Command) : Outcome :=
  (planCommand host base verbose command).outcome

def planReading (host : Host) (base : FilePath) : Reading → Plan
  | .command verbose command => planCommand host base verbose command
  | .shown texts => { prints := texts.map .out }
  | .refused refusal =>
    { prints := refusal.texts.map .err, ending := .status refusal.status }
  | .aborted => { prints := [.err "Aborted."], ending := .status 1 }
  | .broken => { ending := .breakdown .brokenPath }

def runIn (shell : Shell) (host : Host) (base : FilePath) (arguments : List String) : Delivery :=
  (planReading host base (shell.read arguments)).deliver shell.takes

/-- The outcome of the arguments in the shell of this library. -/
def run (host : Host) (base : FilePath) (arguments : List String) : Outcome :=
  (planReading host base (Shell.own.read arguments)).outcome

def Command.paths : Command → List FilePath
  | .generateConfig output => [.ofText output, (FilePath.ofText output).parent]
  | .inspect schemaName => [.ofText schemaName]
  | .resolve schemaName config _ => (schemaName :: config.toList).map .ofText
  | .validate schemaName names config =>
    (config.toList ++ schemaName :: names).map .ofText

end StructuralSchema.CommandLine
