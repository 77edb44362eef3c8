import StructuralSchema.CommandLine.Page
import StructuralSchema.Configuration.Template
import StructuralSchema.Text.Cut
import StructuralSchema.Text.Literal
import StructuralSchema.Text.Similarity

/-!
# Arguments

The arguments of the program are options of its own, the word of a command and the
arguments of that command.  The options of a command may stand before and after its
other arguments; two dashes end them.
-/

namespace StructuralSchema.CommandLine

inductive Key
  | help
  | version
  | verbose
  | schema
  | instances
  | config
  | output
  deriving DecidableEq, Repr

inductive Command
  | generateConfig (output : String)
  | inspect (schema : String)
  | resolve (schema : String) (config : Option String) (reference : String)
  | validate (schema : String) (instances : List String) (config : Option String)
  deriving DecidableEq, Repr

inductive Request
  | nothing
  | help (page : Page)
  | version
  /-- A path holds a character that no path may hold. -/
  | brokenPath
  | run (verbose : Bool) (command : Command)
  deriving DecidableEq, Repr

inductive Problem
  | missingCommand
  | noSuchCommand (word : String)
  | noSuchOption (name : String) (similar : List String)
  | missingOption (name : String)
  | missingReference
  | extraArguments (arguments : List String)
  | optionNeedsArgument (name : String)
  | optionTakesNoValue (name : String)
  deriving DecidableEq, Repr

def similarText : List String → String
  | [] => ""
  | [name] => " Did you mean " ++ name ++ "?"
  | names => " (Possible options: " ++ ", ".intercalate names ++ ")"

namespace Problem

def message : Problem → String
  | .missingCommand => "Missing command."
  | .noSuchCommand word => "No such command " ++ Text.literal word ++ "."
  | .noSuchOption name similar => "No such option: " ++ name ++ similarText similar
  | .missingOption name => "Missing option '" ++ name ++ "'."
  | .missingReference => "Missing argument 'REFERENCE'."
  | .extraArguments [argument] => "Got unexpected extra argument (" ++ argument ++ ")"
  | .extraArguments arguments =>
    "Got unexpected extra arguments (" ++ " ".intercalate arguments ++ ")"
  | .optionNeedsArgument name => "Option " ++ Text.literal name ++ " requires an argument."
  | .optionTakesNoValue name => "Option " ++ Text.literal name ++ " does not take a value."

/-- The problem is told together with the usage of the command. -/
def showsUsage : Problem → Bool
  | .optionNeedsArgument _ => false
  | .optionTakesNoValue _ => false
  | _ => true

end Problem

structure UsageError where
  page : Page
  problem : Problem
  deriving DecidableEq, Repr

def UsageError.message (e : UsageError) : String :=
  let wrong := "Error: " ++ e.problem.message
  if e.problem.showsUsage then e.page.usage ++ "\n" ++ e.page.hint ++ "\n\n" ++ wrong else wrong

def Key.takesValue : Key → Bool
  | .help => false
  | .version => false
  | .verbose => false
  | _ => true

namespace Page

def options : Page → List (String × Key)
  | .program => [("--version", .version), ("--verbose", .verbose), ("--help", .help)]
  | .generateConfig => [("--output", .output), ("--help", .help)]
  | .inspect => [("--schema", .schema), ("--help", .help)]
  | .resolve => [("--schema", .schema), ("--config", .config), ("--help", .help)]
  | .validate =>
    [("--schema", .schema), ("--instance", .instances), ("--config", .config), ("--help", .help)]

def letters : Page → List (Char × Key)
  | .program => [('v', .verbose), ('h', .help)]
  | _ => [('h', .help)]

def requiredOptions : Page → List (String × Key)
  | .inspect => [("--schema", .schema)]
  | .resolve => [("--schema", .schema)]
  | .validate => [("--schema", .schema), ("--instance", .instances)]
  | _ => []

end Page

structure Arguments where
  given : List (Key × String)
  others : List String
  deriving DecidableEq, Repr

namespace Arguments

def valuesOf (a : Arguments) (key : Key) : List String :=
  (a.given.filter fun entry => entry.1 = key).map Prod.snd

def lastOf? (a : Arguments) (key : Key) : Option String :=
  (a.valuesOf key).getLast?

def give (given : List (Key × String)) (a : Arguments) : Arguments :=
  { a with given := given ++ a.given }

def readLetters (page : Page) : List Char → Except Problem (List (Key × String))
  | [] => .ok []
  | letter :: rest =>
    match page.letters.lookup letter with
    | none => .error (.noSuchOption (String.ofList ['-', letter]) [])
    | some key => (readLetters page rest).map ((key, "") :: ·)

def similarOptions (page : Page) (name : String) : List String :=
  ((page.options.map Prod.fst).filter fun other => Text.areSimilar other name).mergeSort
    fun a b => decide (a ≤ b)

def readOption (page : Page) (argument : List Char) :
    Except Problem (List (Key × String) × Option (Key × String)) :=
  let (nameChars, valueChars) := Text.cutAt (· = '=') argument
  let name := String.ofList nameChars
  match page.options.lookup name with
  | some key =>
    match key.takesValue, valueChars with
    | true, [] => .ok ([], some (key, name))
    | true, _ :: value => .ok ([(key, String.ofList value)], none)
    | false, [] => .ok ([(key, "")], none)
    | false, _ :: _ => .error (.optionTakesNoValue name)
  | none =>
    if Text.startsWith argument ['-', '-'] then
      .error (.noSuchOption name (similarOptions page name))
    else (readLetters page (argument.drop 1)).map (·, none)

/-- Takes arguments apart.  The options of the program itself end at its first other
argument. -/
def read (page : Page) : List String → Except Problem Arguments
  | [] => .ok ⟨[], []⟩
  | argument :: rest =>
    if argument = "--" then .ok ⟨[], rest⟩
    else if Text.startsWith argument.toList ['-'] && argument ≠ "-" then
      match readOption page argument.toList with
      | .error problem => .error problem
      | .ok (given, none) => (read page rest).map (give given)
      | .ok (given, some (key, name)) =>
        match rest with
        | [] => .error (.optionNeedsArgument name)
        | value :: rest => (read page rest).map (give (given ++ [(key, value)]))
    else if page = .program then .ok ⟨[], argument :: rest⟩
    else (read page rest).map fun a => { a with others := argument :: a.others }

/-- The request that goes before all others: help or the version, whichever comes
first. -/
def urgent? (page : Page) (a : Arguments) : Option Request :=
  a.given.findSome? fun entry =>
    match entry.1 with
    | .help => some (.help page)
    | .version => some .version
    | _ => none

/-- The paths that count among those given: all of the instances, and otherwise the last
one for each option. -/
def countedPaths (page : Page) (a : Arguments) : List String :=
  page.options.flatMap fun option =>
    if option.2 = .instances then a.valuesOf .instances
    else if option.2.takesValue then (a.lastOf? option.2).toList
    else []

def hasBrokenPath (page : Page) (a : Arguments) : Bool :=
  (a.countedPaths page).any fun path => path.toList.contains '\x00'

def missing? (page : Page) (a : Arguments) : Option Problem :=
  page.requiredOptions.findSome? fun option =>
    if (a.valuesOf option.2).isEmpty then some (.missingOption option.1) else none

def extra (page : Page) (a : Arguments) : List String :=
  if page = .resolve then a.others.drop 1 else a.others

def problem? (page : Page) (a : Arguments) : Option Problem :=
  if page = .resolve && a.others.isEmpty then some .missingReference
  else
    match missing? page a, extra page a with
    | some problem, _ => some problem
    | none, [] => none
    | none, arguments => some (.extraArguments arguments)

def toCommand (page : Page) (a : Arguments) : Command :=
  let schema := (a.lastOf? .schema).getD ""
  match page with
  | .inspect => .inspect schema
  | .resolve => .resolve schema (a.lastOf? .config) (a.others.headD "")
  | .validate => .validate schema (a.valuesOf .instances) (a.lastOf? .config)
  | _ => .generateConfig ((a.lastOf? .output).getD Configuration.defaultFileName)

end Arguments

def readCommand (page : Page) (verbose : Bool) (arguments : List String) :
    Except UsageError Request :=
  match Arguments.read page arguments with
  | .error problem => .error ⟨page, problem⟩
  | .ok a =>
    match a.urgent? page with
    | some request => .ok request
    | none =>
      if a.hasBrokenPath page then .ok .brokenPath
      else
        match a.problem? page with
        | some problem => .error ⟨page, problem⟩
        | none => .ok (.run verbose (a.toCommand page))

/-- What is said of an unknown word in the place of a command.  Where two dashes made an
option stand there, the option is looked at after all. -/
def readUnknown (word : String) (rest : List String) : Except UsageError Request :=
  match Arguments.read .program (word :: rest) with
  | .error problem => .error ⟨.program, problem⟩
  | .ok a =>
    match a.urgent? .program with
    | some request => .ok request
    | none => .error ⟨.program, .noSuchCommand word⟩

def readArguments (arguments : List String) : Except UsageError Request :=
  if arguments.isEmpty then .ok .nothing
  else
    match Arguments.read .program arguments with
    | .error problem => .error ⟨.program, problem⟩
    | .ok a =>
      match a.urgent? .program, a.others with
      | some request, _ => .ok request
      | none, [] => .error ⟨.program, .missingCommand⟩
      | none, word :: rest =>
        match Page.commands.find? fun page => page.word = word with
        | some page => readCommand page (a.given.any fun entry => entry.1 = .verbose) rest
        | none => readUnknown word rest

end StructuralSchema.CommandLine
