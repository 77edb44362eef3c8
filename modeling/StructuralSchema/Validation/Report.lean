import StructuralSchema.Reference.Error
import StructuralSchema.Schema.Basic
import StructuralSchema.Value.Describe

/-!
# Reports of validation

A report lists what is wrong with a value, in the order in which the value was looked
through, and which keywords of the schema were left out of account.
-/

namespace StructuralSchema.Validation

inductive Kind
  | typeMismatch
  | missingRequired
  | falseSchema
  | unresolvedReference
  | unsupportedFeature
  deriving DecidableEq, Repr

def Kind.text : Kind → String
  | .typeMismatch => "type_mismatch"
  | .missingRequired => "missing_required"
  | .falseSchema => "false_schema"
  | .unresolvedReference => "unresolved_reference"
  | .unsupportedFeature => "unsupported_feature"

inductive Cause
  | wrongType (expected : TypeName) (actual : Value)
  | missingRequired (name : String)
  | falseSchema (actual : Value)
  | unresolvedReference (reference : String) (error : Reference.Error) (actual : Value)

/-- One thing wrong with a value, and the place of the part it concerns. -/
structure Mismatch where
  place : Pointer
  cause : Cause

namespace Mismatch

def kind (m : Mismatch) : Kind :=
  match m.cause with
  | .wrongType _ _ => .typeMismatch
  | .missingRequired _ => .missingRequired
  | .falseSchema _ => .falseSchema
  | .unresolvedReference _ _ _ => .unresolvedReference

def message (m : Mismatch) : String :=
  match m.cause with
  | .wrongType .object _ => "invalid object"
  | .wrongType expected actual => "expected " ++ expected.text ++ " found " ++ actual.describe
  | .missingRequired name =>
    "object doesn't contain the required property " ++ Text.quoted name
  | .falseSchema _ => "the schema \"false\" will never validate"
  | .unresolvedReference _ error _ => error.message

def expected? (m : Mismatch) : Option String :=
  match m.cause with
  | .wrongType expected _ => some expected.text
  | .missingRequired name => some name
  | .falseSchema _ => none
  | .unresolvedReference reference _ _ => some reference

/-- The value that was met; nothing is met where a name is missing. -/
def actual? (m : Mismatch) : Option Value :=
  match m.cause with
  | .wrongType _ actual => some actual
  | .missingRequired _ => none
  | .falseSchema actual => some actual
  | .unresolvedReference _ _ actual => some actual

def warning? (m : Mismatch) : Option String :=
  match m.cause with
  | .unresolvedReference _ error _ => error.warning?
  | _ => none

end Mismatch

/-- A keyword that was not evaluated, and the place of its node in the schema: `#`, or
the reference that led there, and the keys from there on. -/
structure Notice where
  place : String
  keyword : Keyword
  deriving DecidableEq, Repr

def Notice.message (n : Notice) : String :=
  "keyword " ++ Text.literal n.keyword.text ++ " is not supported and was not evaluated"

inductive LogEntry
  | acceptsEverything
  | warning (text : String)
  deriving DecidableEq, Repr

def LogEntry.message : LogEntry → String
  | .acceptsEverything => "Schema is \"true\"; every instance is accepted."
  | .warning text => text

/-- The outcome of validating a value.  Notices do not count against it. -/
structure Report where
  mismatches : List Mismatch
  notices : List Notice
  log : List LogEntry

namespace Report

def isOk (r : Report) : Bool :=
  r.mismatches.isEmpty

def messages (r : Report) : List String :=
  r.mismatches.map Mismatch.message

def messagesOfKind (r : Report) (kind : Kind) : List String :=
  (r.mismatches.filter fun m => m.kind = kind).map Mismatch.message ++
    (if kind = .unsupportedFeature then r.notices.map Notice.message else [])

end Report

end StructuralSchema.Validation
