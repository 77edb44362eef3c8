/-!
# Settings of validation
-/

namespace StructuralSchema.Validation

/-- What becomes of unsupported keywords. -/
inductive Policy
  | report
  | ignore
  deriving DecidableEq, Repr

def Policy.text : Policy → String
  | .report => "report"
  | .ignore => "ignore"

def Policy.all : List Policy :=
  [.report, .ignore]

def Policy.ofText? (text : String) : Option Policy :=
  Policy.all.find? fun policy => policy.text == text

/-- The choices of whoever validates: how many references a chain may have, and what
becomes of unsupported keywords. -/
structure Settings where
  maxReferenceDepth : Int := 32
  unsupportedKeywords : Policy := .report
  deriving DecidableEq, Repr

end StructuralSchema.Validation
