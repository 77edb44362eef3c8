/-!
# Errors in YAML text
-/

namespace StructuralSchema.Yaml

/-- A scalar whose text is not of the kind that its tag or its spelling says. -/
inductive Fault
  | badValue
  | emptyNumber
  | unknownBoolean
  /-- The text has not the form of a time. -/
  | notTime
  | timeWithoutText
  /-- A number or the code of a character is too large to be looked at. -/
  | tooLarge
  /-- The text is that of a part which is looked for without end. -/
  | endless
  deriving DecidableEq, Repr

/-- Why a text holds no document: it is not well formed, or one of its scalars cannot be
what it should. -/
inductive Error
  | malformed
  | scalar (fault : Fault)
  deriving DecidableEq, Repr

end StructuralSchema.Yaml
