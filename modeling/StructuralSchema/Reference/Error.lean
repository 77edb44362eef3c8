import StructuralSchema.Text.Literal

/-!
# Reference errors

A reference that leads to no node fails for a reason.  The two failures that come from
following references without end are worth a warning as well.
-/

namespace StructuralSchema.Reference

inductive Reason
  | noDocument
  | notLocal
  | booleanRoot
  | segmentDoesNotApply (segment : String)
  | endsOffNode
  | cycle (chain : List String)
  | chainTooLong (limit : Int)
  deriving DecidableEq, Repr

def chainText (chain : List String) : String :=
  " -> ".intercalate chain

def Reason.message : Reason → String
  | .noDocument => "no root document"
  | .notLocal => "only '#/' document-local references are supported"
  | .booleanRoot => "boolean schemas have no sub-schemas"
  | .segmentDoesNotApply segment => "segment " ++ Text.literal segment ++ " does not apply"
  | .endsOffNode => "path does not end on a schema node"
  | .cycle chain => "reference cycle " ++ chainText chain
  | .chainTooLong limit => "chain longer than " ++ toString limit ++ " references"

/-- The reference that failed, which may be any link of a chain, and why. -/
structure Error where
  reference : String
  reason : Reason
  deriving DecidableEq, Repr

def Error.message (e : Error) : String :=
  "cannot resolve " ++ Text.literal e.reference ++ ": " ++ e.reason.message

def Error.warning? (e : Error) : Option String :=
  match e.reason with
  | .cycle chain => some ("Reference cycle detected: " ++ chainText chain)
  | .chainTooLong limit =>
    some ("Reference chain exceeds " ++ toString limit ++ " hops at " ++ e.reference)
  | _ => none

end StructuralSchema.Reference
