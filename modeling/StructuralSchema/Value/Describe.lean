import StructuralSchema.Text.Quoted
import StructuralSchema.Value.Literal

/-!
# Descriptions of values

A mismatch describes the value it met with the kind in front, as in `Number(1.2)` or
`String("a")`, so that a number and a text that look alike stay apart.

Whole numbers are described in full, however many digits they have, and values however deep
they are.  A runtime may set bounds to both.
-/

namespace StructuralSchema

/-- The layout of numbers in descriptions: exponents have no plus and no padding. -/
def describedLayout : Binary64.Layout :=
  ⟨[], 1, ['n', 'a', 'n'], ['i', 'n', 'f']⟩

def describeInt (i : Int) : String :=
  "Number(" ++ toString i ++ ")"

def describeArray (elements : List String) : String :=
  "Array [" ++ ", ".intercalate elements ++ "]"

/-- The description of a scalar.  Octets are an array of numbers. -/
def Scalar.describe : Scalar → String
  | .null => "Null"
  | .bool b => "Bool(" ++ (if b then "true" else "false") ++ ")"
  | .int i => describeInt i
  | .float x => "Number(" ++ x.lay describedLayout ++ ")"
  | .str text => "String(" ++ Text.quoted text ++ ")"
  | .bytes octets => describeArray (octets.map fun octet => describeInt octet.toNat)
  | .date d => (Scalar.date d).literal
  | .time t => t.literal

mutual

/-- The description of a value.  What holds itself has none, and three points stand in
its place. -/
def Value.describe : Value → String
  | .scalar s => s.describe
  | .arr elements => describeArray (describeElements elements)
  | .obj members => "Object \x7b" ++ ", ".intercalate (describeMembers members) ++ "\x7d"
  | .pair v w => describeArray [v.describe, w.describe]
  | .set elements => setLiteral elements
  | .loop _ _ => "..."
  | .endless => "..."

def describeElements : List Value → List String
  | [] => []
  | v :: rest => v.describe :: describeElements rest

def describeMembers : List (Scalar × Value) → List String
  | [] => []
  | (k, v) :: rest => (Text.quoted k.plain ++ ": " ++ v.describe) :: describeMembers rest

end

def Value.describe? (v : Value) : Option String :=
  if v.isEndless then none else some v.describe

end StructuralSchema
