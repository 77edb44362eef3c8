/-!
# Blank characters

A character is blank when it separates words: the ASCII controls that move the
carriage, the four information separators, the space and the Unicode spaces
and line separators.  Identifiers refuse blanks and settings are trimmed of them.
-/

namespace StructuralSchema.Text

/-- The blank code points, as runs with both ends included. -/
def blankRuns : List (Nat × Nat) :=
  [(0x09, 0x0d), (0x1c, 0x20), (0x85, 0x85), (0xa0, 0xa0), (0x1680, 0x1680),
   (0x2000, 0x200a), (0x2028, 0x2029), (0x202f, 0x202f), (0x205f, 0x205f),
   (0x3000, 0x3000)]

def inRuns (runs : List (Nat × Nat)) (c : Char) : Bool :=
  runs.any fun run => run.1 ≤ c.toNat && c.toNat ≤ run.2

def isBlank (c : Char) : Bool :=
  inRuns blankRuns c

def hasBlank (text : String) : Bool :=
  text.toList.any isBlank

def trimBlanks (text : String) : String :=
  String.ofList ((((text.toList.dropWhile isBlank).reverse).dropWhile isBlank).reverse)

end StructuralSchema.Text
