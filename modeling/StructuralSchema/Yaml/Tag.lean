import StructuralSchema.Text.Cut
import StructuralSchema.Yaml.Number
import StructuralSchema.Yaml.Timestamp

/-!
# Tags

The kind of a scalar without a tag is seen from its text; a quoted scalar is a text.
-/

namespace StructuralSchema.Yaml

inductive Tag
  | null
  | bool
  | int
  | float
  | timestamp
  | text
  | binary
  | merge
  | default
  | sequence
  | mapping
  | set
  /-- Pairs in a sequence, whether or not the first of a pair may come again. -/
  | pairs
  | unknown
  deriving DecidableEq, Repr, Inhabited

def standardHandle : String :=
  "tag:yaml.org,2002:"

namespace Tag

def standard : List (String × Tag) :=
  [("null", .null), ("bool", .bool), ("int", .int), ("float", .float),
   ("timestamp", .timestamp), ("str", .text), ("binary", .binary), ("merge", .merge),
   ("value", .default), ("seq", .sequence), ("map", .mapping), ("set", .set),
   ("omap", .pairs), ("pairs", .pairs)]

def ofName (name : String) : Tag :=
  match standard.find? fun entry => standardHandle ++ entry.1 = name with
  | some entry => entry.2
  | none => .unknown

def boolWords : List (String × Bool) :=
  [("yes", true), ("no", false), ("true", true), ("false", false), ("on", true), ("off", false)]

/-- A word in lower case, in capitals or with a capital first. -/
def spellings (word : String) : List (List Char) :=
  let upper := word.toList.map Char.toUpper
  [word.toList, upper.take 1 ++ word.toList.drop 1, upper]

def boolOf? (text : String) : Option Bool :=
  boolWords.lookup (Text.lowerAscii text)

/-- The kind that the form of a text shows. -/
def ofForm (chars : List Char) : Tag :=
  if boolWords.any fun entry => (spellings entry.1).contains chars then .bool
  else if Number.isFloat chars then .float
  else if Number.isWhole chars then .int
  else if chars = ['<', '<'] then .merge
  else if chars = ['~'] || (spellings "null").contains chars then .null
  else if Timestamp.isForm chars then .timestamp
  else if chars = ['='] then .default
  else if chars = ['!'] || chars = ['&'] || chars = ['*'] then .unknown
  else .text

/-- The kind of a scalar without a tag.  A line break at its end does not count, unless
there is nothing else. -/
def ofText (text : String) : Tag :=
  match text.toList, text.toList.getLast? with
  | [], _ => .null
  | chars, some '\n' => ofForm chars.dropLast
  | chars, _ => ofForm chars

end Tag

end StructuralSchema.Yaml
