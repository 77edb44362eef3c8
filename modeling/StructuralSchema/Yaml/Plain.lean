import StructuralSchema.Yaml.Cursor

/-!
# Plain scalars

A scalar without quotes ends at a comment, at a colon that ends its word and, within a
flow collection, at the marks of the collection.  It goes on over lines that are
indented further than the block it stands in.
-/

namespace StructuralSchema.Yaml.Plain

/-- A plain scalar starts with this character, given what follows it. -/
def startsWith (inFlow : Bool) (char : Char) (after : Option Char) : Bool :=
  !(endsItem (some char) || isIndicator char) ||
    (!endsItem after && (char = '-' || (!inFlow && (char = '?' || char = ':'))))

/-- The character ends a run of a plain scalar, given what follows it. -/
def endsRun (inFlow : Bool) (char : Char) (after : Option Char) : Bool :=
  endsItem (some char) ||
    (char = ':' && (endsItem after || (inFlow && after.any isFlowMark))) ||
    (inFlow && (char = '?' || isFlowMark char))

def run (inFlow : Bool) : List Char → List Char
  | [] => []
  | char :: rest => if endsRun inFlow char rest.head? then [] else char :: run inFlow rest

/-- What blanks between two runs are: the text they count as, whether a line ended, and
the place after them.  At a mark between documents there is no text. -/
structure Gap where
  text : List Char
  brokeLine : Bool
  after : Cursor

/-- The breaks of the empty lines that come next, none at a mark between documents. -/
def breaks : Nat → Cursor → Option (List Char) × Cursor
  | 0, c => (some [], c)
  | steps + 1, c =>
    if c.atDocumentMark then (none, c)
    else
      let c := c.skipSpaces
      match c.takeBreak with
      | (none, _) => (some [], c)
      | (some b, after) =>
        match breaks steps after with
        | (none, last) => (none, last)
        | (some more, last) => (some (b :: more), last)

def gap (c : Cursor) : Gap :=
  let (blanks, after) := c.takeWhile (· = ' ')
  match after.takeBreak with
  | (none, _) => ⟨blanks, false, after⟩
  | (some b, next) =>
    match breaks (next.rest.length + 1) next with
    | (none, last) => ⟨[], true, last⟩
    | (some more, last) =>
      let first := if b ≠ '\n' then [b] else if more.isEmpty then [' '] else []
      ⟨first ++ more, true, last⟩

/-- The runs of a plain scalar with `before` in front of the next one, whether the last
gap ended a line, and the place after them. -/
def runs (inFlow : Bool) (indent : Int) :
    Nat → List Char → Bool → Cursor → List Char × Bool × Cursor
  | 0, _, broke, c => ([], broke, c)
  | steps + 1, before, broke, c =>
    match c.at? '#', run inFlow c.rest with
    | true, _ => ([], broke, c)
    | false, [] => ([], broke, c)
    | false, word =>
      let g := gap (c.skip word.length)
      if g.text.isEmpty || g.after.at? '#' || (!inFlow && (g.after.column : Int) < indent) then
        (before ++ word, g.brokeLine, g.after)
      else
        let (more, brokeLast, last) := runs inFlow indent steps g.text g.brokeLine g.after
        (before ++ word ++ more, brokeLast, last)

/-- A plain scalar within a block of indentation `indent`, whether a line ended after its
last run, and the place after it. -/
def read (inFlow : Bool) (indent : Int) (c : Cursor) : String × Bool × Cursor :=
  let (text, broke, last) := runs inFlow (indent + 1) (c.rest.length + 1) [] false c
  (String.ofList text, broke, last)

end StructuralSchema.Yaml.Plain
