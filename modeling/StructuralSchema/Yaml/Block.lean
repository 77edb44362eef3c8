import StructuralSchema.Yaml.Cursor

/-!
# Block scalars

A literal or folded scalar takes all the lines that are indented as far as its first
one.  Its header may fix the indentation and say what becomes of the breaks at its end.
-/

namespace StructuralSchema.Yaml.Block

inductive Chomping
  | strip
  | clip
  | keep
  deriving DecidableEq, Repr

structure Header where
  chomping : Chomping
  indentation : Option Nat

def chomping (c : Cursor) : Chomping × Cursor :=
  match c.peek with
  | some '+' => (.keep, c.next)
  | some '-' => (.strip, c.next)
  | _ => (.clip, c)

def indentation (c : Cursor) : Except Error (Option Nat × Cursor) :=
  match c.peek with
  | some char =>
    if char = '0' then .error .malformed
    else if char.isDigit then .ok (some (char.toNat - '0'.toNat), c.next)
    else .ok (none, c)
  | none => .ok (none, c)

def header (c : Cursor) : Except Error (Header × Cursor) := do
  let (first, afterFirst) := chomping c
  let (width, afterWidth) ← indentation afterFirst
  let (mark, last) := if first = .clip then chomping afterWidth else (first, afterWidth)
  if endsWord last.peek then return (⟨mark, width⟩, last) else throw .malformed

/-- The breaks of the empty lines at the start, and the greatest indentation seen. -/
def leadingBreaks : Nat → Nat → Cursor → List Char × Nat × Cursor
  | 0, widest, c => ([], widest, c)
  | steps + 1, widest, c =>
    if c.at? ' ' then leadingBreaks steps (max widest c.next.column) c.next
    else
      match c.takeBreak with
      | (none, _) => ([], widest, c)
      | (some b, after) =>
        let (more, width, last) := leadingBreaks steps widest after
        (b :: more, width, last)

def skipIndentation (width : Nat) : Nat → Cursor → Cursor
  | 0, c => c
  | steps + 1, c =>
    if c.column < width && c.at? ' ' then skipIndentation width steps c.next else c

/-- The breaks of the empty lines that come next, and the place after the indentation of
the line behind them. -/
def innerBreaks (width : Nat) : Nat → Cursor → List Char × Cursor
  | 0, c => ([], c)
  | steps + 1, c =>
    let c := skipIndentation width width c
    match c.takeBreak with
    | (none, _) => ([], c)
    | (some b, after) =>
      let (more, last) := innerBreaks width steps after
      (b :: more, last)

def atBlank (c : Cursor) : Bool :=
  c.at? ' ' || c.at? '\t'

/-- The lines of a scalar with the breaks before them, and what is left for chomping:
the last break and the breaks of the empty lines after it. -/
def lines (folded : Bool) (width : Nat) :
    Nat → List Char → Cursor → List Char × Option Char × List Char × Cursor
  | 0, before, c => ([], none, before, c)
  | steps + 1, before, c =>
    let (line, lineEnd) := c.takeLine
    let (b, afterBreak) := lineEnd.takeBreak
    let (more, after) := innerBreaks width afterBreak.rest.length afterBreak
    if after.column = width && after.peek.isSome then
      let joint :=
        if folded && b = some '\n' && !atBlank c && !atBlank after then
          if more.isEmpty then [' '] else []
        else b.toList
      let (text, lastBreak, ending, last) := lines folded width steps more after
      (before ++ line ++ joint ++ text, lastBreak, ending, last)
    else (before ++ line, b, more, after)

/-- A block scalar within a block of indentation `indent`, given the place of its
mark. -/
def read (folded : Bool) (indent : Int) (c : Cursor) : Except Error (String × Cursor) := do
  let (h, afterHeader) ← header c.next
  let start ← afterHeader.skipLineEnd
  let least := (max (indent + 1) 1).toNat
  let (before, width, first) := match h.indentation with
    | none =>
      let (before, widest, first) := leadingBreaks start.rest.length 0 start
      (before, max least widest, first)
    | some n =>
      let width := least + n - 1
      let (before, first) := innerBreaks width (start.rest.length + 1) start
      (before, width, first)
  let (text, lastBreak, ending, last) :=
    if first.column = width && first.peek.isSome then
      lines folded width first.rest.length before first
    else ([], none, before, first)
  let tail := match h.chomping with
    | .strip => []
    | .clip => lastBreak.toList
    | .keep => lastBreak.toList ++ ending
  return (String.ofList (text ++ tail), last)

end StructuralSchema.Yaml.Block
