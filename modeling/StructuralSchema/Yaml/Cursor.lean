import StructuralSchema.Yaml.Character
import StructuralSchema.Yaml.Error

/-!
# A place in YAML text

Columns decide what belongs to which block, and a key has to stand on one line, so
the place in the text is kept while it is read.
-/

namespace StructuralSchema.Yaml

/-- The characters that are left, and where the first of them stands. -/
structure Cursor where
  rest : List Char
  index : Nat
  line : Nat
  column : Nat

namespace Cursor

def start (text : List Char) : Cursor :=
  ⟨text, 0, 0, 0⟩

def peek (c : Cursor) : Option Char :=
  c.rest.head?

def peekAt (c : Cursor) (n : Nat) : Option Char :=
  c.rest[n]?

def at? (c : Cursor) (char : Char) : Bool :=
  c.peek = some char

def next (c : Cursor) : Cursor :=
  match c.rest with
  | [] => c
  | '\r' :: '\n' :: rest => { c with rest := '\n' :: rest, index := c.index + 1 }
  | char :: rest =>
    if isBreak char then ⟨rest, c.index + 1, c.line + 1, 0⟩
    else ⟨rest, c.index + 1, c.line, if char = '\ufeff' then c.column else c.column + 1⟩

def skip (c : Cursor) : Nat → Cursor
  | 0 => c
  | n + 1 => c.next.skip n

def takeWhile (c : Cursor) (kind : Char → Bool) : List Char × Cursor :=
  let taken := c.rest.takeWhile kind
  (taken, c.skip taken.length)

def skipWhile (c : Cursor) (kind : Char → Bool) : Cursor :=
  (c.takeWhile kind).2

def skipSpaces (c : Cursor) : Cursor :=
  c.skipWhile (· = ' ')

def takeLine (c : Cursor) : List Char × Cursor :=
  c.takeWhile fun char => !isBreak char

/-- The line break that comes next as it counts in a text, and the place after it. -/
def takeBreak (c : Cursor) : Option Char × Cursor :=
  match c.rest with
  | '\r' :: '\n' :: _ => (some '\n', c.skip 2)
  | '\u2028' :: _ => (some '\u2028', c.next)
  | '\u2029' :: _ => (some '\u2029', c.next)
  | char :: _ => if isBreak char then (some '\n', c.next) else (none, c)
  | [] => (none, c)

/-- Three of a mark come next, and then nothing of the same word. -/
def atSeparator (c : Cursor) (mark : Char) : Bool :=
  c.rest.take 3 = [mark, mark, mark] && endsItem (c.peekAt 3)

def atDocumentMark (c : Cursor) : Bool :=
  c.atSeparator '-' || c.atSeparator '.'

def skipComment (c : Cursor) : Cursor :=
  if c.at? '#' then c.takeLine.2 else c

/-- The place after the rest of a line that may only hold spaces and a comment. -/
def skipLineEnd (c : Cursor) : Except Error Cursor :=
  let c := c.skipSpaces.skipComment
  if endsLine c.peek then .ok c.takeBreak.2 else .error .malformed

end Cursor

end StructuralSchema.Yaml
