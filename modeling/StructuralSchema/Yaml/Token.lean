import StructuralSchema.Yaml.Block
import StructuralSchema.Yaml.Mark
import StructuralSchema.Yaml.Plain
import StructuralSchema.Yaml.Quoted

/-!
# Tokens of YAML text

Tokens make the structure of a text plain: indentation becomes marks for the start and
end of blocks, and a key gets a mark in front once its colon is seen.  Until then the
place of a token that could start a key is remembered, one for each level of nesting
of flow collections.
-/

namespace StructuralSchema.Yaml

inductive Token
  | directive (d : Directive)
  | documentStart
  | documentEnd
  | blockSequenceStart
  | blockMappingStart
  | blockEnd
  | flowSequenceStart
  | flowSequenceEnd
  | flowMappingStart
  | flowMappingEnd
  | blockEntry
  | flowEntry
  | key
  | value
  | alias (name : String)
  | anchor (name : String)
  | tag (written : WrittenTag)
  | scalar (text : String) (plain : Bool)
  deriving DecidableEq, Repr

/-- A token that could start a key: its number, its place, and whether it has to. -/
structure KeyPlace where
  number : Nat
  required : Bool
  index : Nat
  line : Nat
  column : Nat

structure Lexer where
  cursor : Cursor
  /-- The tokens so far, newest first. -/
  tokens : List Token := []
  flowLevel : Nat := 0
  /-- The column of the block that is being read, and of those around it. -/
  indent : Int := -1
  outerIndents : List Int := []
  allowKey : Bool := true
  /-- The tokens that could start a key, by level of nesting. -/
  keyPlaces : List (Nat × KeyPlace) := []

namespace Lexer

def push (l : Lexer) (t : Token) : Lexer :=
  { l with tokens := t :: l.tokens }

def insertBefore (l : Lexer) (number : Nat) (t : Token) : Lexer :=
  { l with tokens := l.tokens.insertIdx (l.tokens.length - number) t }

/-- A token could have started a key, but its line or 1024 characters went by. -/
def isStale (l : Lexer) (k : KeyPlace) : Bool :=
  k.line ≠ l.cursor.line || 1024 < l.cursor.index - k.index

def dropStale (l : Lexer) : Except Error Lexer :=
  if l.keyPlaces.any fun entry => l.isStale entry.2 && entry.2.required then .error .malformed
  else .ok { l with keyPlaces := l.keyPlaces.filter fun entry => !l.isStale entry.2 }

/-- Forgets the token of this level that could start a key; one that had to is an
error. -/
def dropKeyPlace (l : Lexer) : Except Error Lexer :=
  match l.keyPlaces.lookup l.flowLevel with
  | none => .ok l
  | some k =>
    if k.required then .error .malformed
    else .ok { l with keyPlaces := l.keyPlaces.filter fun entry => entry.1 ≠ l.flowLevel }

/-- Remembers the next token as one that could start a key, if keys may start here. -/
def saveKeyPlace (l : Lexer) : Except Error Lexer :=
  if l.allowKey then do
    let l ← l.dropKeyPlace
    let place : KeyPlace :=
      { number := l.tokens.length
        required := l.flowLevel = 0 && l.indent = l.cursor.column
        index := l.cursor.index
        line := l.cursor.line
        column := l.cursor.column }
    return { l with keyPlaces := (l.flowLevel, place) :: l.keyPlaces }
  else .ok l

def unwind (l : Lexer) (column : Int) : Lexer :=
  if l.flowLevel = 0 then go l l.outerIndents else l
where
  go (l : Lexer) : List Int → Lexer
    | [] => l
    | outer :: rest =>
      if column < l.indent then
        go { l with tokens := .blockEnd :: l.tokens, indent := outer, outerIndents := rest } rest
      else l

def indentTo (l : Lexer) (column : Nat) : Option Lexer :=
  if l.indent < column then
    some { l with indent := column, outerIndents := l.indent :: l.outerIndents }
  else none

def moveTo (l : Lexer) (c : Cursor) : Lexer :=
  { l with cursor := c }

def allowing (l : Lexer) (allow : Bool) : Lexer :=
  { l with allowKey := allow }

/-- Goes past spaces, comments and line ends.  After a line end keys may start, unless
within a flow collection. -/
def skipGaps : Nat → Lexer → Lexer
  | 0, l => l
  | steps + 1, l =>
    let c := l.cursor.skipSpaces.skipComment
    match c.takeBreak with
    | (none, _) => l.moveTo c
    | (some _, after) =>
      skipGaps steps { l with cursor := after, allowKey := l.allowKey || l.flowLevel = 0 }

/-- A mark between documents or a directive: it ends all blocks. -/
def documentToken (l : Lexer) (t : Token) (after : Cursor) : Except Error Lexer := do
  let l ← (l.unwind (-1)).dropKeyPlace
  return ((l.allowing false).push t).moveTo after

def flowStart (l : Lexer) (t : Token) : Except Error Lexer := do
  let l ← l.saveKeyPlace
  return { (l.push t) with
    cursor := l.cursor.next, flowLevel := l.flowLevel + 1, allowKey := true }

def flowEnd (l : Lexer) (t : Token) : Except Error Lexer := do
  let l ← l.dropKeyPlace
  if l.flowLevel = 0 then throw .malformed
  return { (l.push t) with
    cursor := l.cursor.next, flowLevel := l.flowLevel - 1, allowKey := false }

def flowEntry (l : Lexer) : Except Error Lexer := do
  let l ← l.dropKeyPlace
  return ((l.allowing true).push .flowEntry).moveTo l.cursor.next

/-- The start of a block if the mark at the cursor is indented further, which it may be
only where keys may start. -/
def openBlock (l : Lexer) (t : Token) : Except Error Lexer :=
  if l.flowLevel ≠ 0 then .ok l
  else if !l.allowKey then .error .malformed
  else
    match l.indentTo l.cursor.column with
    | some l => .ok (l.push t)
    | none => .ok l

def blockEntry (l : Lexer) : Except Error Lexer := do
  let l ← l.openBlock .blockSequenceStart
  let l ← (l.allowing true).dropKeyPlace
  return (l.push .blockEntry).moveTo l.cursor.next

def explicitKey (l : Lexer) : Except Error Lexer := do
  let l ← l.openBlock .blockMappingStart
  let l ← (l.allowing (l.flowLevel = 0)).dropKeyPlace
  return (l.push .key).moveTo l.cursor.next

/-- The mark of a value.  A token on the same level that could start a key now does. -/
def valueMark (l : Lexer) : Except Error Lexer :=
  match l.keyPlaces.lookup l.flowLevel with
  | some k =>
    let l := { l with keyPlaces := l.keyPlaces.filter fun entry => entry.1 ≠ l.flowLevel }
    let l := l.insertBefore k.number .key
    let l :=
      if l.flowLevel = 0 then
        match l.indentTo k.column with
        | some l => l.insertBefore k.number .blockMappingStart
        | none => l
      else l
    .ok (((l.allowing false).push .value).moveTo l.cursor.next)
  | none => do
    let l ← l.openBlock .blockMappingStart
    let l ← (l.allowing (l.flowLevel = 0)).dropKeyPlace
    return (l.push .value).moveTo l.cursor.next

/-- A token that could start a key, and whether keys may start after it. -/
def keyable (l : Lexer) (t : Token) (after : Cursor) (allow : Bool) : Except Error Lexer := do
  let l ← l.saveKeyPlace
  return ((l.allowing allow).push t).moveTo after

def blockScalar (l : Lexer) (folded : Bool) : Except Error Lexer := do
  let l ← (l.allowing true).dropKeyPlace
  let (text, after) ← Block.read folded l.indent l.cursor
  return (l.push (.scalar text false)).moveTo after

def token (l : Lexer) (char : Char) : Except Error Lexer :=
  let c := l.cursor
  let inFlow := l.flowLevel ≠ 0
  let follower := c.peekAt 1
  if char = '%' && c.column = 0 then do
    let (d, after) ← Mark.directive c
    l.documentToken (.directive d) after
  else if c.column = 0 && c.atSeparator '-' then l.documentToken .documentStart (c.skip 3)
  else if c.column = 0 && c.atSeparator '.' then l.documentToken .documentEnd (c.skip 3)
  else if char = '[' then l.flowStart .flowSequenceStart
  else if char = '\x7b' then l.flowStart .flowMappingStart
  else if char = ']' then l.flowEnd .flowSequenceEnd
  else if char = '\x7d' then l.flowEnd .flowMappingEnd
  else if char = ',' then l.flowEntry
  else if char = '-' && endsItem follower then l.blockEntry
  else if char = '?' && (inFlow || endsItem follower) then l.explicitKey
  else if char = ':' && (inFlow || endsItem follower) then l.valueMark
  else if char = '*' then do
    let (name, after) ← Mark.anchor c
    l.keyable (.alias name) after false
  else if char = '&' then do
    let (name, after) ← Mark.anchor c
    l.keyable (.anchor name) after false
  else if char = '!' then do
    let (written, after) ← Mark.tag c
    l.keyable (.tag written) after false
  else if char = '|' && !inFlow then l.blockScalar false
  else if char = '>' && !inFlow then l.blockScalar true
  else if char = '\'' || char = '"' then do
    let (text, after) ← Quoted.read (char = '"') c
    l.keyable (.scalar text false) after false
  else if Plain.startsWith inFlow char follower then
    let (text, broke, after) := Plain.read inFlow l.indent c
    l.keyable (.scalar text true) after broke
  else .error .malformed

/-- The tokens that are out of reach of what comes next: those before the first one that
could still start a key. -/
def settled (l : Lexer) : List Token :=
  let held := l.keyPlaces.filter fun entry => entry.2.required || !l.isStale entry.2
  l.tokens.reverse.take (held.foldl (fun least entry => min least entry.2.number) l.tokens.length)

/-- Reads the next token and whatever marks come before it; at the end of the text, what
ends all blocks.  At most `gaps` line ends are passed over. -/
def step (gaps : Nat) (l : Lexer) : Except Error (Lexer × Bool) := do
  let l ← (skipGaps gaps l).dropStale
  let l := l.unwind l.cursor.column
  match l.cursor.peek with
  | none => return (← (l.unwind (-1)).dropKeyPlace, true)
  | some char => return (← l.token char, false)

end Lexer

/-- The tokens of a text, and the error that comes after them if they do not reach its
end.  An error comes as late as it can: all tokens are there that do not depend on what
is at fault. -/
structure TokenRun where
  tokens : List Token
  error : Option Error

/-- Reads tokens to the end of the text.  Every step passes over a character, so as many
steps as there are characters, and one for the end, are enough. -/
def Lexer.run : Nat → Lexer → TokenRun
  | 0, l => ⟨l.settled, some .malformed⟩
  | steps + 1, l =>
    match l.step (steps + 1) with
    | .error e => ⟨l.settled, some e⟩
    | .ok (l, true) => ⟨l.tokens.reverse, none⟩
    | .ok (l, false) => run steps l

def tokens (text : List Char) : TokenRun :=
  if text.all isAllowed then
    let start := Cursor.start text
    Lexer.run (text.length + 1) { cursor := if start.at? '\ufeff' then start.next else start }
  else ⟨[], some .malformed⟩

end StructuralSchema.Yaml
