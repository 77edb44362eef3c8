import StructuralSchema.Text.Digits
import StructuralSchema.Yaml.Cursor

/-!
# Quoted scalars

A scalar between quotes may run over several lines; a single line break counts as a
space, and more of them as one less.  Between double quotes a backslash escapes, and
between single quotes a quote is written twice.
-/

namespace StructuralSchema.Yaml.Quoted

def escaped? : Char → Option Char
  | '0' => some '\x00'
  | 'a' => some '\x07'
  | 'b' => some '\x08'
  | 't' => some '\t'
  | '\t' => some '\t'
  | 'n' => some '\n'
  | 'v' => some '\x0b'
  | 'f' => some '\x0c'
  | 'r' => some '\r'
  | 'e' => some '\x1b'
  | ' ' => some ' '
  | '"' => some '"'
  | '\\' => some '\\'
  | '/' => some '/'
  | 'N' => some '\x85'
  | '_' => some '\xa0'
  | 'L' => some '\u2028'
  | 'P' => some '\u2029'
  | _ => none

/-- The count of digits of an escape that gives a code point. -/
def codeLength? : Char → Option Nat
  | 'x' => some 2
  | 'u' => some 4
  | 'U' => some 8
  | _ => none

/-- The character of a code point, with `U+FFFD` for half of a pair. -/
def codeChar (code : Nat) : Except Error Char :=
  if 0x80000000 ≤ code then .error (.scalar .tooLarge)
  else if 0x110000 ≤ code then .error (.scalar .badValue)
  else if 0xd800 ≤ code ∧ code < 0xe000 then .ok '\ufffd'
  else .ok (Char.ofNat code)

def breaks : Nat → Cursor → Except Error (List Char × Cursor)
  | 0, c => .ok ([], c)
  | steps + 1, c =>
    if c.atDocumentMark then .error .malformed
    else
      let c := c.skipWhile fun char => char = ' ' || char = '\t'
      match c.takeBreak with
      | (none, _) => .ok ([], c)
      | (some b, after) => do
        let (more, last) ← breaks steps after
        return (b :: more, last)

/-- What blanks and line breaks between words count as. -/
def gap (c : Cursor) : Except Error (List Char × Cursor) :=
  let (blanks, after) := c.takeWhile fun char => char = ' ' || char = '\t'
  match after.peek, after.takeBreak with
  | none, _ => .error .malformed
  | some _, (none, _) => .ok (blanks, after)
  | some _, (some b, next) => do
    let (more, last) ← breaks next.rest.length next
    let first := if b ≠ '\n' then [b] else if more.isEmpty then [' '] else []
    return (first ++ more, last)

/-- An escape, given the place after the backslash: the character it stands for, or
nothing for a line break. -/
def escape (c : Cursor) : Except Error (List Char × Cursor) :=
  match c.peek with
  | none => .error .malformed
  | some char =>
    match escaped? char, codeLength? char with
    | some d, _ => .ok ([d], c.next)
    | none, some length =>
      let digits := c.next.rest.take length
      if digits.length < length then .error .malformed
      else
        match Text.readHex? digits with
        | none => .error .malformed
        | some code => do
          let d ← codeChar code
          return ([d], c.next.skip length)
    | none, none =>
      if isBreak char then
        let after := c.takeBreak.2
        breaks after.rest.length after
      else .error .malformed

def body (double : Bool) : Nat → Cursor → Except Error (List Char × Cursor)
  | 0, _ => .error .malformed
  | steps + 1, c =>
    match c.peek with
    | none => .error .malformed
    | some char =>
      if char = ' ' || char = '\t' || isBreak char then do
        let (text, after) ← gap c
        let (more, last) ← body double steps after
        return (text ++ more, last)
      else if double && char = '\\' then do
        let (text, after) ← escape c.next
        let (more, last) ← body double steps after
        return (text ++ more, last)
      else if !double && char = '\'' && c.peekAt 1 = some '\'' then do
        let (more, last) ← body double steps (c.skip 2)
        return ('\'' :: more, last)
      else if char = (if double then '"' else '\'') then .ok ([], c.next)
      else do
        let (more, last) ← body double steps c.next
        return (char :: more, last)

def read (double : Bool) (c : Cursor) : Except Error (String × Cursor) := do
  let (text, after) ← body double (c.rest.length + 1) c.next
  return (String.ofList text, after)

end StructuralSchema.Yaml.Quoted
