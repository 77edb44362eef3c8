import StructuralSchema.Text.Digits
import StructuralSchema.Text.Utf8
import StructuralSchema.Yaml.Cursor

/-!
# Anchors, tags and directives

An anchor names a node for an alias to repeat.  A tag names the kind of a node by a
handle, which directives may define, and a suffix.
-/

namespace StructuralSchema.Yaml

/-- A tag as it is written; without a handle the suffix is all of it. -/
structure WrittenTag where
  handle : Option String
  suffix : String
  deriving DecidableEq, Repr

/-- What a directive says; those of unknown name say nothing. -/
inductive Directive
  | version (major : Nat)
  | tag (handle pref : String)
  | unknown
  deriving DecidableEq, Repr

namespace Mark

def endsAnchor (after : Option Char) : Bool :=
  endsItem after || after.any fun c => "?:,]\x7d%@`".toList.contains c

def anchor (c : Cursor) : Except Error (String × Cursor) :=
  let (name, after) := c.next.takeWhile isNameChar
  if name.isEmpty || !endsAnchor after.peek then .error .malformed
  else .ok (String.ofList name, after)

def octets : Nat → Cursor → Except Error (List UInt8 × Cursor)
  | 0, c => .ok ([], c)
  | steps + 1, c =>
    if c.at? '%' then
      match (c.peekAt 1).bind Text.hexValue?, (c.peekAt 2).bind Text.hexValue? with
      | some h, some l => do
        let (more, last) ← octets steps (c.skip 3)
        return (UInt8.ofNat (16 * h + l) :: more, last)
      | _, _ => .error .malformed
    else .ok ([], c)

def tagChars : Nat → Cursor → Except Error (List Char × Cursor)
  | 0, c => .ok ([], c)
  | steps + 1, c =>
    match c.peek with
    | none => .ok ([], c)
    | some char =>
      if char = '%' then do
        let (written, after) ← octets steps c
        match Text.Utf8.decode written with
        | .error _ => throw .malformed
        | .ok text =>
          let (more, last) ← tagChars steps after
          return (text.toList ++ more, last)
      else if isTagChar char then do
        let (more, last) ← tagChars steps c.next
        return (char :: more, last)
      else .ok ([], c)

def suffix (c : Cursor) : Except Error (String × Cursor) := do
  let (text, after) ← tagChars (c.rest.length + 1) c
  if after.index = c.index then throw .malformed else return (String.ofList text, after)

/-- The handle of a tag: one mark, or a name between two. -/
def handle (c : Cursor) : Except Error (String × Cursor) :=
  if !c.at? '!' then .error .malformed
  else if c.peekAt 1 = some ' ' then .ok ("!", c.next)
  else
    let (name, after) := c.next.takeWhile isNameChar
    if after.at? '!' then .ok (String.ofList ('!' :: name ++ ['!']), after.next)
    else .error .malformed

def tag (c : Cursor) : Except Error (WrittenTag × Cursor) := do
  let (written, after) ←
    match c.peekAt 1 with
    | some '<' => do
      let (text, after) ← suffix (c.skip 2)
      if after.at? '>' then pure (WrittenTag.mk none text, after.next) else throw .malformed
    | follower =>
      if endsItem follower then pure (WrittenTag.mk none "!", c.next)
      else do
        let word := c.next.rest.takeWhile fun char => !endsWord (some char)
        let (name, afterHandle) ←
          if word.contains '!' then handle c else pure ("!", c.next)
        let (text, after) ← suffix afterHandle
        pure (WrittenTag.mk (some name) text, after)
  if endsWord after.peek then return (written, after) else throw .malformed

def number (c : Cursor) : Except Error (Nat × Cursor) :=
  let (digits, after) := c.takeWhile Char.isDigit
  if digits.isEmpty then .error .malformed
  else .ok (Text.decimalValue digits, after)

/-- What a directive says after its name, and the place after it. -/
def directiveBody (name : String) (c : Cursor) : Except Error (Directive × Cursor) :=
  if name = "YAML" then do
    let (major, afterMajor) ← number c.skipSpaces
    if !afterMajor.at? '.' then throw .malformed
    let (_, after) ← number afterMajor.next
    if endsWord after.peek then return (.version major, after) else throw .malformed
  else if name = "TAG" then do
    let (name, afterHandle) ← handle c.skipSpaces
    if !afterHandle.at? ' ' then throw .malformed
    let (text, after) ← suffix afterHandle.skipSpaces
    if endsWord after.peek then return (.tag name text, after) else throw .malformed
  else .ok (.unknown, c.takeLine.2)

def directive (c : Cursor) : Except Error (Directive × Cursor) := do
  let (name, afterName) := c.next.takeWhile isNameChar
  if name.isEmpty || !endsWord afterName.peek then throw .malformed
  let (directive, after) ← directiveBody (String.ofList name) afterName
  let last ← after.skipLineEnd
  return (directive, last)

end Mark

end StructuralSchema.Yaml
