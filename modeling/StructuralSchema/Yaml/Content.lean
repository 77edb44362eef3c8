import StructuralSchema.Text.Base64
import StructuralSchema.Yaml.Node

/-!
# Content of scalars

The tag of a node says what its text is read as.  A mapping counts as a scalar as well,
if the key `=` leads to a text.
-/

namespace StructuralSchema.Yaml

def octetsOf (text : List Char) : Except Error (List UInt8) :=
  if text.all fun c => c.toNat < 0x80 then
    match Text.Base64.decode? text with
    | some octets => .ok octets
    | none => .error .malformed
  else .error .malformed

def Tag.isOfScalars : Tag → Bool
  | .null | .bool | .int | .float | .timestamp | .text | .binary => true
  | _ => false

def scalarContent (tag : Tag) (text : String) : Except Error Scalar :=
  match tag with
  | .null => .ok .null
  | .bool =>
    match Tag.boolOf? text with
    | some b => .ok (.bool b)
    | none => .error (.scalar .unknownBoolean)
  | .int => (Number.whole text.toList).map .int
  | .float => (Number.float text.toList).map .float
  | .timestamp => Timestamp.parse text.toList
  | .text => .ok (.str text)
  | .binary => (octetsOf text.toList).map .bytes
  | _ => .error .malformed

def tagAt (nodes : Array Node) (number : Nat) : Tag :=
  match nodes[number]? with
  | some n => n.tag
  | none => .unknown

def defaultEntry? (nodes : Array Node) (entries : List (Nat × Nat)) : Option Nat :=
  (entries.find? fun entry => tagAt nodes entry.1 = .default).map Prod.snd

/-- The text of a node, which may be that of another node; more steps than there are nodes
have no end. -/
def textFrom (nodes : Array Node) : Nat → Nat → Except Error String
  | 0, _ => .error (.scalar .endless)
  | steps + 1, number =>
    match nodes[number]? with
    | some (.scalar _ text) => .ok text
    | some (.mapping _ entries) =>
      match defaultEntry? nodes entries with
      | some v => textFrom nodes steps v
      | none => .error .malformed
    | _ => .error .malformed

def hasOwnText (nodes : Array Node) (number : Nat) : Bool :=
  match nodes[number]? with
  | some (.scalar _ _) => true
  | _ => false

/-- The scalar that a node stands for.  Times are not looked for in other nodes. -/
def scalarAt (nodes : Array Node) (number : Nat) : Except Error Scalar := do
  let tag := tagAt nodes number
  if !tag.isOfScalars then throw .malformed
  let text ← textFrom nodes (nodes.size + 1) number
  if tag = .timestamp && !hasOwnText nodes number then throw (.scalar .timeWithoutText)
  scalarContent tag text

end StructuralSchema.Yaml
