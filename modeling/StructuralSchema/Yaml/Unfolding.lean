import StructuralSchema.Yaml.Assembly

/-!
# Unfolding a document

The parts of a document refer to each other by number.  A part that cannot be reached
from itself is written out as a value; one that leads back to itself is written out to a
depth at which nobody looks at it any more.
-/

namespace StructuralSchema.Yaml

def Part.value (valueAt : Nat → Value) : Part → Value
  | .scalar key => .scalar key.scalar
  | .arr items => .arr (items.map valueAt)
  | .obj members => .obj (members.map fun m => (m.1, valueAt m.2))
  | .set elements => .set elements
  | .pairs entries => .arr (entries.map fun e => .pair (valueAt e.1) (valueAt e.2))

def Part.held : Part → List Nat
  | .scalar _ => []
  | .arr items => items
  | .obj members => members.map Prod.snd
  | .set _ => []
  | .pairs entries => entries.flatMap fun e => [e.1, e.2]

def entryOf (table : Array (Option Value)) (number : Nat) : Option Value :=
  (table[number]?).join

/-- Writes out the parts all of whose nodes have been written out. -/
def writeOut (parts : Array (Option Part)) (known : Array (Option Value)) :
    Array (Option Value) :=
  (Array.range parts.size).map fun number =>
    match entryOf known number, (parts[number]?).join with
    | some v, _ => some v
    | none, some part =>
      if part.held.all fun n => (entryOf known n).isSome then
        some (part.value fun n => (entryOf known n).getD .null)
      else none
    | none, none => none

/-- Writes out parts until that of the root is.  As many rounds as there are parts write
out all that can be. -/
def writeOutAll (parts : Array (Option Part)) (root : Nat) :
    Nat → Array (Option Value) → Array (Option Value)
  | 0, known => known
  | steps + 1, known =>
    if (entryOf known root).isSome then known
    else writeOutAll parts root steps (writeOut parts known)

def unfold (parts : Array (Option Part)) (known : Array (Option Value))
    (level : Array Value) : Array Value :=
  (Array.range parts.size).map fun number =>
    match entryOf known number, (parts[number]?).join with
    | some v, _ => v
    | none, some part => .loop number (part.value fun n => (level[n]?).getD .endless)
    | none, none => .endless

def unfoldTo (parts : Array (Option Part)) (known : Array (Option Value)) :
    Nat → Array Value
  | 0 => known.map fun v => v.getD .endless
  | depth + 1 => unfold parts known (unfoldTo parts known depth)

/-- The depth to which values that hold themselves are written out. -/
def unfoldingDepth : Nat :=
  1000

def Document.value (d : Document) : Except Error Value := do
  let parts ← d.parts
  let known := writeOutAll parts d.root (parts.size + 1) (Array.replicate parts.size none)
  match entryOf known d.root with
  | some v => return v
  | none => return ((unfoldTo parts known unfoldingDepth)[d.root]?).getD .endless

/-- The value that the one document of a text stands for; a text without a document
stands for null. -/
def parse (text : String) : Except Error Value := do
  match ← Document.ofTokens? (tokens text.toList) with
  | none => return .null
  | some d => d.value

end StructuralSchema.Yaml
