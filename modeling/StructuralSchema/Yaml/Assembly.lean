import StructuralSchema.Value.Slots
import StructuralSchema.Yaml.Merge

/-!
# Putting a document together

Every node becomes a part of the document.  A scalar is read when it is met, while a
collection only gets its place and is filled later, when all collections met before it
have been filled.  So of two faults the one nearer to the root comes first.
-/

namespace StructuralSchema.Yaml

/-- A key of a mapping.  What is no number is unlike all other keys if it was read from
the digits of node `own`; those of the other spellings are all the same. -/
structure Key where
  scalar : Scalar
  own : Option Nat := none

def Key.same (a b : Key) : Bool :=
  match a.scalar, b.scalar with
  | .float .nan, .float .nan => a.own == b.own
  | s, t => s.same t

def putEntry (key : Key) (v : Nat) : List (Key × Nat) → List (Key × Nat)
  | [] => [(key, v)]
  | (k, w) :: rest => if k.same key then (k, v) :: rest else (k, w) :: putEntry key v rest

/-- What a node has become; collections hold the numbers of nodes. -/
inductive Part
  | scalar (key : Key)
  | arr (items : List Nat)
  | obj (members : List (Scalar × Nat))
  | set (elements : List Scalar)
  | pairs (entries : List (Nat × Nat))

/-- The nodes of a document with what they have become, and the collections in the order
in which they were met.  At most `merges` merge keys are still to be followed. -/
structure Assembly where
  nodes : Array Node
  merges : Nat
  parts : Array (Option Part)
  met : Array Nat := #[]

namespace Assembly

def start (d : Document) : Assembly :=
  { nodes := d.nodes
    merges := Merge.mergeCount d.nodes
    parts := Array.replicate d.nodes.size none }

def put (a : Assembly) (number : Nat) (part : Part) : Assembly :=
  { a with parts := a.parts.set! number (some part) }

def meetCollection (a : Assembly) (number : Nat) (empty : Part) : Assembly :=
  { a.put number empty with met := a.met.push number }

def readScalar (a : Assembly) (number : Nat) : Except Error Assembly := do
  let s ← scalarAt a.nodes number
  let text ← textFrom a.nodes (a.nodes.size + 1) number
  let own := if Number.isNanWord text.toList then none else some number
  return a.put number (.scalar ⟨s, own⟩)

def meet (a : Assembly) (number : Nat) : Except Error Assembly :=
  match a.parts[number]? with
  | some (some _) => .ok a
  | _ =>
    match tagAt a.nodes number with
    | .sequence => .ok (a.meetCollection number (.arr []))
    | .mapping => .ok (a.meetCollection number (.obj []))
    | .set => .ok (a.meetCollection number (.set []))
    | .pairs => .ok (a.meetCollection number (.pairs []))
    | _ => a.readScalar number

/-- The key that a node has become, which has to be a scalar. -/
def keyAt (a : Assembly) (number : Nat) : Except Error Key :=
  match a.parts[number]? with
  | some (some (.scalar key)) => .ok key
  | _ => .error .malformed

/-- Meets the nodes of entries, each key before its value, and joins the entries that have
the same key. -/
def meetEntries (a : Assembly) (entries : List (Nat × Nat)) :
    Except Error (Assembly × List (Key × Nat)) :=
  entries.foldlM (fun (met : Assembly × List (Key × Nat)) (entry : Nat × Nat) => do
    let a ← met.1.meet entry.1
    let key ← a.keyAt entry.1
    let a ← a.meet entry.2
    return (a, putEntry key entry.2 met.2)) (a, [])

def meetMapping (a : Assembly) (number : Nat) : Except Error (Assembly × List (Key × Nat)) :=
  match a.nodes[number]? with
  | some (.mapping _ _) => do
    let nodes ← Merge.flatten a.merges a.nodes number
    { a with nodes := nodes }.meetEntries (Merge.entriesAt nodes number)
  | _ => .error .malformed

def meetPairs (a : Assembly) (items : List Nat) :
    Except Error (Assembly × List (Nat × Nat)) :=
  items.foldlM (fun (met : Assembly × List (Nat × Nat)) (item : Nat) =>
    match met.1.nodes[item]? with
    | some (.mapping _ [entry]) => do
      let a ← met.1.meet entry.1
      let a ← a.meet entry.2
      return (a, met.2 ++ [entry])
    | _ => throw .malformed) (a, [])

def fill (a : Assembly) (number : Nat) : Except Error Assembly :=
  match tagAt a.nodes number, a.nodes[number]? with
  | .sequence, some (.sequence _ items) => do
    let a ← items.foldlM meet a
    return a.put number (.arr items)
  | .mapping, _ => do
    let (a, members) ← a.meetMapping number
    return a.put number (.obj (members.map fun m => (m.1.scalar, m.2)))
  | .set, _ => do
    let (a, members) ← a.meetMapping number
    return a.put number (.set (Slots.order (members.map fun m => m.1.scalar)))
  | .pairs, some (.sequence _ items) => do
    let (a, pairs) ← a.meetPairs items
    return a.put number (.pairs pairs)
  | _, _ => .error .malformed

/-- Fills the collections from one on in the order in which they are met; no node is met
twice. -/
def fillFrom : Nat → Nat → Assembly → Except Error Assembly
  | 0, _, a => .ok a
  | steps + 1, place, a =>
    match a.met[place]? with
    | none => .ok a
    | some number => do fillFrom steps (place + 1) (← a.fill number)

end Assembly

def Document.parts (d : Document) : Except Error (Array (Option Part)) := do
  let a ← (Assembly.start d).meet d.root
  return (← a.fillFrom (d.nodes.size + 1) 0).parts

end StructuralSchema.Yaml
