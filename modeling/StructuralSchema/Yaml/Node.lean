import StructuralSchema.Yaml.Tag
import StructuralSchema.Yaml.Token

/-!
# Nodes of YAML documents

The tokens of a text make up one document: scalars, sequences and mappings, each with
its tag.  As an alias stands for the very node that its anchor names, and may even stand
within that node, nodes have numbers and hold the numbers of others.
-/

namespace StructuralSchema.Yaml

inductive Node
  | scalar (tag : Tag) (text : String)
  | sequence (tag : Tag) (items : List Nat)
  | mapping (tag : Tag) (entries : List (Nat × Nat))
  deriving Inhabited

def Node.tag : Node → Tag
  | .scalar tag _ => tag
  | .sequence tag _ => tag
  | .mapping tag _ => tag

def Node.retag (tag : Tag) : Node → Node
  | .scalar _ text => .scalar tag text
  | .sequence _ items => .sequence tag items
  | .mapping _ entries => .mapping tag entries

def Node.empty : Node :=
  .scalar .null ""

structure Document where
  nodes : Array Node
  root : Nat

abbrev Handles : Type := List (String × String)

/-- Where the reading of nodes stands: the tokens left and what comes after them, the
nodes so far, and the numbers of those with names. -/
structure Pending where
  rest : TokenRun
  nodes : Array Node := #[]
  anchors : List (String × Nat) := []

namespace Pending

/-- The next token.  Where tokens end with an error it is an error to ask for more. -/
def peek (p : Pending) : Except Error (Option Token) :=
  match p.rest.tokens, p.rest.error with
  | t :: _, _ => .ok (some t)
  | [], none => .ok none
  | [], some e => .error e

def next (p : Pending) : Pending :=
  { p with rest := { p.rest with tokens := p.rest.tokens.drop 1 } }

def isAt (p : Pending) (choices : List Token) : Except Error Bool := do
  return (← p.peek).any choices.contains

def expect (p : Pending) (t : Token) : Except Error Pending := do
  if (← p.peek) = some t then return p.next else throw .malformed

def add (p : Pending) (n : Node) : Nat × Pending :=
  (p.nodes.size, { p with nodes := p.nodes.push n })

/-- A number for a node whose parts are still to come, under a name if it has one; a name
is given only once. -/
def reserve (p : Pending) (anchor : Option String) : Except Error (Nat × Pending) :=
  let (number, q) := p.add .empty
  match anchor with
  | none => .ok (number, q)
  | some a =>
    if (p.anchors.lookup a).isSome then .error .malformed
    else .ok (number, { q with anchors := (a, number) :: q.anchors })

def put (p : Pending) (number : Nat) (n : Node) : Pending :=
  { p with nodes := p.nodes.set! number n }

end Pending

structure Properties where
  anchor : Option String := none
  tag : Option WrittenTag := none

namespace Properties

/-- The anchor and the tag that come next, in either order. -/
def read (p : Pending) : Except Error (Properties × Pending) := do
  match ← p.peek with
  | some (.anchor a) =>
    match ← p.next.peek with
    | some (.tag t) => return (⟨some a, some t⟩, p.next.next)
    | _ => return (⟨some a, none⟩, p.next)
  | some (.tag t) =>
    match ← p.next.peek with
    | some (.anchor a) => return (⟨some a, some t⟩, p.next.next)
    | _ => return (⟨none, some t⟩, p.next)
  | _ => return ({}, p)

def isSome (ps : Properties) : Bool :=
  ps.anchor.isSome || ps.tag.isSome

def tagName? (handles : Handles) (ps : Properties) : Except Error (Option String) :=
  match ps.tag with
  | none => .ok none
  | some ⟨none, suffix⟩ => .ok (some suffix)
  | some ⟨some handle, suffix⟩ =>
    match handles.lookup handle with
    | some pref => .ok (some (pref ++ suffix))
    | none => .error .malformed

def collectionTag (name : Option String) (standard : Tag) : Tag :=
  match name with
  | none => standard
  | some "!" => standard
  | some name => .ofName name

def scalarTag (name : Option String) (text : String) (plain : Bool) : Tag :=
  match name with
  | none => if plain then .ofText text else .text
  | some "!" => .ofText text
  | some name => .ofName name

end Properties

mutual

/-- A node.  Block collections are read only in block context, and a block sequence
without indentation only as part of a block mapping. -/
def readNode (handles : Handles) (block indentless : Bool) :
    Nat → Pending → Except Error (Nat × Pending)
  | 0, _ => .error .malformed
  | steps + 1, p => do
    match ← p.peek with
    | some (.alias name) =>
      match p.anchors.lookup name with
      | some number => return (number, p.next)
      | none => throw .malformed
    | _ =>
      let (properties, p) ← Properties.read p
      let name ← properties.tagName? handles
      let start ← p.peek
      let (number, p) ← p.reserve properties.anchor
      let sequence := Node.sequence (Properties.collectionTag name .sequence)
      let mapping := Node.mapping (Properties.collectionTag name .mapping)
      match start, block, indentless with
      | some .blockEntry, _, true =>
        let (items, p) ← readIndentlessItems handles steps p
        return (number, p.put number (sequence items))
      | some (.scalar text plain), _, _ =>
        let tag := Properties.scalarTag name text plain
        return (number, p.next.put number (.scalar tag text))
      | some .flowSequenceStart, _, _ =>
        let (items, p) ← readFlowItems handles true steps p.next
        return (number, p.put number (sequence items))
      | some .flowMappingStart, _, _ =>
        let (entries, p) ← readFlowEntries handles true steps p.next
        return (number, p.put number (mapping entries))
      | some .blockSequenceStart, true, _ =>
        let (items, p) ← readBlockItems handles steps p.next
        return (number, p.put number (sequence items))
      | some .blockMappingStart, true, _ =>
        let (entries, p) ← readBlockEntries handles steps p.next
        return (number, p.put number (mapping entries))
      | _, _, _ =>
        if properties.isSome then
          return (number, p.put number (.scalar (Properties.scalarTag name "" true) ""))
        else throw .malformed

/-- A node, or the empty scalar if one of these tokens comes next. -/
def readOptional (handles : Handles) (block indentless : Bool) (ends : List Token) :
    Nat → Pending → Except Error (Nat × Pending)
  | 0, _ => .error .malformed
  | steps + 1, p => do
    if ← p.isAt ends then return p.add .empty
    else readNode handles block indentless steps p

def readBlockItems (handles : Handles) : Nat → Pending → Except Error (List Nat × Pending)
  | 0, _ => .error .malformed
  | steps + 1, p => do
    if (← p.peek) = some .blockEntry then
      let (n, p) ← readOptional handles true false [.blockEntry, .blockEnd] steps p.next
      let (items, p) ← readBlockItems handles steps p
      return (n :: items, p)
    else return ([], ← p.expect .blockEnd)

/-- The items of a block sequence that is not indented. -/
def readIndentlessItems (handles : Handles) :
    Nat → Pending → Except Error (List Nat × Pending)
  | 0, _ => .error .malformed
  | steps + 1, p => do
    if (← p.peek) = some .blockEntry then
      let (n, p) ←
        readOptional handles true false [.blockEntry, .key, .value, .blockEnd] steps p.next
      let (items, p) ← readIndentlessItems handles steps p
      return (n :: items, p)
    else return ([], p)

/-- A value after its mark, or the empty scalar if there is no mark. -/
def readValueAfter (handles : Handles) (block : Bool) (ends : List Token) :
    Nat → Pending → Except Error (Nat × Pending)
  | 0, _ => .error .malformed
  | steps + 1, p => do
    if (← p.peek) = some .value then readOptional handles block block ends steps p.next
    else return p.add .empty

def readBlockEntries (handles : Handles) :
    Nat → Pending → Except Error (List (Nat × Nat) × Pending)
  | 0, _ => .error .malformed
  | steps + 1, p => do
    if (← p.peek) = some .key then
      let ends := [.key, .value, .blockEnd]
      let (k, p) ← readOptional handles true true ends steps p.next
      let (v, p) ← readValueAfter handles true ends steps p
      let (entries, p) ← readBlockEntries handles steps p
      return ((k, v) :: entries, p)
    else return ([], ← p.expect .blockEnd)

/-- The items of a flow sequence and its end.  An item with a key is a mapping of one
entry. -/
def readFlowItems (handles : Handles) (first : Bool) :
    Nat → Pending → Except Error (List Nat × Pending)
  | 0, _ => .error .malformed
  | steps + 1, p => do
    if (← p.peek) = some .flowSequenceEnd then return ([], p.next)
    else
      let p ← if first then pure p else p.expect .flowEntry
      match ← p.peek with
      | some .flowSequenceEnd => return ([], p.next)
      | some .key =>
        let ends := [.flowEntry, .flowSequenceEnd]
        let (k, p) ← readOptional handles false false (.value :: ends) steps p.next
        let (v, p) ← readValueAfter handles false ends steps p
        let (n, p) := p.add (.mapping .mapping [(k, v)])
        let (items, p) ← readFlowItems handles false steps p
        return (n :: items, p)
      | _ =>
        let (n, p) ← readNode handles false false steps p
        let (items, p) ← readFlowItems handles false steps p
        return (n :: items, p)

/-- The entries of a flow mapping and its end.  An entry without a key mark is a key
without a value. -/
def readFlowEntries (handles : Handles) (first : Bool) :
    Nat → Pending → Except Error (List (Nat × Nat) × Pending)
  | 0, _ => .error .malformed
  | steps + 1, p => do
    if (← p.peek) = some .flowMappingEnd then return ([], p.next)
    else
      let p ← if first then pure p else p.expect .flowEntry
      match ← p.peek with
      | some .flowMappingEnd => return ([], p.next)
      | some .key =>
        let ends := [.flowEntry, .flowMappingEnd]
        let (k, p) ← readOptional handles false false (.value :: ends) steps p.next
        let (v, p) ← readValueAfter handles false ends steps p
        let (entries, p) ← readFlowEntries handles false steps p
        return ((k, v) :: entries, p)
      | _ =>
        let (k, p) ← readNode handles false false steps p
        let (v, p) := p.add .empty
        let (entries, p) ← readFlowEntries handles false steps p
        return ((k, v) :: entries, p)

end

def defaultHandles : Handles :=
  [("!", "!"), ("!!", standardHandle)]

/-- The handles that the directives that come next define, and the place after them.  The
version may be given once, and each handle too. -/
def readDirectives : Nat → Bool → Handles → Pending → Except Error (Handles × Pending)
  | 0, _, _, _ => .error .malformed
  | steps + 1, versioned, handles, p => do
    match ← p.peek with
    | some (.directive (.version major)) =>
      if versioned || major ≠ 1 then throw .malformed
      else readDirectives steps true handles p.next
    | some (.directive (.tag handle pref)) =>
      if (handles.lookup handle).isSome then throw .malformed
      else readDirectives steps versioned (handles ++ [(handle, pref)]) p.next
    | some (.directive .unknown) => readDirectives steps versioned handles p.next
    | _ => return (handles ++ defaultHandles, p)

def skipEnds : Nat → Pending → Except Error Pending
  | 0, _ => .error .malformed
  | steps + 1, p => do
    if (← p.peek) = some .documentEnd then skipEnds steps p.next else return p

/-- The content of a document after its start mark, which may be missing. -/
def readContent (handles : Handles) (p : Pending) : Except Error (Nat × Pending) := do
  match ← p.peek with
  | none => return p.add .empty
  | some .documentStart => return p.add .empty
  | some .documentEnd => return p.add .empty
  | some (.directive _) => return p.add .empty
  | _ => readNode handles true false (4 * p.rest.tokens.length + 4) p

def readDocument (p : Pending) : Except Error (Nat × Pending) := do
  let count := p.rest.tokens.length + 1
  let explicit := match ← p.peek with
    | some .documentStart => true
    | some (.directive _) => true
    | _ => false
  if explicit then
    let (handles, p) ← readDirectives count false [] p
    readContent handles (← p.expect .documentStart)
  else readNode defaultHandles true false (4 * p.rest.tokens.length + 4) p

def Document.ofTokens? (run : TokenRun) : Except Error (Option Document) := do
  let p : Pending := { rest := run }
  if (← p.peek).isNone then return none
  let (root, p) ← readDocument p
  let p ← skipEnds (p.rest.tokens.length + 1) p
  if (← p.peek).isNone then return some ⟨p.nodes, root⟩
  let _ ← readDirectives (p.rest.tokens.length + 1) false [] p
  throw .malformed

end StructuralSchema.Yaml
