import StructuralSchema.Yaml.Content

/-!
# Taking over entries

A merge key takes over the entries of another mapping, or of several.  What is taken over
comes first, so that it gives way to the mapping's own entries.
-/

namespace StructuralSchema.Yaml.Merge

def entriesAt (nodes : Array Node) (number : Nat) : List (Nat × Nat) :=
  match nodes[number]? with
  | some (.mapping _ entries) => entries
  | _ => []

def setEntries (nodes : Array Node) (number : Nat) (entries : List (Nat × Nat)) : Array Node :=
  match nodes[number]? with
  | some (.mapping tag _) => nodes.set! number (.mapping tag entries)
  | _ => nodes

/-- The key `=` of a mapping stands for its own text. -/
def settleKeys (nodes : Array Node) (entries : List (Nat × Nat)) : Array Node :=
  entries.foldl (fun nodes entry =>
    if tagAt nodes entry.1 = .default then nodes.modify entry.1 (Node.retag .text) else nodes)
    nodes

/-- The first merge key among entries: the entries before it, its value, and the entries
after it. -/
def splitAtMerge? (nodes : Array Node) :
    List (Nat × Nat) → Option (List (Nat × Nat) × Nat × List (Nat × Nat))
  | [] => none
  | entry :: rest =>
    if tagAt nodes entry.1 = .merge then some ([], entry.2, rest)
    else
      (splitAtMerge? nodes rest).map fun (before, v, after) => (entry :: before, v, after)

/-- The count of merge keys in all mappings.  Keys are followed once, and none is ever
added. -/
def mergeCount (nodes : Array Node) : Nat :=
  ((List.range nodes.size).map fun number =>
    (entriesAt nodes number).countP fun entry => tagAt nodes entry.1 = .merge).foldl (· + ·) 0

/-- Follows the merge keys of a mapping, with `taken` the entries taken over so far.  A
merge key is removed before it is followed, so a mapping may take over its own entries. -/
def takeOver : Nat → Nat → List (Nat × Nat) → Array Node → Except Error (Array Node)
  | 0, _, _, _ => .error .malformed
  | steps + 1, number, taken, nodes =>
    let entries := entriesAt nodes number
    match splitAtMerge? nodes entries with
    | none =>
      .ok (settleKeys (if taken = [] then nodes else setEntries nodes number (taken ++ entries))
        entries)
    | some (before, v, after) =>
      let nodes := setEntries nodes number (before ++ after)
      match nodes[v]? with
      | some (.mapping _ _) => do
        let nodes ← takeOver steps v [] nodes
        takeOver steps number (taken ++ entriesAt nodes v) nodes
      | some (.sequence _ items) => do
        let (nodes, lists) ← items.foldlM
          (fun (found : Array Node × List (List (Nat × Nat))) (item : Nat) =>
            match found.1[item]? with
            | some (.mapping _ _) => do
              let nodes ← takeOver steps item [] found.1
              return (nodes, entriesAt nodes item :: found.2)
            | _ => throw Error.malformed) (nodes, [])
        takeOver steps number (taken ++ lists.flatten) nodes
      | _ => .error .malformed

/-- The nodes once the merge keys of a mapping have been followed, of which there are at
most `limit` in all mappings. -/
def flatten (limit : Nat) (nodes : Array Node) (number : Nat) : Except Error (Array Node) :=
  takeOver (limit + 1) number [] nodes

end StructuralSchema.Yaml.Merge
