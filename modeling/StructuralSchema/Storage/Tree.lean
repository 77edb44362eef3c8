import StructuralSchema.Storage.Disk

/-!
# File trees

The files below a directory, by the names that lead to them.  Every name on the way to a
file is that of a directory.
-/

namespace StructuralSchema

structure FileTree where
  entries : List (List (List Char) × Entry)

namespace FileTree

def empty : FileTree :=
  ⟨[]⟩

def nameLimit : Nat :=
  255

def pathLimit : Nat :=
  4095

def isOverlongName (name : List Char) : Bool :=
  nameLimit < (String.ofList name).utf8ByteSize

/-- What lies at the place that names without steps outward lead to. -/
def entryAt (tree : FileTree) (names : List (List Char)) : Entry :=
  if names = [] then .directory
  else
    match tree.entries.lookup names with
    | some e => e
    | none =>
      if tree.entries.any fun file => names.isPrefixOf file.1 then .directory else .absent

/-- What lies outside the directory, of which nothing is known but that it is there. -/
def walkOutside : List (List Char) → Entry
  | [] => .directory
  | name :: rest =>
    if name = ['.', '.'] then walkOutside rest
    else if isOverlongName name then .overlong
    else .absent

/-- What lies at the end of the way that names lead from a place.  A way ends early at what
is no directory. -/
def walk (tree : FileTree) (here : List (List Char)) : List (List Char) → Entry
  | [] => tree.entryAt here
  | name :: rest =>
    match tree.entryAt here with
    | .directory =>
      if name = ['.', '.'] then
        if here = [] then walkOutside rest else walk tree here.dropLast rest
      else if isOverlongName name then .overlong
      else walk tree (here ++ [name]) rest
    | .file _ => .blocked
    | nothing => nothing

/-- The path holds a character that stands in no name. -/
def isBroken (path : FilePath) : Bool :=
  path.names.any fun name => name.contains '\x00'

def disk (tree : FileTree) : Disk :=
  ⟨fun path =>
    if isBroken path then .absent
    else if pathLimit < path.toText.utf8ByteSize then .overlong
    else if path.root = [] then tree.walk [] path.names
    else walkOutside path.names⟩

def putAt (tree : FileTree) (names : List (List Char)) (e : Entry) : FileTree :=
  ⟨tree.entries.filter (fun file => file.1 ≠ names) ++ [(names, e)]⟩

def makePresent (tree : FileTree) (names : List (List Char)) : FileTree :=
  if (tree.entryAt names).isPresent then tree else tree.putAt names .directory

def putFrom (tree : FileTree) (here : List (List Char)) (e : Entry) :
    List (List Char) → FileTree
  | [] => tree.putAt here e
  | name :: rest =>
    if name = ['.', '.'] then (tree.makePresent here).putFrom here.dropLast e rest
    else tree.putFrom (here ++ [name]) e rest

def put (tree : FileTree) (path : FilePath) (e : Entry) : FileTree :=
  tree.putFrom [] e path.names

end FileTree

end StructuralSchema
