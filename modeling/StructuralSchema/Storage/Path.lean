import StructuralSchema.Text.Cut

/-!
# File paths

A path is a list of names below its root.  Its text shows it without empty names and
without the name of the directory itself; a step to the outer directory is kept.
-/

namespace StructuralSchema

structure FilePath where
  root : List Char
  names : List (List Char)
  deriving DecidableEq, Repr

namespace FilePath

/-- The root that a text starts with: one slash stands for any number but two. -/
def rootOf : List Char → List Char
  | '/' :: '/' :: '/' :: _ => ['/']
  | '/' :: '/' :: _ => ['/', '/']
  | '/' :: _ => ['/']
  | _ => []

def ofText (text : String) : FilePath :=
  { root := rootOf text.toList
    names := (Text.pieces '/' text.toList).filter fun name => name ≠ [] && name ≠ ['.'] }

def toText (p : FilePath) : String :=
  if p.root = [] && p.names = [] then "."
  else String.ofList (p.root ++ Text.joinPieces '/' p.names)

/-- The ending of the last name from its last point on, none if nothing stands before or
after that point. -/
def suffix (p : FilePath) : String :=
  match p.names.getLast? with
  | none => ""
  | some name =>
    let ending := (name.reverse.takeWhile (· ≠ '.')).reverse
    if 0 < ending.length && ending.length + 1 < name.length then
      String.ofList ('.' :: ending)
    else ""

def parent (p : FilePath) : FilePath :=
  { p with names := p.names.dropLast }

/-- The names left when every step to the outer directory is taken back. -/
def settle (names : List (List Char)) : List (List Char) :=
  names.foldl (fun settled name =>
    if name = ['.', '.'] then settled.dropLast else settled ++ [name]) []

/-- The path seen from the root, given the directory that it starts from. -/
def absolute (p base : FilePath) : FilePath :=
  if p.root = [] then { base with names := settle (base.names ++ p.names) }
  else { p with names := settle p.names }

end FilePath

end StructuralSchema
