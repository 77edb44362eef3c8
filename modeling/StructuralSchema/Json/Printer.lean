import StructuralSchema.Text.Quoted
import StructuralSchema.Value.Basic

/-!
# Writing JSON text

A value is written on one line, or with every member on a line of its own.  Keys that
are numbers, booleans or null are written as text.  Octets, dates, times and sets have
no JSON form, so a value that holds any is not written.
-/

namespace StructuralSchema.Json

def numberLayout : Binary64.Layout :=
  ⟨['+'], 2, "NaN".toList, "Infinity".toList⟩

def wordText? : Scalar → Option String
  | .null => some "null"
  | .bool b => some (if b then "true" else "false")
  | .int i => some (toString i)
  | .float x => some (x.lay numberLayout)
  | _ => none

def scalarText? : Scalar → Option (List Char)
  | .str text => some (Text.quoted text).toList
  | s => (wordText? s).map String.toList

def keyText? : Scalar → Option (List Char)
  | .str text => some (Text.quoted text).toList
  | s => (wordText? s).map fun word => (Text.quoted word).toList

/-- The start of a line at a depth of nesting, or nothing when all is on one line.
Each level is indented by the count given, none if it is negative. -/
def lineStart (indent : Option Int) (depth : Nat) : List Char :=
  match indent with
  | none => []
  | some n => '\n' :: List.replicate (n.toNat * depth) ' '

def separator (indent : Option Int) (depth : Nat) : List Char :=
  match indent with
  | none => [',', ' ']
  | some _ => ',' :: lineStart indent depth

/-- Parts between brackets, one level deeper than the brackets. -/
def bracket (indent : Option Int) (depth : Nat) (opening closing : Char)
    (parts : List (List Char)) : List Char :=
  match parts with
  | [] => [opening, closing]
  | parts =>
    opening :: lineStart indent (depth + 1) ++
      (separator indent (depth + 1)).intercalate parts ++
      lineStart indent depth ++ [closing]

mutual

/-- The text of a value at a depth of nesting, none if it has no JSON form. -/
def print? (indent : Option Int) (depth : Nat) : Value → Option (List Char)
  | .scalar s => scalarText? s
  | .arr elements =>
    (printElements? indent (depth + 1) elements).map (bracket indent depth '[' ']')
  | .obj members =>
    (printMembers? indent (depth + 1) members).map (bracket indent depth '\x7b' '\x7d')
  | .pair v w =>
    match print? indent (depth + 1) v, print? indent (depth + 1) w with
    | some first, some second => some (bracket indent depth '[' ']' [first, second])
    | _, _ => none
  | .set _ => none
  | .loop _ _ => none
  | .endless => none

def printElements? (indent : Option Int) (depth : Nat) :
    List Value → Option (List (List Char))
  | [] => some []
  | v :: rest =>
    match print? indent depth v, printElements? indent depth rest with
    | some text, some texts => some (text :: texts)
    | _, _ => none

def printMembers? (indent : Option Int) (depth : Nat) :
    List (Scalar × Value) → Option (List (List Char))
  | [] => some []
  | (k, v) :: rest =>
    match keyText? k, print? indent depth v, printMembers? indent depth rest with
    | some key, some text, some texts => some ((key ++ ':' :: ' ' :: text) :: texts)
    | _, _, _ => none

end

def render? (indent : Option Int) (v : Value) : Option String :=
  (print? indent 0 v).map String.ofList

end StructuralSchema.Json
