import StructuralSchema.Number.Layout
import StructuralSchema.Value.Calendar

/-!
# Values

A value is what a document holds: a scalar, an array of values or an object whose
members keep their order.  JSON documents have text keys, numbers, texts, booleans
and null only.  YAML documents may also hold octets, dates and times, sets and pairs,
and may use any scalar as a key; in them a value may even hold itself.
-/

namespace StructuralSchema

inductive Scalar
  | null
  | bool (b : Bool)
  | int (i : Int)
  | float (x : Binary64)
  | str (text : String)
  | bytes (octets : List UInt8)
  | date (day : Date)
  | time (t : DateTime)
  deriving DecidableEq, Repr, Inhabited

inductive Value
  | scalar (s : Scalar)
  | arr (elements : List Value)
  | obj (members : List (Scalar × Value))
  /-- Two values that stand together in an array of such pairs. -/
  | pair (first second : Value)
  | set (elements : List Scalar)
  /-- A value that holds itself.  Each place where it starts over has its number. -/
  | loop (number : Nat) (content : Value)
  /-- Where the content of a value that holds itself is not written out any further. -/
  | endless
  deriving Repr, Inhabited

abbrev Members : Type := List (Scalar × Value)

namespace Value

@[match_pattern] abbrev null : Value := .scalar .null
@[match_pattern] abbrev bool (b : Bool) : Value := .scalar (.bool b)
@[match_pattern] abbrev int (i : Int) : Value := .scalar (.int i)
@[match_pattern] abbrev float (x : Binary64) : Value := .scalar (.float x)
@[match_pattern] abbrev str (text : String) : Value := .scalar (.str text)
@[match_pattern] abbrev bytes (octets : List UInt8) : Value := .scalar (.bytes octets)
@[match_pattern] abbrev date (day : Date) : Value := .scalar (.date day)

/-- What a value that holds itself is apart from that. -/
def unlooped : Value → Value
  | .loop _ v => v
  | v => v

mutual

def isEndless : Value → Bool
  | .scalar _ => false
  | .arr elements => anyEndless elements
  | .obj members => anyMemberEndless members
  | .pair v w => v.isEndless || w.isEndless
  | .set _ => false
  | .loop _ _ => true
  | .endless => true

def anyEndless : List Value → Bool
  | [] => false
  | v :: rest => v.isEndless || anyEndless rest

def anyMemberEndless : List (Scalar × Value) → Bool
  | [] => false
  | (_, v) :: rest => v.isEndless || anyMemberEndless rest

end

end Value

/-- The number a scalar counts as: false and true count as zero and one. -/
def Scalar.asInt? : Scalar → Option Int
  | .bool b => some (if b then 1 else 0)
  | .int i => some i
  | .float x => x.toInt?
  | _ => none

/-- Two scalars are the same: numbers of different kinds are when they are equal. -/
def Scalar.same (a b : Scalar) : Bool :=
  match a, b with
  | .float x, .float y => x.sameValue y
  | .time t, .time u => t.same u
  | a, b =>
    match a.asInt?, b.asInt? with
    | some i, some j => i == j
    | _, _ => a == b

def lookupSame {α : Type} (key : Scalar) : List (Scalar × α) → Option α
  | [] => none
  | (k, v) :: rest => if k.same key then some v else lookupSame key rest

/-- The value of the member with a text key. -/
def lookup {α : Type} (name : String) : List (Scalar × α) → Option α
  | [] => none
  | (k, v) :: rest => if k = .str name then some v else lookup name rest

def hasMember {α : Type} (name : String) (members : List (Scalar × α)) : Bool :=
  (lookup name members).isSome

/-- Adds a member at the end, or replaces the value of the member that has the key:
the first place and spelling of a key stay, and so does the last value. -/
def putMember {α : Type} (key : Scalar) (value : α) : List (Scalar × α) → List (Scalar × α)
  | [] => [(key, value)]
  | (k, v) :: rest =>
    if k.same key then (k, value) :: rest else (k, v) :: putMember key value rest

def joinMembers {α : Type} (members : List (Scalar × α)) : List (Scalar × α) :=
  members.foldl (fun joined m => putMember m.1 m.2 joined) []

/-- The name of a scalar's JSON type.  Octets count as an array; dates and times keep
names of their own. -/
def Scalar.typeName : Scalar → String
  | .null => "null"
  | .bool _ => "boolean"
  | .int _ => "number"
  | .float _ => "number"
  | .str _ => "string"
  | .bytes _ => "array"
  | .date _ => "date"
  | .time _ => "datetime"

def Value.typeName : Value → String
  | .scalar s => s.typeName
  | .arr _ => "array"
  | .obj _ => "object"
  | .pair _ _ => "array"
  | .set _ => "set"
  | .loop _ v => v.typeName
  | .endless => "array"

end StructuralSchema
