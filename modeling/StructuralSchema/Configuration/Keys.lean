import StructuralSchema.Number.Order
import StructuralSchema.Value.Basic

/-!
# Order of keys

The keys of an object can be put in order when all of them are texts, numbers, runs of
octets, dates, or times that either all have a zone or all have none.  A single key is
always in order.
-/

namespace StructuralSchema

inductive KeyOrder
  | texts
  | numbers
  | octets
  | dates
  | localTimes
  | instants
  deriving DecidableEq, Repr

def KeyOrder.of? : Scalar → Option KeyOrder
  | .null => none
  | .bool _ => some .numbers
  | .int _ => some .numbers
  | .float _ => some .numbers
  | .str _ => some .texts
  | .bytes _ => some .octets
  | .date _ => some .dates
  | .time t => some (if t.ahead.isSome then .instants else .localTimes)

/-- The place of a key among the numbers; times count by their instants. -/
def keyExtent : Scalar → Extent
  | .bool b => .ofInt (if b then 1 else 0)
  | .int i => .ofInt i
  | .float x => .ofBinary64 x
  | .time t => .ofInt t.instant
  | _ => .greatest

/-- The numbers that put dates and octets in order, the first number deciding first. -/
def keyNumbers : Scalar → List Nat
  | .bytes octets => octets.map UInt8.toNat
  | .date d => [d.year, d.month, d.day]
  | .str text => text.toList.map Char.toNat
  | _ => []

def numbersAtMost : List Nat → List Nat → Bool
  | [], _ => true
  | _ :: _, [] => false
  | a :: as, b :: bs => a < b || (a = b && numbersAtMost as bs)

def KeyOrder.atMost (order : KeyOrder) (a b : Scalar) : Bool :=
  match order with
  | .numbers | .localTimes | .instants => (keyExtent a).atMost (keyExtent b)
  | .texts | .octets | .dates => numbersAtMost (keyNumbers a) (keyNumbers b)

def insertKey (order : KeyOrder) (key : Scalar) : List Scalar → List Scalar
  | [] => [key]
  | k :: rest => if order.atMost key k then key :: k :: rest else k :: insertKey order key rest

/-- The keys in order, none if they belong to no common order. -/
def sortKeys? (keys : List Scalar) : Option (List Scalar) :=
  match keys with
  | [] => some []
  | [key] => some [key]
  | key :: rest =>
    match KeyOrder.of? key with
    | none => none
    | some order =>
      if rest.all fun k => KeyOrder.of? k = some order then
        some ((key :: rest).foldr (insertKey order) [])
      else none

end StructuralSchema
