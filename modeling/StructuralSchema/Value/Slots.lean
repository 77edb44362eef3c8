import StructuralSchema.Value.Basic

/-!
# Order of the elements of a set

A set of numbers shows its elements by their slots in a table.  The table has at least
eight slots, and more than twice as many as elements once there are five of them.  A
number goes to the slot that its residue gives, or to the first free one of a fixed
sequence that starts there.
-/

namespace StructuralSchema.Slots

/-- The modulus of residues, which is `2 ^ 61 - 1`. -/
def modulus : Nat :=
  0x1fffffffffffffff

/-- The residue of a number with its sign; minus one has that of minus two. -/
def signedResidue (negative : Bool) (residue : Nat) : Int :=
  if negative then (if residue = 1 then -2 else -(residue : Int)) else residue

/-- The residue of a number, none for what is no number.  A power of two has the residue
of a smaller one, as `2 ^ 61` has that of one. -/
def residue? : Scalar → Option Int
  | .bool b => some (if b then 1 else 0)
  | .int i => some (signedResidue (i < 0) (i.natAbs % modulus))
  | .float (.finite negative rank) =>
    let power := (Binary64.exponent rank % 61).toNat
    some (signedResidue negative (Binary64.significand rank * Nat.pow 2 power % modulus))
  | .float (.infinite negative) => some (if negative then -314159 else 314159)
  | _ => none

/-- The least table with more slots than a count, among those that double. -/
def doubled (count : Nat) : Nat → Nat → Nat
  | 0, size => size
  | steps + 1, size => if count < size then size else doubled count steps (2 * size)

def tableSize (count : Nat) : Nat :=
  if count < 5 then 8 else doubled (2 * count) (count + 1) 8

/-- The count of slots that are tried one after the other before a jump. -/
def runLength : Nat :=
  10

/-- The first free slot of the sequence from `slot` on.  It goes through a run of slots if
all of the run is in the table, and then jumps by what is left of the residue. -/
def freeSlot (taken : List Nat) (size : Nat) : Nat → Nat → Nat → Nat
  | 0, slot, _ => slot
  | steps + 1, slot, left =>
    let run := if slot + runLength ≤ size then runLength else 1
    match (List.range run).find? fun i => !taken.contains (slot + i) with
    | some i => slot + i
    | none => freeSlot taken size steps ((slot * 5 + 1 + left / 32) % size) (left / 32)

def slotsOf (size : Nat) : List Nat → List Int → List Nat
  | _, [] => []
  | taken, residue :: rest =>
    let bits := (residue % 0x10000000000000000).toNat
    let slot := freeSlot taken size (size + 16) (bits % size) bits
    slot :: slotsOf size (slot :: taken) rest

def insert (slot : Nat) (s : Scalar) : List (Nat × Scalar) → List (Nat × Scalar)
  | [] => [(slot, s)]
  | (other, t) :: rest =>
    if slot < other then (slot, s) :: (other, t) :: rest else (other, t) :: insert slot s rest

/-- The elements of a set in the order in which they are shown.  Only numbers have slots;
with anything else among them the elements stay as they are. -/
def order (elements : List Scalar) : List Scalar :=
  match elements.mapM residue? with
  | none => elements
  | some residues =>
    let slots := slotsOf (tableSize elements.length) [] residues
    ((slots.zip elements).foldr (fun entry sorted => insert entry.1 entry.2 sorted) []).map
      Prod.snd

end StructuralSchema.Slots
