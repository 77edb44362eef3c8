import StructuralSchema.Number.Binary64

/-!
# Order of numbers

Whole and floating-point numbers are compared by their exact values.
-/

namespace StructuralSchema

/-- A number on the line with both its ends: a fraction, or one of the ends. -/
inductive Extent
  | least
  | ratio (num : Int) (den : Nat)
  | greatest
  deriving DecidableEq, Repr

namespace Extent

def atMost : Extent → Extent → Bool
  | .least, _ => true
  | _, .greatest => true
  | .ratio a b, .ratio c d => a * d ≤ c * b
  | _, _ => false

def ofInt (i : Int) : Extent :=
  .ratio i 1

/-- The place of a floating-point number; what is no number is put first. -/
def ofBinary64 : Binary64 → Extent
  | .nan => .least
  | .infinite true => .least
  | .infinite false => .greatest
  | .finite negative rank =>
    let r := Binary64.ratio rank
    .ratio (Binary64.signed negative r.1) r.2

end Extent

end StructuralSchema
