import StructuralSchema.Value.Basic

/-!
# Equality of values

Two values are the same when they differ at most in the order of members and in the
kind of equal numbers: `1`, `1.0` and `true` are the same.
-/

namespace StructuralSchema

mutual

def Value.same : Value → Value → Bool
  | .scalar s, .scalar t => s.same t
  | .arr elements, .arr others => sameElements elements others
  | .obj members, .obj others =>
    members.length == others.length && membersWithin members others
  | .pair v w, .pair x y => v.same x && w.same y
  | .set elements, .set others =>
    elements.length == others.length && elements.all fun s => others.any fun t => s.same t
  | _, _ => false

def sameElements : List Value → List Value → Bool
  | [], [] => true
  | v :: rest, w :: others => v.same w && sameElements rest others
  | _, _ => false

/-- Every member of the first object has the same value in the second. -/
def membersWithin : List (Scalar × Value) → List (Scalar × Value) → Bool
  | [], _ => true
  | (k, v) :: rest, others =>
    (match lookupSame k others with
      | some w => v.same w
      | none => false) && membersWithin rest others

end

end StructuralSchema
