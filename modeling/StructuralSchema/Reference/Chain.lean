import StructuralSchema.Reference.Walk

/-!
# Following references

A reference that designates another reference is followed on, until a node comes or a
definition without a type.  A reference that comes a second time closes a cycle; that
is found before the limit on the length of a chain is looked at.
-/

namespace StructuralSchema.Reference

/-- Follows `current` after the references in `visited`, with `remaining` of the `limit`
references left. -/
def follow (document : Schema) (limit : Int) :
    Nat → List String → String → Except Error (Option Node)
  | remaining, visited, current =>
    if current ∈ visited then .error ⟨current, .cycle (visited ++ [current])⟩
    else
      match remaining with
      | 0 => .error ⟨current, .chainTooLong limit⟩
      | remaining + 1 =>
        match walk document current with
        | .error reason => .error ⟨current, reason⟩
        | .ok (.property (.reference next)) =>
          follow document limit remaining (visited ++ [current]) next
        | .ok (.property (.node n)) => .ok (some n)
        | .ok (.definition _) => .ok none

/-- The node that a reference leads to within a chain of at most `limit` references;
none for a definition that gives no type and so accepts every value. -/
def dereference (document : Schema) (limit : Int) (reference : String) :
    Except Error (Option Node) :=
  follow document limit limit.toNat [] reference

end StructuralSchema.Reference
