/-!
# Similar words

Two words are compared by the runs of characters that they share: the longest shared
run, and then the runs shared before it and after it.
-/

namespace StructuralSchema.Text

def commonStart : List Char → List Char → Nat
  | c :: a, d :: b => if c = d then commonStart a b + 1 else 0
  | _, _ => 0

/-- A run that two texts share: where it starts in each, and its length. -/
structure SharedRun where
  first : Nat
  second : Nat
  length : Nat

/-- The longer of two runs, the first if they are as long. -/
def SharedRun.longer (r s : SharedRun) : SharedRun :=
  if r.length < s.length then s else r

/-- The longest run that two texts share, the first of several. -/
def longestShared (a b : List Char) : SharedRun :=
  (List.range a.length).foldl (fun best i =>
    (List.range b.length).foldl (fun best j =>
      best.longer ⟨i, j, commonStart (a.drop i) (b.drop j)⟩) best) ⟨0, 0, 0⟩

def sharedCount : Nat → List Char → List Char → Nat
  | 0, _, _ => 0
  | steps + 1, a, b =>
    let run := longestShared a b
    if run.length = 0 then 0
    else
      run.length + sharedCount steps (a.take run.first) (b.take run.second) +
        sharedCount steps (a.drop (run.first + run.length)) (b.drop (run.second + run.length))

/-- At least three of five characters of the two words are shared. -/
def areSimilar (a b : String) : Bool :=
  let x := a.toList
  let y := b.toList
  3 * (x.length + y.length) ≤ 10 * sharedCount (x.length + 1) x y

end StructuralSchema.Text
