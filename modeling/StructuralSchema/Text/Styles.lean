/-!
# Terminal styles

Text that goes to a file instead of a terminal loses the sequences that would change
the style of what follows: an escape, a bracket, numbers and a letter.
-/

namespace StructuralSchema.Text

def isStyleNumber (c : Char) : Bool :=
  c.isDigit || c = ';' || c = '?'

def afterStyle? (text : List Char) : Option (List Char) :=
  match text.dropWhile isStyleNumber with
  | c :: rest => if c.isAlpha then some rest else none
  | [] => none

/-- The text without its style sequences; the count of characters bounds the steps. -/
def stripStylesFrom : Nat → List Char → List Char
  | 0, text => text
  | _, [] => []
  | steps + 1, '\x1b' :: '[' :: rest =>
    match afterStyle? rest with
    | some after => stripStylesFrom steps after
    | none => '\x1b' :: stripStylesFrom steps ('[' :: rest)
  | steps + 1, c :: rest => c :: stripStylesFrom steps rest

def stripStyles (text : String) : String :=
  String.ofList (stripStylesFrom text.length text.toList)

end StructuralSchema.Text
