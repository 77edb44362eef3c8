import StructuralSchema.Text.Blank
import StructuralSchema.Text.Cut

/-!
# Pointers

A pointer names a place in a document by the keys and indexes that lead to it.  Its
text puts a slash before each token; a tilde in a token is written `~0` and a slash
`~1`.
-/

namespace StructuralSchema

/-- The tokens that lead from the whole document to a place in it. -/
structure Pointer where
  tokens : List String
  deriving DecidableEq, Repr

namespace Pointer

def escapeChars (token : List Char) : List Char :=
  token.flatMap fun c =>
    if c = '~' then ['~', '0'] else if c = '/' then ['~', '1'] else [c]

/-- The characters of a token from its written form.  A tilde that starts no escape
stands for itself. -/
def unescapeChars : List Char → List Char
  | [] => []
  | '~' :: '0' :: rest => '~' :: unescapeChars rest
  | '~' :: '1' :: rest => '/' :: unescapeChars rest
  | c :: rest => c :: unescapeChars rest

def escape (token : String) : String :=
  String.ofList (escapeChars token.toList)

def unescape (token : String) : String :=
  String.ofList (unescapeChars token.toList)

/-- Every tilde starts an escape. -/
def tildesEscape : List Char → Bool
  | [] => true
  | '~' :: rest =>
    match rest with
    | '0' :: _ => tildesEscape rest
    | '1' :: _ => tildesEscape rest
    | _ => false
  | _ :: rest => tildesEscape rest

/-- The text is the written form of a pointer without blanks. -/
def isPointerText (text : String) : Bool :=
  match text.toList with
  | [] => true
  | c :: rest => c = '/' && !(c :: rest).any Text.isBlank && tildesEscape rest

def ofText (text : String) : Pointer :=
  match text.toList with
  | [] => ⟨[]⟩
  | _ :: rest =>
    ⟨(Text.pieces '/' rest).map fun token => String.ofList (unescapeChars token)⟩

def root : Pointer :=
  ⟨[]⟩

def child (p : Pointer) (token : String) : Pointer :=
  ⟨p.tokens ++ [token]⟩

def toText (p : Pointer) : String :=
  String.ofList (p.tokens.flatMap fun token => '/' :: escapeChars token.toList)

theorem unescapeChars_escapeChars (token : List Char) :
    unescapeChars (escapeChars token) = token := by
  induction token with
  | nil => rfl
  | cons c rest ih =>
    have hcons : escapeChars (c :: rest) =
        (if c = '~' then ['~', '0'] else if c = '/' then ['~', '1'] else [c]) ++
          escapeChars rest := rfl
    rw [hcons]
    by_cases tilde : c = '~'
    · subst tilde; simp [unescapeChars, ih]
    · by_cases slash : c = '/'
      · subst slash; simp [unescapeChars, ih]
      · simp [tilde, slash, unescapeChars, ih]

end Pointer

end StructuralSchema
