import StructuralSchema.Text.Blank
import StructuralSchema.Uri.Address

/-!
# Absolute URIs

A URI is split into scheme, authority, path, query and fragment at the first mark
that ends each of them.  Only the authority can be malformed: its brackets must match
and hold an address, and none of its characters may turn into a mark when it is
normalised.
-/

namespace StructuralSchema

/-- The parts of an absolute URI; a part that is missing is empty. -/
structure Uri where
  scheme : List Char
  authority : List Char
  path : List Char
  query : List Char
  fragment : List Char
  deriving DecidableEq, Repr

namespace Uri

structure Malformed where
  text : String
  deriving DecidableEq, Repr

def isSchemeChar (c : Char) : Bool :=
  c.isAlphanum || c = '+' || c = '-' || c = '.'

def isScheme : List Char → Bool
  | [] => false
  | c :: rest => c.isAlpha && rest.all isSchemeChar

/-- Characters outside ASCII whose compatibility form holds one of `/?#@:`. -/
def maskedMarks : List Nat :=
  [0x2047, 0x2048, 0x2049, 0x2100, 0x2101, 0x2105, 0x2106, 0x2a74, 0xfe13, 0xfe16,
   0xfe55, 0xfe56, 0xfe5f, 0xfe6b, 0xff03, 0xff0f, 0xff1a, 0xff1f, 0xff20]

/-- The part of an authority after its last `@`. -/
def hostPart (authority : List Char) : List Char :=
  ((Text.pieces '@' authority).getLast?).getD []

/-- The brackets of the host part hold an address, with nothing in front and nothing but
a port behind.  Without an opening bracket the host ends at the first colon. -/
def hasGoodBrackets (authority : List Char) : Bool :=
  let host := hostPart authority
  match Text.cutAt (· = '[') host with
  | (_, []) => isBracketedHost (Text.cutAt (· = ':') host).1
  | (before, _ :: bracketed) =>
    let (inner, closing) := Text.cutAt (· = ']') bracketed
    let port := closing.drop 1
    before.isEmpty && (port.isEmpty || port.head? = some ':') && isBracketedHost inner

def isAuthority (authority : List Char) : Bool :=
  (match authority.contains '[', authority.contains ']' with
    | true, true => hasGoodBrackets authority
    | false, false => true
    | _, _ => false) &&
  !authority.any fun c => maskedMarks.contains c.toNat

/-- The authority at the start of a hierarchical part, and what follows it. -/
def splitAuthority (text : List Char) : List Char × List Char :=
  match text with
  | '/' :: '/' :: rest => Text.cutAt (fun c => c = '/' || c = '?' || c = '#') rest
  | _ => ([], text)

/-- The URI that a text writes, none if it has no scheme or its authority is
malformed. -/
def ofText? (text : List Char) : Option Uri :=
  match Text.cutAt (· = ':') text with
  | (_, []) => none
  | (scheme, _ :: rest) =>
    if isScheme scheme then
      let (authority, afterAuthority) := splitAuthority rest
      let (beforeFragment, fragment) := Text.cutAt (· = '#') afterAuthority
      let (path, query) := Text.cutAt (· = '?') beforeFragment
      if isAuthority authority then
        some ⟨scheme, authority, path, query.drop 1, fragment.drop 1⟩
      else none
    else none

def hasContent (uri : Uri) : Bool :=
  !uri.authority.isEmpty || !uri.path.isEmpty || !uri.query.isEmpty || !uri.fragment.isEmpty

def isAbsolute (text : String) : Bool :=
  !Text.hasBlank text &&
    match ofText? text.toList with
    | some uri => uri.hasContent
    | none => false

/-- The first segment of the path, none if it is empty or the path does not start
with a slash. -/
def firstSegment? (uri : Uri) : Option String :=
  match uri.path with
  | '/' :: rest =>
    match rest.takeWhile (· ≠ '/') with
    | [] => none
    | segment => some (String.ofList segment)
  | _ => none

end Uri

end StructuralSchema
