import StructuralSchema.Text.Cut
import StructuralSchema.Text.Digits

/-!
# Internet addresses

The address forms that an authority may hold between brackets: eight groups of
hexadecimal digits with one run of zero groups left out, the last two groups possibly
written as a dotted address, and possibly a zone after a percent sign.
-/

namespace StructuralSchema.Uri

/-- One of the four numbers of a dotted address: up to 255 and without leading zeros. -/
def isDottedPart (part : List Char) : Bool :=
  !part.isEmpty && part.length ≤ 3 && part.all Char.isDigit &&
    (part = ['0'] || part.head? ≠ some '0') &&
    Text.decimalValue part ≤ 255

def isDottedAddress (text : List Char) : Bool :=
  let parts := Text.pieces '.' text
  parts.length = 4 && parts.all isDottedPart

def isGroup (group : List Char) : Bool :=
  !group.isEmpty && group.length ≤ 4 && group.all fun c => (Text.hexValue? c).isSome

/-- The groups of an address with a dotted one at the end counted as two groups, or
nothing if that one is malformed. -/
def expandDotted? : List (List Char) → Option (List (List Char))
  | [] => some []
  | [last] =>
    if last.contains '.' then
      if isDottedAddress last then some [['0'], ['0']] else none
    else some [last]
  | group :: rest => (expandDotted? rest).map (group :: ·)

def gaps (groups : List (List Char)) : List Nat :=
  (List.range groups.length).filter fun i =>
    0 < i && i + 1 < groups.length && groups[i]? = some []

/-- The groups on one side of the gap: an empty group at the outer end is allowed only
where the gap is next to it, and stands for nothing. -/
def sideGroups? (outerEmpty : Bool) (side : List (List Char)) : Option (List (List Char)) :=
  if outerEmpty then (if side.length = 1 then some [] else none) else some side

def areAddressGroups (groups : List (List Char)) : Bool :=
  groups.length ≤ 9 &&
    match gaps groups with
    | [] => groups.length = 8 && groups.all isGroup
    | [gap] =>
      let before := groups.take gap
      let after := groups.drop (gap + 1)
      match sideGroups? (before.head? = some []) before,
          sideGroups? (after.getLast? = some []) after with
      | some left, some right =>
        left.length + right.length < 8 && left.all isGroup && right.all isGroup
      | _, _ => false
    | _ => false

def isGroupedAddress (text : List Char) : Bool :=
  let groups := Text.pieces ':' text
  3 ≤ groups.length &&
    match expandDotted? groups with
    | some groups => areAddressGroups groups
    | none => false

def isZonedAddress (text : List Char) : Bool :=
  match Text.cutAt (· = '%') text with
  | (address, []) => isGroupedAddress address
  | (address, _ :: zone) => !zone.isEmpty && !zone.contains '%' && isGroupedAddress address

/-- An address of a later version: `v`, hexadecimal digits, a point and a rest. -/
def isFutureAddress (text : List Char) : Bool :=
  match text with
  | 'v' :: rest =>
    match Text.cutAt (· = '.') rest with
    | (version, _ :: address) =>
      !version.isEmpty && version.all (fun c => (Text.hexValue? c).isSome) && !address.isEmpty
    | _ => false
  | _ => false

def isBracketedHost (host : List Char) : Bool :=
  if host.head? = some 'v' then isFutureAddress host else isZonedAddress host

end StructuralSchema.Uri
