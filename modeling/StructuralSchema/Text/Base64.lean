/-!
# Base 64

Four letters of an alphabet of 64 write three octets.  Characters outside the alphabet
count for nothing, and padding ends the text once it fills up a group of four.
-/

namespace StructuralSchema.Text.Base64

def letterValue? (c : Char) : Option Nat :=
  if 'A' ≤ c ∧ c ≤ 'Z' then some (c.toNat - 'A'.toNat)
  else if 'a' ≤ c ∧ c ≤ 'z' then some (c.toNat - 'a'.toNat + 26)
  else if c.isDigit then some (c.toNat - '0'.toNat + 52)
  else if c = '+' then some 62
  else if c = '/' then some 63
  else none

/-- The octet that the letter at a place of its group completes, and the bits it leaves
over. -/
def complete (place left letter : Nat) : List UInt8 × Nat :=
  match place with
  | 0 => ([], letter)
  | 1 => ([UInt8.ofNat (left * 4 + letter / 16)], letter % 16)
  | 2 => ([UInt8.ofNat (left * 16 + letter / 4)], letter % 4)
  | _ => ([UInt8.ofNat (left * 64 + letter)], 0)

/-- Reads on at a place of a group, with the bits left over from the letter before and
the count of padding characters since then.  The text must not end inside a group. -/
def decodeFrom (place left pads : Nat) : List Char → Option (List UInt8)
  | [] => if place = 0 then some [] else none
  | c :: rest =>
    if c = '=' then
      if 2 ≤ place then
        if 4 ≤ place + pads + 1 then some [] else decodeFrom place left (pads + 1) rest
      else decodeFrom place left pads rest
    else
      match letterValue? c with
      | none => decodeFrom place left pads rest
      | some letter =>
        let (octets, left) := complete place left letter
        (decodeFrom ((place + 1) % 4) left 0 rest).map (octets ++ ·)

def decode? (text : List Char) : Option (List UInt8) :=
  decodeFrom 0 0 0 text

end StructuralSchema.Text.Base64
