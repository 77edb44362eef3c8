/-!
# Binary floating-point numbers

A double-precision number is a sign and a rank among the finite magnitudes, or an
infinity, or not a number.  The rank is the place of a magnitude in the ascending
list of all of them, so neighbouring numbers have neighbouring ranks and rounding
up past a power of two needs no special case.
-/

namespace StructuralSchema

/-- A double-precision number; the rank of zero is zero. -/
inductive Binary64
  | nan
  | infinite (negative : Bool)
  | finite (negative : Bool) (rank : Fin 0x7ff0000000000000)
  deriving DecidableEq, Repr

namespace Binary64

/-- The count of magnitudes from one power of two to the next, which is `2 ^ 52`. -/
def binade : Nat :=
  0x10000000000000

/-- The magnitude of a rank is `significand rank * 2 ^ exponent rank`. -/
def significand (rank : Nat) : Nat :=
  if rank < binade then rank else binade + rank % binade

def exponent (rank : Nat) : Int :=
  if rank < binade then -1074 else (rank / binade : Nat) - 1075

def zero (negative : Bool) : Binary64 :=
  .finite negative ⟨0, by decide⟩

def scaleRatio (num den : Nat) (power : Int) : Nat × Nat :=
  match power with
  | .ofNat p => (num * Nat.pow 2 p, den)
  | .negSucc p => (num, den * Nat.pow 2 (p + 1))

/-- The whole number nearest to `num / den`, the even one of two that are as near. -/
def roundEven (num den : Nat) : Nat :=
  let whole := num / den
  let rest := num % den
  if 2 * rest < den then whole
  else if den < 2 * rest then whole + 1
  else whole + whole % 2

/-- The whole `l` with `2 ^ l ≤ num / den < 2 ^ (l + 1)`, for positive numbers. -/
def floorLog2 (num den : Nat) : Int :=
  let guess : Int := (num.log2 : Int) - den.log2
  let scaled := scaleRatio num den (-guess)
  if scaled.2 ≤ scaled.1 then guess else guess - 1

/-- The number nearest to the fraction `num / den`, ties to the even rank. -/
def ofRatio (negative : Bool) (num den : Nat) : Binary64 :=
  if num = 0 then zero negative
  else
    let power := max (floorLog2 num den - 52) (-1074)
    let scaled := scaleRatio num den (-power)
    let rank := (power + 1074).toNat * binade + roundEven scaled.1 scaled.2
    if h : rank < 0x7ff0000000000000 then .finite negative ⟨rank, h⟩ else .infinite negative

def decimalLength (n : Nat) : Nat :=
  (Nat.toDigits 10 n).length

/-- The number nearest to `digits * 10 ^ power`.  Magnitudes far outside the range
are settled by their count of digits. -/
def ofDecimal (negative : Bool) (digits : Nat) (power : Int) : Binary64 :=
  if digits = 0 then zero negative
  else
    let height := decimalLength digits + power
    if 310 < height then .infinite negative
    else if height < -330 then zero negative
    else
      match power with
      | .ofNat p => ofRatio negative (digits * Nat.pow 10 p) 1
      | .negSucc p => ofRatio negative digits (Nat.pow 10 (p + 1))

def ratio (rank : Nat) : Nat × Nat :=
  scaleRatio (significand rank) 1 (exponent rank)

def signed (negative : Bool) (n : Nat) : Int :=
  if negative then -(n : Int) else n

def toInt? : Binary64 → Option Int
  | .finite negative rank =>
    let r := ratio rank
    if r.1 % r.2 = 0 then some (signed negative (r.1 / r.2)) else none
  | _ => none

/-- The number has no fractional part; infinities and `nan` are not whole. -/
def isWhole (x : Binary64) : Bool :=
  x.toInt?.isSome

/-- The two numbers stand for the same value: zeros of both signs do. -/
def sameValue : Binary64 → Binary64 → Bool
  | .nan, .nan => true
  | .infinite s, .infinite t => s == t
  | .finite s r, .finite t q => r == q && (s == t || r.val == 0)
  | _, _ => false

def neg : Binary64 → Binary64
  | .nan => .nan
  | .infinite negative => .infinite (!negative)
  | .finite negative rank => .finite (!negative) rank

def ofInt (i : Int) : Binary64 :=
  ofRatio (i < 0) i.natAbs 1

def isInfinite : Binary64 → Bool
  | .infinite _ => true
  | _ => false

def add : Binary64 → Binary64 → Binary64
  | .nan, _ => .nan
  | _, .nan => .nan
  | .infinite s, .infinite t => if s = t then .infinite s else .nan
  | .infinite s, .finite _ _ => .infinite s
  | .finite _ _, .infinite t => .infinite t
  | .finite s r, .finite t q =>
    let a := ratio r
    let b := ratio q
    let num := signed s (a.1 * b.2) + signed t (b.1 * a.2)
    if num = 0 then zero (s && t) else ofRatio (num < 0) num.natAbs (a.2 * b.2)

def mul : Binary64 → Binary64 → Binary64
  | .nan, _ => .nan
  | _, .nan => .nan
  | .infinite s, .infinite t => .infinite (s != t)
  | .infinite s, .finite t q => if q.val = 0 then .nan else .infinite (s != t)
  | .finite s r, .infinite t => if r.val = 0 then .nan else .infinite (s != t)
  | .finite s r, .finite t q =>
    let a := ratio r
    let b := ratio q
    ofRatio (s != t) (a.1 * b.1) (a.2 * b.2)

end Binary64

end StructuralSchema
