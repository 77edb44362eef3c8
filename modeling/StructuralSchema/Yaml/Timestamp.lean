import StructuralSchema.Text.Digits
import StructuralSchema.Value.Basic
import StructuralSchema.Yaml.Error

/-!
# Days and times in YAML text

A day is written with dashes, and a time after it with colons.  Then the fraction of a
second and the zone may follow.
-/

namespace StructuralSchema.Yaml.Timestamp

/-- The digits of a time with those of its fraction, and its zone: whether it is behind,
and the hours and minutes. -/
structure Clock where
  hour : Nat
  minute : Nat
  second : Nat
  fraction : List Char
  zone : Option (Bool × Nat × Nat)

/-- A day as it is written, and a time on it.  In the short form the month or the day has
one digit only. -/
structure Written where
  date : Date
  short : Bool
  clock : Option Clock

def digits? (least most : Nat) (text : List Char) : Option (List Char × List Char) :=
  let digits := (text.take most).takeWhile Char.isDigit
  if digits.length < least then none else some (digits, text.drop digits.length)

def numberAfter? (mark : Char) (least most : Nat) : List Char → Option (List Char × List Char)
  | c :: rest => if c = mark then digits? least most rest else none
  | [] => none

/-- The text has come to its end, where one line break may stand. -/
def isEnd (text : List Char) : Bool :=
  text = [] || text = ['\n']

def isGap (c : Char) : Bool :=
  c = ' ' || c = '\t'

def zone? (text : List Char) : Option (Option (Bool × Nat × Nat)) :=
  if isEnd text then some none
  else
    match text.dropWhile isGap with
    | 'Z' :: rest => if isEnd rest then some (some (false, 0, 0)) else none
    | sign :: rest =>
      if sign = '+' || sign = '-' then
        match digits? 1 2 rest with
        | none => none
        | some (hours, rest) =>
          let found (minutes : List Char) :=
            some (some (sign == '-', Text.decimalValue hours, Text.decimalValue minutes))
          if isEnd rest then found []
          else
            match numberAfter? ':' 2 2 rest with
            | some (minutes, rest) => if isEnd rest then found minutes else none
            | none => none
      else none
    | [] => none

/-- The text after the mark between day and time: a letter or some blanks. -/
def afterGap? : List Char → Option (List Char)
  | c :: rest =>
    if c = 'T' || c = 't' then some rest
    else if isGap c then some (rest.dropWhile isGap)
    else none
  | [] => none

def clock? (text : List Char) : Option Clock := do
  let (hour, rest) ← digits? 1 2 text
  let (minute, rest) ← numberAfter? ':' 2 2 rest
  let (second, rest) ← numberAfter? ':' 2 2 rest
  let (fraction, rest) := match rest with
    | '.' :: rest => (rest.takeWhile Char.isDigit, rest.dropWhile Char.isDigit)
    | rest => ([], rest)
  let zone ← zone? rest
  return ⟨Text.decimalValue hour, Text.decimalValue minute, Text.decimalValue second, fraction,
    zone⟩

def read? (text : List Char) : Option Written := do
  let (year, rest) ← digits? 4 4 text
  let (month, rest) ← numberAfter? '-' 1 2 rest
  let (day, rest) ← numberAfter? '-' 1 2 rest
  let date : Date := ⟨Text.decimalValue year, Text.decimalValue month, Text.decimalValue day⟩
  let short := month.length < 2 || day.length < 2
  if isEnd rest then return ⟨date, short, none⟩
  let clock ← clock? (← afterGap? rest)
  return ⟨date, short, some clock⟩

/-- A scalar without a tag is a time if it has this form, which is not short for a day
alone and has no line break at its end. -/
def isForm (text : List Char) : Bool :=
  text.getLast? ≠ some '\n' && (read? text).any fun w => w.clock.isSome || !w.short

/-- The microseconds that the digits of a fraction give; those after the sixth are
dropped. -/
def microseconds (fraction : List Char) : Nat :=
  Text.decimalValue ((fraction ++ List.replicate 6 '0').take 6)

def timeOf (date : Date) (c : Clock) : DateTime :=
  { date := date
    hour := c.hour
    minute := c.minute
    second := c.second
    microsecond := microseconds c.fraction
    ahead := c.zone.map fun zone =>
      Binary64.signed zone.1 (60 * zone.2.1 + zone.2.2) }

def parse (text : List Char) : Except Error Scalar :=
  match read? text with
  | none => .error (.scalar .notTime)
  | some ⟨date, _, none⟩ =>
    if date.isValid then .ok (.date date) else .error (.scalar .badValue)
  | some ⟨date, _, some clock⟩ =>
    let t := timeOf date clock
    if t.isValid then .ok (.time t) else .error (.scalar .badValue)

end StructuralSchema.Yaml.Timestamp
