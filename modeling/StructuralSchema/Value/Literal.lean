import StructuralSchema.Text.Literal
import StructuralSchema.Value.Basic

/-!
# Literals of values

Messages that cite a value which is not a text of its own show it as a literal:
`None`, `True` and `False`, numbers, quoted texts, lists in brackets, pairs in
parentheses and objects in braces.  Where a value that holds itself starts over, three
points stand for it.
-/

namespace StructuralSchema

def literalLayout : Binary64.Layout :=
  ⟨['+'], 2, ['n', 'a', 'n'], ['i', 'n', 'f']⟩

def argumentsText (arguments : List Nat) : String :=
  ", ".intercalate (arguments.map fun n => toString n)

/-- The literal of a time zone.  One that is behind counts back from the day before. -/
def zoneLiteral (ahead : Int) : String :=
  if ahead = 0 then "datetime.timezone.utc"
  else
    let seconds := (ahead % 1440) * 60
    let shift := if ahead < 0 then
        "days=-1" ++ (if seconds = 0 then "" else ", seconds=" ++ toString seconds)
      else "seconds=" ++ toString seconds
    "datetime.timezone(datetime.timedelta(" ++ shift ++ "))"

/-- The literal of a time.  Seconds are left out when they and all that follows are
zero. -/
def DateTime.literal (t : DateTime) : String :=
  let seconds :=
    if t.microsecond ≠ 0 then [t.second, t.microsecond]
    else if t.second ≠ 0 then [t.second]
    else []
  let zone := match t.ahead with
    | none => ""
    | some ahead => ", tzinfo=" ++ zoneLiteral ahead
  "datetime.datetime(" ++
    argumentsText ([t.date.year, t.date.month, t.date.day, t.hour, t.minute] ++ seconds) ++
    zone ++ ")"

def Scalar.literal : Scalar → String
  | .null => "None"
  | .bool true => "True"
  | .bool false => "False"
  | .int i => toString i
  | .float x => x.lay literalLayout
  | .str text => Text.literal text
  | .bytes octets => Text.octetsLiteral octets
  | .date d => "datetime.date(" ++ argumentsText [d.year, d.month, d.day] ++ ")"
  | .time t => t.literal

def Date.plain (d : Date) : List Char :=
  Binary64.paddedNat 4 d.year ++ '-' :: Binary64.paddedNat 2 d.month ++
    '-' :: Binary64.paddedNat 2 d.day

def clockText (hour minute : Nat) : List Char :=
  Binary64.paddedNat 2 hour ++ ':' :: Binary64.paddedNat 2 minute

def DateTime.plain (t : DateTime) : List Char :=
  let fraction :=
    if t.microsecond = 0 then [] else '.' :: Binary64.paddedNat 6 t.microsecond
  let zone := match t.ahead with
    | none => []
    | some ahead =>
      (if ahead < 0 then '-' else '+') :: clockText (ahead.natAbs / 60) (ahead.natAbs % 60)
  t.date.plain ++ ' ' :: clockText t.hour t.minute ++ ':' :: Binary64.paddedNat 2 t.second ++
    fraction ++ zone

/-- A scalar as a word in running text: texts stand without quotes, and days and times
in digits. -/
def Scalar.plain : Scalar → String
  | .str text => text
  | .date d => String.ofList d.plain
  | .time t => String.ofList t.plain
  | s => s.literal

def setLiteral : List Scalar → String
  | [] => "set()"
  | elements => "\x7b" ++ ", ".intercalate (elements.map Scalar.literal) ++ "\x7d"

def againText : Value → String
  | .obj _ => "\x7b...\x7d"
  | _ => "[...]"

mutual

def Value.literalWithin (around : List Nat) : Value → String
  | .scalar s => s.literal
  | .arr elements => "[" ++ ", ".intercalate (elementLiterals around elements) ++ "]"
  | .obj members => "\x7b" ++ ", ".intercalate (memberLiterals around members) ++ "\x7d"
  | .pair v w => "(" ++ v.literalWithin around ++ ", " ++ w.literalWithin around ++ ")"
  | .set elements => setLiteral elements
  | .loop number v =>
    if around.contains number then againText v else v.literalWithin (number :: around)
  | .endless => "..."

def elementLiterals (around : List Nat) : List Value → List String
  | [] => []
  | v :: rest => v.literalWithin around :: elementLiterals around rest

def memberLiterals (around : List Nat) : List (Scalar × Value) → List String
  | [] => []
  | (k, v) :: rest =>
    (k.literal ++ ": " ++ v.literalWithin around) :: memberLiterals around rest

end

def Value.literal (v : Value) : String :=
  v.literalWithin []

end StructuralSchema
