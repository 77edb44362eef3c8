import StructuralSchema.Validation.Check

/-!
# Checks that do not end

The check of a value that holds itself may go round in circles, or meet a part of a wrong
type that cannot be described.  It stops there, and what it has found so far is lost; only
the warnings of references that failed before have been given.

Here nothing but a value that holds itself stops a check.  A runtime whose stack is bounded
also stops at values that are nested too deep for it, of which this library knows nothing.
-/

namespace StructuralSchema.Validation

/-- How far a check has come: the warnings it has given, and whether it had to stop. -/
structure Course where
  warnings : List String := []
  stopped : Bool := false

namespace Course

/-- Goes on with another check, unless the first had to stop. -/
def andThen (a : Course) (next : Unit → Course) : Course :=
  if a.stopped then a
  else
    let b := next ()
    ⟨a.warnings ++ b.warnings, b.stopped⟩

/-- The course of a value that is of another type than the node gives.  It is described,
unless the node asks for an object. -/
def ofRefusal (n : Node) (v : Value) : Course :=
  { stopped := n.typeName ≠ .object && v.isEndless }

mutual

def ofNode (c : Context) (n : Node) : Value → Course
  | .scalar _ => {}
  | .arr elements =>
    match n with
    | .array items _ => ofElements c items elements
    | _ => ofRefusal n (.arr elements)
  | .obj members =>
    match n with
    | .object properties _ _ =>
      properties.foldl (fun course entry =>
        course.andThen fun _ => ofMember c entry.1 entry.2 members) {}
    | _ => ofRefusal n (.obj members)
  | .pair v w =>
    match n with
    | .array items _ => (ofNode c items v).andThen fun _ => ofNode c items w
    | _ => ofRefusal n (.pair v w)
  | .set _ => {}
  | .loop _ v => ofNode c n v
  | .endless => { stopped := true }

def ofElements (c : Context) (items : Node) : List Value → Course
  | [] => {}
  | v :: rest => (ofNode c items v).andThen fun _ => ofElements c items rest

def ofMember (c : Context) (name : String) (p : Property) : List (Scalar × Value) → Course
  | [] => {}
  | (k, v) :: rest =>
    if k = .str name then
      match c.demand (propertySite "" name) p with
      | .node n _ => ofNode c n v
      | .anything => {}
      | .failed _ e => { warnings := e.warning?.toList }
    else ofMember c name p rest

end

def ofProperty (c : Context) (p : Property) (v : Value) : Course :=
  match c.demand "#" p with
  | .node n _ => ofNode c n v
  | .anything => {}
  | .failed _ e => { warnings := e.warning?.toList }

def ofSchema (s : Schema) (settings : Settings) (v : Value) : Course :=
  match s.definition?.bind Definition.specification with
  | none => {}
  | some p => ofProperty ⟨some s, settings⟩ p v

end Course

/-- The warnings before the point where validation has to stop, if there is one. -/
def warningsBeforeStop? (s : Schema) (settings : Settings) (v : Value) :
    Option (List String) :=
  let course := Course.ofSchema s settings v
  if course.stopped then some course.warnings else none

end StructuralSchema.Validation
