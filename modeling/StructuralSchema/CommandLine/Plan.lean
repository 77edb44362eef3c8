import StructuralSchema.Configuration.Basic
import StructuralSchema.Document.Load

/-!
# Plans

A command plans what it prints, the file it writes and how it ends.  All of that happens
where the output takes each text that comes to it; a text that it does not take ends the
program, with what was printed before.
-/

namespace StructuralSchema.CommandLine

/-- What stops the program without a message of its own. -/
inductive Breakdown
  | keyNotText (key : Scalar)
  | configuration (fault : ConfigurationFault)
  | document (fault : LoadFault)
  | noJsonForm
  /-- A value holds itself where it is read to its end. -/
  | endless
  /-- The arguments cannot be looked at, as with a path that holds a character that no
  path may hold. -/
  | brokenPath
  deriving DecidableEq, Repr

inductive Ending
  | status (code : Nat)
  | breakdown (cause : Breakdown)
  deriving DecidableEq, Repr

inductive Print
  | out (text : String)
  | err (text : String)
  deriving DecidableEq, Repr

namespace Print

def out? : Print → Option String
  | .out text => some text
  | .err _ => none

def err? : Print → Option String
  | .out _ => none
  | .err text => some text

/-- The text, if it is one for the output, which does not take it. -/
def stuck? (takes : String → Bool) : Print → Option String
  | .out text => if takes text then none else some text
  | .err _ => none

@[simp] theorem filterMap_out?_map_out (texts : List String) :
    (texts.map out).filterMap out? = texts := by
  induction texts with
  | nil => rfl
  | cons text rest ih => simp only [List.map_cons, List.filterMap_cons, out?, ih]

@[simp] theorem filterMap_out?_map_err (texts : List String) :
    (texts.map err).filterMap out? = [] := by
  induction texts with
  | nil => rfl
  | cons text rest ih => simp only [List.map_cons, List.filterMap_cons, out?, ih]

@[simp] theorem filterMap_err?_map_err (texts : List String) :
    (texts.map err).filterMap err? = texts := by
  induction texts with
  | nil => rfl
  | cons text rest ih => simp only [List.map_cons, List.filterMap_cons, err?, ih]

@[simp] theorem filterMap_err?_map_out (texts : List String) :
    (texts.map out).filterMap err? = [] := by
  induction texts with
  | nil => rfl
  | cons text rest ih => simp only [List.map_cons, List.filterMap_cons, err?, ih]

end Print

/-- What the program prints, in order, the file it writes and how it ends. -/
structure Plan where
  prints : List Print := []
  written : Option (FilePath × String) := none
  ending : Ending := .status 0

/-- What comes of a plan where the output takes every text.  Texts are printed one after
the other, each with a line end. -/
structure Outcome where
  out : List String := []
  err : List String := []
  written : Option (FilePath × String) := none
  ending : Ending := .status 0

inductive Finish
  | ended (ending : Ending)
  | stuck (text : String)
  deriving DecidableEq, Repr

/-- What comes of a plan where the output may not take every text. -/
structure Delivery where
  out : List String
  err : List String
  written : Option (FilePath × String)
  finish : Finish

def printed (texts : List String) : String :=
  String.join (texts.map (· ++ "\n"))

namespace Plan

def outcome (p : Plan) : Outcome where
  out := p.prints.filterMap Print.out?
  err := p.prints.filterMap Print.err?
  written := p.written
  ending := p.ending

def deliver (p : Plan) (takes : String → Bool) : Delivery :=
  let arrived := p.prints.takeWhile fun print => (print.stuck? takes).isNone
  { out := arrived.filterMap Print.out?
    err := arrived.filterMap Print.err?
    -- A file is written before anything is printed.
    written := p.written
    finish := match p.prints.findSome? (Print.stuck? takes) with
      | some text => .stuck text
      | none => .ended p.ending }

/-- The output takes all that is planned for it. -/
def IsTaken (p : Plan) (takes : String → Bool) : Prop :=
  ∀ text ∈ p.outcome.out, takes text = true

end Plan

end StructuralSchema.CommandLine
