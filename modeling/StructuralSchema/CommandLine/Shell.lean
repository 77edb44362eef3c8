import StructuralSchema.CommandLine.Arguments
import StructuralSchema.Text.Styles

/-!
# Shells

What stands between the program and its user: the reader of the arguments, and an output
that may not take every text, as not every encoding has all characters.  The error stream
takes every text, as it writes in its own way what it has no characters for.
-/

namespace StructuralSchema.CommandLine

/-- What the reader of the arguments says of those that it refuses, and the status that it
asks for. -/
structure Refusal where
  texts : List String
  status : Nat
  isUsage : Bool
  deriving DecidableEq, Repr

inductive Reading
  | command (verbose : Bool) (command : Command)
  /-- Something is shown, such as a page of help, and no command is carried out. -/
  | shown (texts : List String)
  | refused (refusal : Refusal)
  | aborted
  | broken
  deriving DecidableEq, Repr

structure Shell where
  read : List String → Reading
  takes : String → Bool

/-- The statuses that the reader of the arguments promises. -/
def Shell.KeepsStatuses (shell : Shell) : Prop :=
  ∀ arguments refusal, shell.read arguments = .refused refusal →
    refusal.status = if refusal.isUsage then 2 else 1

/-- A text as it is printed to something that is no terminal. -/
def echo (text : String) : String :=
  Text.stripStyles text

def Request.reading : Request → Reading
  | .nothing => .refused ⟨[Page.program.help], 2, true⟩
  | .help page => .shown [page.help]
  | .version => .shown [versionText]
  | .brokenPath => .broken
  | .run verbose command => .command verbose command

def UsageError.refusal (e : UsageError) : Refusal :=
  ⟨[echo e.message], 2, true⟩

namespace Shell

/-- The reader of arguments of this library, with an output that takes every text. -/
def own : Shell where
  read arguments :=
    match readArguments arguments with
    | .error e => .refused e.refusal
    | .ok request => request.reading
  takes _ := true

theorem keepsStatuses_own : own.KeepsStatuses := by
  intro arguments refusal h
  simp only [own] at h
  split at h
  · cases h
    rfl
  · rename_i request _
    cases request with
    | nothing =>
        cases h
        rfl
    | _ => cases h

end Shell

end StructuralSchema.CommandLine
