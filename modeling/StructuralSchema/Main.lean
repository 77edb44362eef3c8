import StructuralSchema.CommandLine.Outcome

/-!
# The program

Looks at the files that the arguments name, and prints and writes what the outcome of
the arguments says.
-/

namespace StructuralSchema

open CommandLine

def lookAt (path : FilePath) : IO Entry := do
  try
    let octets ← IO.FS.readBinFile path.toText
    return .file octets.toList
  catch
    | .noFileOrDirectory _ _ _ => return .absent
    | .invalidArgument _ code _ => return if code = 36 then .overlong else .absent
    | .inappropriateType _ code _ => return if code = 20 then .blocked else .directory
    | _ => return .absent

def lookAtAll (paths : List FilePath) : IO Disk := do
  let found ← paths.mapM fun path => do
    return (path, ← lookAt path)
  return ⟨fun path => (found.lookup path).getD .absent⟩

def pathsOf : Reading → List FilePath
  | .command _ command => command.paths
  | _ => []

/-- The status that the program ends with.  A breakdown ends like a failure. -/
def statusOf : Finish → UInt32
  | .ended (.status code) => code.toUInt32
  | .ended (.breakdown _) => 1
  | .stuck _ => 1

def carryOut (arguments : List String) : IO UInt32 := do
  let disk ← lookAtAll (pathsOf (Shell.own.read arguments))
  let base := FilePath.ofText (toString (← IO.currentDir))
  let delivery := runIn .own disk base arguments
  match delivery.written with
  | some (path, text) => IO.FS.writeFile path.toText text
  | none => pure ()
  IO.print (printed delivery.out)
  IO.eprint (printed delivery.err)
  return statusOf delivery.finish

end StructuralSchema

def main (arguments : List String) : IO UInt32 :=
  StructuralSchema.carryOut arguments
