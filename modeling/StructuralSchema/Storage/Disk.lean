import StructuralSchema.Storage.Path
import StructuralSchema.Text.Encoding
import StructuralSchema.Text.Literal

/-!
# Files

What a program can learn about files: what lies at a path.  A text file holds UTF-8,
and its line ends count as line feeds.

Every file can be read and every directory takes new files: a disk on which something is
closed to the program, or fails while it is read, is not described here.  Nothing on a disk
changes while a command runs.
-/

namespace StructuralSchema

inductive Entry
  | file (octets : List UInt8)
  | directory
  | absent
  /-- Nothing, as a name on the way is that of a file. -/
  | blocked
  /-- Nothing that could be, as a name on the way is longer than names may be. -/
  | overlong
  deriving DecidableEq, Repr

structure Disk where
  entry : FilePath → Entry

namespace Entry

def isPresent : Entry → Bool
  | .file _ => true
  | .directory => true
  | .absent => false
  | .blocked => false
  | .overlong => false

end Entry

inductive TextError
  | missing
  | directory
  | overlongName
  | encoding (error : Text.EncodingError)

def Disk.text (disk : Disk) (path : FilePath) : Except TextError String :=
  match disk.entry path with
  | .file octets =>
    match Text.decodeUtf8 octets with
    | .ok text => .ok (String.ofList (Text.unifyLineEnds text.toList))
    | .error e => .error (.encoding e)
  | .directory => .error .directory
  | .absent => .error .missing
  | .blocked => .error .missing
  | .overlong => .error .overlongName

inductive SystemFault
  | noSuchFile
  | notDirectory
  | isDirectory
  | nameTooLong
  deriving DecidableEq, Repr

def SystemFault.message (fault : SystemFault) (path : FilePath) : String :=
  let words := match fault with
    | .noSuchFile => "[Errno 2] No such file or directory: "
    | .notDirectory => "[Errno 20] Not a directory: "
    | .isDirectory => "[Errno 21] Is a directory: "
    | .nameTooLong => "[Errno 36] File name too long: "
  words ++ Text.literal path.toText

end StructuralSchema
