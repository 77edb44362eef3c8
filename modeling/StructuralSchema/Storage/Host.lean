import StructuralSchema.Json.Reader
import StructuralSchema.Storage.Disk
import StructuralSchema.Yaml.Unfolding

/-!
# Hosts

The program does not bring along everything that it uses.  It meets files, and readers of
the two formats that these are in.  A host may have readers of its own, with other words
for what is not well formed, with bounds on what they read, or with a sign of their own
for half of a pair that is no character: what becomes of the values they give does not
depend on that.
-/

namespace StructuralSchema

/-- Why a reader makes no value of a text: it is not well formed, which the reader says in
words, or the reader breaks down. -/
inductive ReadError
  | malformed (words : String)
  | fault (fault : Yaml.Fault)
  deriving DecidableEq, Repr

structure Host extends Disk where
  readJson : String → Except ReadError Value
  readYaml : String → Except ReadError Value

namespace Host

def ownJson (text : String) : Except ReadError Value :=
  (Json.parse text).mapError fun e => .malformed e.message

/-- Nothing is said of what is wrong with YAML text. -/
def ownYaml (text : String) : Except ReadError Value :=
  (Yaml.parse text).mapError fun
    | .malformed => .malformed "<yaml>"
    | .scalar fault => .fault fault

def ofDisk (disk : Disk) : Host where
  toDisk := disk
  readJson := ownJson
  readYaml := ownYaml

instance : Coe Disk Host :=
  ⟨ofDisk⟩

end Host

end StructuralSchema
