import StructuralSchema.Pointer
import StructuralSchema.Text.Literal
import StructuralSchema.Uri.Basic
import StructuralSchema.Value.Basic

/-!
# Schema identifiers

The name a schema gives itself has one of four shapes: a fragment, an absolute URI, a
pointer or a path.  The shapes overlap, so a text takes the first that it has.  A
text with blanks is an identifier only as a fragment.
-/

namespace StructuralSchema

/-- A schema's name; a fragment is kept without its mark. -/
inductive SchemaId
  | fragment (name : String)
  | url (text : String)
  | pointer (text : String)
  | path (text : String)
  deriving DecidableEq, Repr

namespace SchemaId

def ofText? (text : String) : Option SchemaId :=
  match text.toList with
  | '#' :: name => some (.fragment (String.ofList name))
  | _ =>
    if Uri.isAbsolute text then some (.url text)
    else if Pointer.isPointerText text then some (.pointer text)
    else if Text.hasBlank text then none
    else some (.path text)

def toText : SchemaId → String
  | .fragment name => "#" ++ name
  | .url text => text
  | .pointer text => text
  | .path text => text

inductive Error
  | notText (found : Value)
  | malformed (text : String)

/-- The word for the kind of a scalar that should have been a text. -/
def scalarWord : Scalar → String
  | .null => "NoneType"
  | .bool _ => "bool"
  | .int _ => "int"
  | .float _ => "float"
  | .str _ => "str"
  | .bytes _ => "bytes"
  | .date _ => "date"
  | .time _ => "datetime"

def valueWord : Value → String
  | .scalar s => scalarWord s
  | .arr _ => "list"
  | .obj _ => "dict"
  | .pair _ _ => "tuple"
  | .set _ => "set"
  | .loop _ v => valueWord v
  | .endless => "list"

def Error.message : Error → String
  | .notText found => "Schema id must be a string, got " ++ valueWord found ++ "."
  | .malformed text => "Invalid schema identifier: " ++ Text.literal text

def read (text : String) : Except Error SchemaId :=
  match ofText? text with
  | some id => .ok id
  | none => .error (.malformed text)

def ofValue : Value → Except Error SchemaId
  | .str text => read text
  | v => .error (.notText v)

theorem toText_of_ofText? {text : String} {id : SchemaId} (h : ofText? text = some id) :
    id.toText = text := by
  unfold ofText? at h
  split at h
  · rename_i name hname
    simp only [Option.some.injEq] at h
    subst h
    have : text = String.ofList ('#' :: name) := by rw [← hname]; simp
    rw [this]
    simp only [toText]
    exact String.ext (by simp)
  · split at h
    · simp_all [toText]; rw [← h]
    · split at h
      · simp_all [toText]; rw [← h]
      · split at h
        · simp at h
        · simp_all [toText]; rw [← h]

end SchemaId

end StructuralSchema
