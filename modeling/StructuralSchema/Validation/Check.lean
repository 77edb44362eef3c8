import StructuralSchema.Reference.Chain
import StructuralSchema.Validation.Report
import StructuralSchema.Validation.Settings

/-!
# Validation

A value is checked against a node part by part: every check inside another is on a
part of the value, so validation ends whatever references the schema holds.  What the
parts of a value have wrong is listed one after the other.
-/

namespace StructuralSchema.Validation

/-- What a check finds, the keywords in the order in which the checks end. -/
structure Findings where
  mismatches : List Mismatch
  notices : List Notice

namespace Findings

def empty : Findings :=
  ⟨[], []⟩

def mismatch (place : Pointer) (cause : Cause) : Findings :=
  ⟨[⟨place, cause⟩], []⟩

def append (a b : Findings) : Findings :=
  ⟨a.mismatches ++ b.mismatches, a.notices ++ b.notices⟩

instance : Append Findings :=
  ⟨append⟩

def join : List Findings → Findings
  | [] => empty
  | f :: rest => f ++ join rest

end Findings

structure Context where
  document : Option Schema
  settings : Settings

namespace Context

def dereference (c : Context) (reference : String) : Except Reference.Error (Option Node) :=
  match c.document with
  | some document => Reference.dereference document c.settings.maxReferenceDepth reference
  | none => .error ⟨reference, .noDocument⟩

def notices (c : Context) (n : Node) (site : String) : List Notice :=
  match c.settings.unsupportedKeywords with
  | .report => n.unsupported.map fun entry => ⟨site, entry.1⟩
  | .ignore => []

end Context

/-- What a property asks of a value. -/
inductive Demand
  | node (n : Node) (site : String)
  | anything
  /-- Nothing that can be told, as the reference failed. -/
  | failed (reference : String) (error : Reference.Error)

/-- What a property at a site asks.  A reference is the site of the node it leads to. -/
def Context.demand (c : Context) (site : String) : Property → Demand
  | .node n => .node n site
  | .reference reference =>
    match c.dereference reference with
    | .ok (some n) => .node n reference
    | .ok none => .anything
    | .error e => .failed reference e

def matchesScalar : Node → Scalar → Bool
  | .plain .null _, .null => true
  | .plain .boolean _, .bool _ => true
  | .plain .string _, .str _ => true
  | .numeric _ _ _, .int _ => true
  | .numeric .number _ _, .float _ => true
  | .numeric .integer _ _, .float x => x.isWhole
  | _, _ => false

def propertySite (site name : String) : String :=
  site ++ "/properties/" ++ Pointer.escape name

mutual

def checkNode (c : Context) (n : Node) (place : Pointer) (site : String) : Value → Findings
  | .scalar s =>
    if matchesScalar n s then ⟨[], c.notices n site⟩
    else ⟨[⟨place, .wrongType n.typeName (.scalar s)⟩], c.notices n site⟩
  | .arr elements =>
    match n with
    | .array items _ =>
      -- The keywords of a node are noted after those of its parts.
      checkElements c items place (site ++ "/items") 0 elements ++ ⟨[], c.notices n site⟩
    | _ => ⟨[⟨place, .wrongType n.typeName (.arr elements)⟩], c.notices n site⟩
  | .obj members =>
    match n with
    | .object properties required _ =>
      Findings.join (properties.map fun entry =>
        checkMember c entry.1 entry.2 ((required.getD []).contains entry.1) place site members) ++
        ⟨[], c.notices n site⟩
    | _ => ⟨[⟨place, .wrongType n.typeName (.obj members)⟩], c.notices n site⟩
  | .pair v w =>
    match n with
    | .array items _ =>
      checkNode c items (place.child "0") (site ++ "/items") v ++
        checkNode c items (place.child "1") (site ++ "/items") w ++ ⟨[], c.notices n site⟩
    | _ => ⟨[⟨place, .wrongType n.typeName (.pair v w)⟩], c.notices n site⟩
  | .set elements => ⟨[⟨place, .wrongType n.typeName (.set elements)⟩], c.notices n site⟩
  | .loop _ v => checkNode c n place site v
  | .endless => ⟨[⟨place, .wrongType n.typeName .endless⟩], c.notices n site⟩

/-- Checks the elements of an array from an index on. -/
def checkElements (c : Context) (items : Node) (place : Pointer) (site : String)
    (index : Nat) : List Value → Findings
  | [] => .empty
  | v :: rest =>
    checkNode c items (place.child (toString index)) site v ++
      checkElements c items place site (index + 1) rest

/-- Checks the member that a property names, found among the members of an object. -/
def checkMember (c : Context) (name : String) (p : Property) (required : Bool)
    (place : Pointer) (site : String) : List (Scalar × Value) → Findings
  | [] => if required then .mismatch place (.missingRequired name) else .empty
  | (k, v) :: rest =>
    if k = .str name then
      match c.demand (propertySite site name) p with
      | .node n site => checkNode c n (place.child name) site v
      | .anything => .empty
      | .failed reference e =>
        .mismatch (place.child name) (.unresolvedReference reference e v)
    else checkMember c name p required place site rest

end

def checkProperty (c : Context) (p : Property) (v : Value) : Findings :=
  match c.demand "#" p with
  | .node n site => checkNode c n .root site v
  | .anything => .empty
  | .failed reference e => .mismatch .root (.unresolvedReference reference e v)

/-- The report of what was found: each notice once, and the warnings of the mismatches. -/
def Findings.report (f : Findings) : Report :=
  { mismatches := f.mismatches
    notices := f.notices.eraseDups
    log := f.mismatches.filterMap fun m => m.warning?.map .warning }

/-- Validates a value against a node.  References are followed in the document, and
fail if there is none. -/
def validateNode (document : Option Schema) (settings : Settings) (n : Node) (v : Value) :
    Report :=
  (checkNode ⟨document, settings⟩ n .root "#" v).report

def validate (s : Schema) (settings : Settings) (v : Value) : Report :=
  match s with
  | .boolean true => ⟨[], [], [.acceptsEverything]⟩
  | .boolean false => ⟨[⟨.root, .falseSchema v⟩], [], []⟩
  | .definition d =>
    match d.specification with
    | none => ⟨[], [], []⟩
    | some p => (checkProperty ⟨some s, settings⟩ p v).report

end StructuralSchema.Validation
