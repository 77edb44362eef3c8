import StructuralSchema.Text.Blank
import StructuralSchema.Text.Printable
import StructuralSchema.Text.Digits
import StructuralSchema.Text.Scripts
import StructuralSchema.Text.Quoted
import StructuralSchema.Text.Literal
import StructuralSchema.Text.Utf8
import StructuralSchema.Text.Percent
import StructuralSchema.Text.Encoding
import StructuralSchema.Number.Binary64
import StructuralSchema.Number.Shortest
import StructuralSchema.Number.Layout
import StructuralSchema.Number.Order
import StructuralSchema.Number.Numeral
import StructuralSchema.Value.Calendar
import StructuralSchema.Value.Basic
import StructuralSchema.Value.Literal
import StructuralSchema.Value.Describe
import StructuralSchema.Value.Equality
import StructuralSchema.Value.Slots
import StructuralSchema.Text.Cut
import StructuralSchema.Json.Fault
import StructuralSchema.Json.Reader
import StructuralSchema.Json.Printer
import StructuralSchema.Uri.Address
import StructuralSchema.Uri.Basic
import StructuralSchema.Pointer
import StructuralSchema.Identifier
import StructuralSchema.Schema.Basic
import StructuralSchema.Schema.Error
import StructuralSchema.Schema.Decode
import StructuralSchema.Schema.Encode
import StructuralSchema.Schema.Equality
import StructuralSchema.Schema.Document
import StructuralSchema.Reference.Error
import StructuralSchema.Reference.Walk
import StructuralSchema.Reference.Chain
import StructuralSchema.Validation.Settings
import StructuralSchema.Validation.Report
import StructuralSchema.Validation.Check
import StructuralSchema.Validation.Course
import StructuralSchema.Yaml.Character
import StructuralSchema.Yaml.Error
import StructuralSchema.Yaml.Cursor
import StructuralSchema.Yaml.Quoted
import StructuralSchema.Yaml.Block
import StructuralSchema.Yaml.Plain
import StructuralSchema.Yaml.Mark
import StructuralSchema.Yaml.Token
import StructuralSchema.Yaml.Number
import StructuralSchema.Yaml.Timestamp
import StructuralSchema.Yaml.Tag
import StructuralSchema.Yaml.Node
import StructuralSchema.Text.Base64
import StructuralSchema.Yaml.Content
import StructuralSchema.Yaml.Merge
import StructuralSchema.Yaml.Assembly
import StructuralSchema.Yaml.Unfolding
import StructuralSchema.Storage.Path
import StructuralSchema.Storage.Disk
import StructuralSchema.Storage.Tree
import StructuralSchema.Storage.Host
import StructuralSchema.Document.Load
import StructuralSchema.Configuration.Keys
import StructuralSchema.Configuration.Basic
import StructuralSchema.Configuration.Template
import StructuralSchema.Text.Similarity
import StructuralSchema.Text.Styles
import StructuralSchema.CommandLine.Page
import StructuralSchema.CommandLine.Arguments
import StructuralSchema.CommandLine.Shell
import StructuralSchema.CommandLine.Plan
import StructuralSchema.CommandLine.Outcome
import StructuralSchema.Main
import StructuralSchema.Proofs.JsonValue
import StructuralSchema.Proofs.Magnitude
import StructuralSchema.Proofs.PointerText
import StructuralSchema.Proofs.Conformance
import StructuralSchema.Proofs.Check
import StructuralSchema.Proofs.Verdict
import StructuralSchema.Proofs.Mismatch
import StructuralSchema.Proofs.Decoding
import StructuralSchema.Proofs.Encoding
import StructuralSchema.Proofs.Regular
import StructuralSchema.Proofs.RoundTrip
import StructuralSchema.Proofs.Grammar
import StructuralSchema.Proofs.Acceptance
import StructuralSchema.Proofs.Walk
import StructuralSchema.Proofs.Chain
import StructuralSchema.Proofs.Lookup
import StructuralSchema.Proofs.Octets
import StructuralSchema.Proofs.Segments
import StructuralSchema.Proofs.Address
import StructuralSchema.Proofs.Composition
import StructuralSchema.Proofs.NormalForm
import StructuralSchema.Proofs.Parts
import StructuralSchema.Proofs.Visits
import StructuralSchema.Proofs.Sites
import StructuralSchema.Proofs.Skeleton
import StructuralSchema.Proofs.Inert
import StructuralSchema.Proofs.Indifference
import StructuralSchema.Proofs.Separation
import StructuralSchema.Proofs.NodeObjects
import StructuralSchema.Proofs.Machine
import StructuralSchema.Proofs.Termination
import StructuralSchema.Proofs.JsonReading
import StructuralSchema.Proofs.JsonText
import StructuralSchema.Proofs.NormalParts
import StructuralSchema.Proofs.TextRoundTrip
import StructuralSchema.Proofs.JsonForm
import StructuralSchema.Proofs.Refusal
import StructuralSchema.Proofs.Endings
import StructuralSchema.Proofs.Statuses
import StructuralSchema.Proofs.Limits
import StructuralSchema.Proofs.Rearrangement
import StructuralSchema.Proofs.Overlooked
import StructuralSchema.Proofs.Sameness
import StructuralSchema.Proofs.MemberOrder
import StructuralSchema.Proofs.SourceWalk
import StructuralSchema.Proofs.Applied
import StructuralSchema.Proofs.Identifiers
import StructuralSchema.Proofs.Complaints
import StructuralSchema.Proofs.Batches
import StructuralSchema.Proofs.UriParts
import StructuralSchema.Proofs.Classification
import StructuralSchema.Proofs.Drafts
import StructuralSchema.Proofs.SettingsGrammar
import StructuralSchema.Proofs.Rounding
import StructuralSchema.Proofs.NumberText
import StructuralSchema.Proofs.Descriptions
