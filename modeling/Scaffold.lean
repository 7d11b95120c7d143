import Scaffold.Apply.Commit
import Scaffold.Apply.Plan
import Scaffold.Artifact.Code
import Scaffold.Artifact.File
import Scaffold.Artifact.Path
import Scaffold.Blueprint.Basic
import Scaffold.Blueprint.Document
import Scaffold.Data.Assoc
import Scaffold.Data.Decode
import Scaffold.Data.Tree
import Scaffold.Diagnosis.Diagnostic
import Scaffold.Diagnosis.Finding
import Scaffold.Diagnosis.Validate
import Scaffold.Disk.Basic
import Scaffold.Generation.Basic
import Scaffold.Generation.Report
import Scaffold.Json.Scan
import Scaffold.Json.Token
import Scaffold.Json.Value
import Scaffold.Lint.Configuration
import Scaffold.Lint.Fields
import Scaffold.Lint.Names
import Scaffold.Lint.Relations
import Scaffold.Manifest.Canonical
import Scaffold.Manifest.Decode
import Scaffold.Manifest.Define
import Scaffold.Manifest.Derived
import Scaffold.Manifest.Document
import Scaffold.Manifest.Entity
import Scaffold.Manifest.Field
import Scaffold.Manifest.FieldDraft
import Scaffold.Manifest.File
import Scaffold.Manifest.Normal
import Scaffold.Manifest.Patch
import Scaffold.Manifest.Relation
import Scaffold.Manifest.Settings
import Scaffold.Naming.Plural
import Scaffold.Naming.Style
import Scaffold.Naming.Words
import Scaffold.Number.Double
import Scaffold.Number.Layout
import Scaffold.Number.Shortest
import Scaffold.Pattern.Escape
import Scaffold.Pattern.Expr
import Scaffold.Pattern.Parse
import Scaffold.Pattern.Problem
import Scaffold.Pattern.Program
import Scaffold.Pattern.Property
import Scaffold.Pipeline.Basic
import Scaffold.Pipeline.Context
import Scaffold.Proofs.Apply.Atomic
import Scaffold.Proofs.Apply.Directories
import Scaffold.Proofs.Apply.Exact
import Scaffold.Proofs.Apply.Moving
import Scaffold.Proofs.Apply.Outcomes
import Scaffold.Proofs.Apply.Plans
import Scaffold.Proofs.Apply.Replacing
import Scaffold.Proofs.Apply.Staging
import Scaffold.Proofs.Apply.Targets
import Scaffold.Proofs.Apply.Undo
import Scaffold.Proofs.Apply.Waiting
import Scaffold.Proofs.Artifact.Quoting
import Scaffold.Proofs.Data.Agreement
import Scaffold.Proofs.Data.Invariants
import Scaffold.Proofs.Data.Reordering
import Scaffold.Proofs.Disk.Ancestors
import Scaffold.Proofs.Disk.Operations
import Scaffold.Proofs.Disk.Tree
import Scaffold.Proofs.Generation.Artifacts
import Scaffold.Proofs.Generation.Gate
import Scaffold.Proofs.Generation.Hooks
import Scaffold.Proofs.Generation.Modules
import Scaffold.Proofs.Generation.OutputPaths
import Scaffold.Proofs.Generation.Revision
import Scaffold.Proofs.Generation.Texts
import Scaffold.Proofs.Json.Decoding
import Scaffold.Proofs.Json.Doubles
import Scaffold.Proofs.Json.Finite
import Scaffold.Proofs.Json.Numbers
import Scaffold.Proofs.Json.Strings
import Scaffold.Proofs.Json.Values
import Scaffold.Proofs.Json.Written
import Scaffold.Proofs.Lint.Bounds
import Scaffold.Proofs.Lint.Configuration
import Scaffold.Proofs.Lint.Duplicates
import Scaffold.Proofs.Lint.Fields
import Scaffold.Proofs.Lint.Order
import Scaffold.Proofs.Lint.RelationReports
import Scaffold.Proofs.Lint.Relations
import Scaffold.Proofs.Lint.Reports
import Scaffold.Proofs.Manifest.Canonical
import Scaffold.Proofs.Manifest.Decoded
import Scaffold.Proofs.Manifest.Extent
import Scaffold.Proofs.Manifest.FieldEquality
import Scaffold.Proofs.Manifest.Normal
import Scaffold.Proofs.Manifest.Parsed
import Scaffold.Proofs.Manifest.Patching
import Scaffold.Proofs.Manifest.Rearranged
import Scaffold.Proofs.Manifest.Recovery
import Scaffold.Proofs.Manifest.RepeatedKeys
import Scaffold.Proofs.Manifest.RoundTrip
import Scaffold.Proofs.Manifest.Shorthands
import Scaffold.Proofs.Manifest.Spans
import Scaffold.Proofs.Manifest.Spellings
import Scaffold.Proofs.Manifest.Survival
import Scaffold.Proofs.Manifest.TextsAndValues
import Scaffold.Proofs.Naming
import Scaffold.Proofs.Naming.Shapes
import Scaffold.Proofs.Number.Finite
import Scaffold.Proofs.Outcome
import Scaffold.Proofs.Path
import Scaffold.Proofs.Pipeline.Trace
import Scaffold.Proofs.Repeats
import Scaffold.Proofs.Schema.ColumnFindings
import Scaffold.Proofs.Schema.Columns
import Scaffold.Proofs.Schema.EnumDefaults
import Scaffold.Proofs.Schema.ForeignKeys
import Scaffold.Proofs.Schema.JunctionColumns
import Scaffold.Proofs.Schema.JunctionLinks
import Scaffold.Proofs.Schema.PivotFields
import Scaffold.Proofs.Schema.RecordColumns
import Scaffold.Proofs.Schema.ReferenceClauses
import Scaffold.Proofs.Schema.StoredColumns
import Scaffold.Proofs.Schema.TableNames
import Scaffold.Proofs.Schema.TextLiterals
import Scaffold.Proofs.Session.Calls
import Scaffold.Proofs.Session.Commuting
import Scaffold.Proofs.Template.Selection
import Scaffold.Proofs.TypeScript.Members
import Scaffold.Proofs.TypeScript.PlainNames
import Scaffold.Proofs.TypeScript.Routes
import Scaffold.Proofs.TypeScript.TextLiterals
import Scaffold.Proofs.Validity
import Scaffold.Proofs.Version
import Scaffold.Session.Basic
import Scaffold.Session.Edit
import Scaffold.Session.Reply
import Scaffold.Session.Request
import Scaffold.Session.Tool
import Scaffold.Sql.Schema
import Scaffold.Sql.Table
import Scaffold.Template.Basic
import Scaffold.Template.Registry
import Scaffold.Template.Standard
import Scaffold.Text.Alphabetic
import Scaffold.Text.Basic
import Scaffold.Text.CaseMapping
import Scaffold.Text.Cased
import Scaffold.Text.Casing
import Scaffold.Text.Grapheme
import Scaffold.Text.GraphemeBreak
import Scaffold.Text.Printable
import Scaffold.Text.Quoted
import Scaffold.Text.Utf8
import Scaffold.Toml.Document
import Scaffold.Toml.Scalar
import Scaffold.Toml.Table
import Scaffold.TypeScript.Client
import Scaffold.TypeScript.Entity
import Scaffold.TypeScript.Hook
import Scaffold.TypeScript.Index
import Scaffold.TypeScript.Type
import Scaffold.Version
