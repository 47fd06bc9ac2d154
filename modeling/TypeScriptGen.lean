import TypeScriptGen.Calendar.Day
import TypeScriptGen.Calendar.Moment
import TypeScriptGen.Calendar.Reader
import TypeScriptGen.Calendar.Standard
import TypeScriptGen.Comment
import TypeScriptGen.Decimal.Double
import TypeScriptGen.Decimal.Reader
import TypeScriptGen.Decimal.Shortest
import TypeScriptGen.Decimal.Whole
import TypeScriptGen.Declaration.Alias
import TypeScriptGen.Declaration.Enumeration
import TypeScriptGen.Declaration.Interface
import TypeScriptGen.Declaration.Object
import TypeScriptGen.Document.Basic
import TypeScriptGen.Document.Configuration
import TypeScriptGen.Document.File
import TypeScriptGen.Document.Metadata
import TypeScriptGen.Document.Options
import TypeScriptGen.Document.Section
import TypeScriptGen.Failure
import TypeScriptGen.Import.Registry
import TypeScriptGen.Json.Reader
import TypeScriptGen.Json.Writer
import TypeScriptGen.Logging
import TypeScriptGen.Naming.Case
import TypeScriptGen.Naming.Sanitizer
import TypeScriptGen.Outcome
import TypeScriptGen.Proofs.Calendar.Days
import TypeScriptGen.Proofs.Calendar.Instants
import TypeScriptGen.Proofs.Calendar.Stamps
import TypeScriptGen.Proofs.Calendar.Succession
import TypeScriptGen.Proofs.Comment.Inert
import TypeScriptGen.Proofs.Decimal.Digits
import TypeScriptGen.Proofs.Declaration.ArrayAlias
import TypeScriptGen.Proofs.Declaration.Drafted
import TypeScriptGen.Proofs.Declaration.MemberText
import TypeScriptGen.Proofs.Declaration.Members
import TypeScriptGen.Proofs.Declaration.ObjectTables
import TypeScriptGen.Proofs.Declaration.TypeParameters
import TypeScriptGen.Proofs.Document.Addition
import TypeScriptGen.Proofs.Document.Assembly
import TypeScriptGen.Proofs.Document.Atomicity
import TypeScriptGen.Proofs.Document.Call
import TypeScriptGen.Proofs.Document.CalledNames
import TypeScriptGen.Proofs.Document.Composition
import TypeScriptGen.Proofs.Document.Content
import TypeScriptGen.Proofs.Document.ContentOrder
import TypeScriptGen.Proofs.Document.Defaults
import TypeScriptGen.Proofs.Document.Files
import TypeScriptGen.Proofs.Document.HeaderTags
import TypeScriptGen.Proofs.Document.ImportBlock
import TypeScriptGen.Proofs.Document.Interleaving
import TypeScriptGen.Proofs.Document.Keeping
import TypeScriptGen.Proofs.Document.Loading
import TypeScriptGen.Proofs.Document.Misfits
import TypeScriptGen.Proofs.Document.NestedLiterals
import TypeScriptGen.Proofs.Document.ObjectNames
import TypeScriptGen.Proofs.Document.Printable
import TypeScriptGen.Proofs.Document.Registration
import TypeScriptGen.Proofs.Document.Reloading
import TypeScriptGen.Proofs.Document.Reprinting
import TypeScriptGen.Proofs.Document.RequiredParts
import TypeScriptGen.Proofs.Document.SavedForm
import TypeScriptGen.Proofs.Document.Saving
import TypeScriptGen.Proofs.Document.SpreadNames
import TypeScriptGen.Proofs.Document.WrittenNames
import TypeScriptGen.Proofs.Import.Forgetting
import TypeScriptGen.Proofs.Import.Legality
import TypeScriptGen.Proofs.Import.Needed
import TypeScriptGen.Proofs.Import.Run
import TypeScriptGen.Proofs.Import.Statement
import TypeScriptGen.Proofs.Import.Unambiguous
import TypeScriptGen.Proofs.Json.Data
import TypeScriptGen.Proofs.Json.Reading
import TypeScriptGen.Proofs.Json.RoundTrip
import TypeScriptGen.Proofs.Naming.Answers
import TypeScriptGen.Proofs.Naming.NormalForm
import TypeScriptGen.Proofs.Naming.PlainNames
import TypeScriptGen.Proofs.Naming.Reserved
import TypeScriptGen.Proofs.Outcome.Procedure
import TypeScriptGen.Proofs.Outcome.Steps
import TypeScriptGen.Proofs.Sorting.Stable
import TypeScriptGen.Proofs.Statement.Clauses
import TypeScriptGen.Proofs.Statement.Drafted
import TypeScriptGen.Proofs.Statement.Headings
import TypeScriptGen.Proofs.Statement.Nesting
import TypeScriptGen.Proofs.Statement.Shown
import TypeScriptGen.Proofs.Statement.Terminators
import TypeScriptGen.Proofs.Syntax.Components
import TypeScriptGen.Proofs.Syntax.Layouts
import TypeScriptGen.Proofs.Syntax.OnePass
import TypeScriptGen.Proofs.Syntax.OutlineParts
import TypeScriptGen.Proofs.Syntax.Parsed
import TypeScriptGen.Proofs.Syntax.Placeholders
import TypeScriptGen.Proofs.Syntax.ReferenceSearch
import TypeScriptGen.Proofs.Syntax.Segmentation
import TypeScriptGen.Proofs.Syntax.Shown
import TypeScriptGen.Proofs.Syntax.Spelling
import TypeScriptGen.Proofs.Syntax.Splitting
import TypeScriptGen.Proofs.Syntax.TypeLayers
import TypeScriptGen.Proofs.Syntax.TypeNodes
import TypeScriptGen.Proofs.Syntax.TypeReading
import TypeScriptGen.Proofs.Syntax.TypeRegrouping
import TypeScriptGen.Proofs.Syntax.TypeText
import TypeScriptGen.Proofs.Syntax.TypeTrees
import TypeScriptGen.Proofs.Text.Blocks
import TypeScriptGen.Proofs.Text.Delimited
import TypeScriptGen.Proofs.Text.Encoded
import TypeScriptGen.Proofs.Text.Indentation
import TypeScriptGen.Proofs.Text.Laying
import TypeScriptGen.Proofs.Text.Outline
import TypeScriptGen.Proofs.Text.Pieces
import TypeScriptGen.Proofs.Text.Place
import TypeScriptGen.Proofs.Text.Squeeze
import TypeScriptGen.Proofs.Text.Standing
import TypeScriptGen.Proofs.Text.StringLiteral
import TypeScriptGen.Proofs.Usage.CodeNames
import TypeScriptGen.Proofs.Usage.Completeness
import TypeScriptGen.Proofs.Usage.Descendants
import TypeScriptGen.Proofs.Usage.DollarNames
import TypeScriptGen.Proofs.Usage.Mention
import TypeScriptGen.Proofs.Usage.NodeNames
import TypeScriptGen.Proofs.Usage.Soundness
import TypeScriptGen.Proofs.Usage.TrackerRuns
import TypeScriptGen.Proofs.Usage.Walking
import TypeScriptGen.Proofs.Value.Denotation
import TypeScriptGen.Proofs.Value.Depth
import TypeScriptGen.Proofs.Value.Keys
import TypeScriptGen.Proofs.Value.Leaves
import TypeScriptGen.Proofs.Value.Listed
import TypeScriptGen.Proofs.Value.Scanning
import TypeScriptGen.Proofs.Value.Tables
import TypeScriptGen.Sorting
import TypeScriptGen.Statement.Draft
import TypeScriptGen.Syntax.Literal
import TypeScriptGen.Syntax.Node
import TypeScriptGen.Syntax.Parse
import TypeScriptGen.Syntax.Printer
import TypeScriptGen.Syntax.Record
import TypeScriptGen.Syntax.Reference
import TypeScriptGen.Template
import TypeScriptGen.Text.Basic
import TypeScriptGen.Text.Blank
import TypeScriptGen.Text.LetterCase
import TypeScriptGen.Text.LetterCaseTable
import TypeScriptGen.Text.Line
import TypeScriptGen.Text.Point
import TypeScriptGen.Text.PrintableTable
import TypeScriptGen.Text.Quoted
import TypeScriptGen.Text.Search
import TypeScriptGen.Text.Word
import TypeScriptGen.Text.WordTable
import TypeScriptGen.Timestamp
import TypeScriptGen.Usage.Names
import TypeScriptGen.Usage.Tracker
import TypeScriptGen.Value.Basic
import TypeScriptGen.Value.Display
import TypeScriptGen.Value.Literal
import TypeScriptGen.Value.Mapping
import TypeScriptGen.Value.Order
