import CodeAtlas.Command.Console
import CodeAtlas.Command.Markup
import CodeAtlas.Command.Options
import CodeAtlas.Command.Program
import CodeAtlas.Context
import CodeAtlas.Contexts
import CodeAtlas.Decimal.Shortest
import CodeAtlas.Digest
import CodeAtlas.Distinct
import CodeAtlas.Error
import CodeAtlas.Files.Path
import CodeAtlas.Files.Tree
import CodeAtlas.Graph.Archive
import CodeAtlas.Graph.Cell
import CodeAtlas.Graph.Identity
import CodeAtlas.Graph.Request
import CodeAtlas.Graph.Schema
import CodeAtlas.Graph.Store
import CodeAtlas.Graph.Transaction
import CodeAtlas.Indexing.Entries
import CodeAtlas.Indexing.Files
import CodeAtlas.Indexing.Functions
import CodeAtlas.Indexing.Libraries
import CodeAtlas.Indexing.Plan
import CodeAtlas.Indexing.Report
import CodeAtlas.Json.Basic
import CodeAtlas.Json.Plain
import CodeAtlas.Json.Printer
import CodeAtlas.Json.Reader
import CodeAtlas.Json.Units
import CodeAtlas.Library.Catalogue
import CodeAtlas.Library.Manifest
import CodeAtlas.Main
import CodeAtlas.Proofs.Batch
import CodeAtlas.Proofs.Command.Actions
import CodeAtlas.Proofs.Command.Indexed
import CodeAtlas.Proofs.Contexts.Accounting
import CodeAtlas.Proofs.Contexts.Listing
import CodeAtlas.Proofs.Contexts.Names
import CodeAtlas.Proofs.Decimal.Rounding
import CodeAtlas.Proofs.Decimal.Shortest
import CodeAtlas.Proofs.Decimal.Stable
import CodeAtlas.Proofs.Digest
import CodeAtlas.Proofs.Distinct
import CodeAtlas.Proofs.Files.Sources
import CodeAtlas.Proofs.Graph.Content
import CodeAtlas.Proofs.Graph.Effects
import CodeAtlas.Proofs.Graph.Identity
import CodeAtlas.Proofs.Graph.Lookup
import CodeAtlas.Proofs.Graph.Rewriting
import CodeAtlas.Proofs.Graph.Rows
import CodeAtlas.Proofs.Graph.Transactions
import CodeAtlas.Proofs.Graph.Writes
import CodeAtlas.Proofs.Growth
import CodeAtlas.Proofs.History.Ageing
import CodeAtlas.Proofs.History.Courses
import CodeAtlas.Proofs.History.Edges
import CodeAtlas.Proofs.History.Events
import CodeAtlas.Proofs.History.FileDiff
import CodeAtlas.Proofs.History.Links
import CodeAtlas.Proofs.History.Readers
import CodeAtlas.Proofs.History.Runs
import CodeAtlas.Proofs.History.Tracking
import CodeAtlas.Proofs.History.Written
import CodeAtlas.Proofs.Indexing.Again
import CodeAtlas.Proofs.Indexing.Contained
import CodeAtlas.Proofs.Indexing.Dependencies
import CodeAtlas.Proofs.Indexing.Entries
import CodeAtlas.Proofs.Indexing.Faultless
import CodeAtlas.Proofs.Indexing.Itemised
import CodeAtlas.Proofs.Indexing.Libraries
import CodeAtlas.Proofs.Indexing.Loose
import CodeAtlas.Proofs.Indexing.Matching
import CodeAtlas.Proofs.Indexing.Order
import CodeAtlas.Proofs.Indexing.Plan
import CodeAtlas.Proofs.Indexing.Readable
import CodeAtlas.Proofs.Isolation.Confined
import CodeAtlas.Proofs.Isolation.Keyed
import CodeAtlas.Proofs.Isolation.NonInterference
import CodeAtlas.Proofs.Isolation.Reads
import CodeAtlas.Proofs.Isolation.Sessions
import CodeAtlas.Proofs.Isolation.Tables
import CodeAtlas.Proofs.Isolation.Writes
import CodeAtlas.Proofs.Json.Figures
import CodeAtlas.Proofs.Json.Grammar
import CodeAtlas.Proofs.Json.Lists
import CodeAtlas.Proofs.Json.Numbers
import CodeAtlas.Proofs.Json.Pieces
import CodeAtlas.Proofs.Json.Printing
import CodeAtlas.Proofs.Json.Proper
import CodeAtlas.Proofs.Json.Reading
import CodeAtlas.Proofs.Json.Roundtrip
import CodeAtlas.Proofs.Json.Strings
import CodeAtlas.Proofs.Json.Units
import CodeAtlas.Proofs.Library.Manifest
import CodeAtlas.Proofs.Moves
import CodeAtlas.Proofs.Quality.Likeness
import CodeAtlas.Proofs.Quality.Naming
import CodeAtlas.Proofs.Quality.Review
import CodeAtlas.Proofs.Quality.Tokens
import CodeAtlas.Proofs.Relations.Calls
import CodeAtlas.Proofs.Relations.Heritage
import CodeAtlas.Proofs.Relations.Inference
import CodeAtlas.Proofs.Relations.Target
import CodeAtlas.Proofs.Review.Analysis
import CodeAtlas.Proofs.Review.Comparison
import CodeAtlas.Proofs.Review.Imports
import CodeAtlas.Proofs.Review.Relations
import CodeAtlas.Proofs.Runs
import CodeAtlas.Proofs.Settings.Checks
import CodeAtlas.Proofs.Settings.Layers
import CodeAtlas.Proofs.Settings.Lookup
import CodeAtlas.Proofs.Sorted
import CodeAtlas.Proofs.Source.Components
import CodeAtlas.Proofs.Source.Places
import CodeAtlas.Proofs.Source.Visit
import CodeAtlas.Proofs.Stubs.Anchored
import CodeAtlas.Proofs.Stubs.Defined
import CodeAtlas.Proofs.Stubs.Filled
import CodeAtlas.Proofs.Stubs.Foremost
import CodeAtlas.Proofs.Text.Runs
import CodeAtlas.Proofs.Text.Utf8
import CodeAtlas.Proofs.Text.Words
import CodeAtlas.Proofs.Tools.Calls
import CodeAtlas.Proofs.Tools.Errors
import CodeAtlas.Proofs.Tools.Foreseen
import CodeAtlas.Proofs.Tools.Results
import CodeAtlas.Proofs.Tools.Revalidate
import CodeAtlas.Proofs.Tools.Status
import CodeAtlas.Proofs.WellFormed
import CodeAtlas.Quality.NamingStyle
import CodeAtlas.Quality.Review
import CodeAtlas.Quality.Similarity
import CodeAtlas.Relations.Calls
import CodeAtlas.Relations.Extraction
import CodeAtlas.Relations.Heritage
import CodeAtlas.Relations.Inference
import CodeAtlas.Review.Analysis
import CodeAtlas.Review.Comparison
import CodeAtlas.Review.Validation
import CodeAtlas.Scope
import CodeAtlas.Settings.Basic
import CodeAtlas.Settings.Dotenv
import CodeAtlas.Settings.Load
import CodeAtlas.Source.Collect
import CodeAtlas.Source.Cursor
import CodeAtlas.Source.Elements
import CodeAtlas.Source.Extension
import CodeAtlas.Source.Grammar.Classes
import CodeAtlas.Source.Grammar.Expressions
import CodeAtlas.Source.Grammar.Goal
import CodeAtlas.Source.Grammar.Modules
import CodeAtlas.Source.Grammar.Patterns
import CodeAtlas.Source.Grammar.Statements
import CodeAtlas.Source.Grammar.Templates
import CodeAtlas.Source.Grammar.Types
import CodeAtlas.Source.Parse
import CodeAtlas.Source.Tree
import CodeAtlas.Source.Visit
import CodeAtlas.Text.CaseRanges
import CodeAtlas.Text.Classes
import CodeAtlas.Text.Utf8
import CodeAtlas.Text.WordRanges
import CodeAtlas.Text.Words
import CodeAtlas.Tools.Answers
import CodeAtlas.Tools.Schema
import CodeAtlas.Tools.Server
import CodeAtlas.Yaml.Binary
import CodeAtlas.Yaml.Moment
import CodeAtlas.Yaml.Node
import CodeAtlas.Yaml.Scalar
import CodeAtlas.Yaml.Scan
import CodeAtlas.Yaml.Token
import CodeAtlas.Yaml.Value
