import NilFlow.Analyzer.Basic
import NilFlow.Analyzer.Choice
import NilFlow.Analyzer.Flag
import NilFlow.Analyzer.Plugin
import NilFlow.BinarySearch
import NilFlow.Closure
import NilFlow.CommandLine.Arguments
import NilFlow.CommandLine.Basic
import NilFlow.CommandLine.Option
import NilFlow.CommandLine.Workspace
import NilFlow.Failure
import NilFlow.Flow.Basic
import NilFlow.Flow.Context
import NilFlow.Flow.Dependents
import NilFlow.Flow.Propagation
import NilFlow.Flow.Seeding
import NilFlow.Flow.Value
import NilFlow.Forest.Arena
import NilFlow.Forest.Basic
import NilFlow.Forest.Elements
import NilFlow.Forest.UnionFind
import NilFlow.Group
import NilFlow.Harvest
import NilFlow.Main
import NilFlow.NoLint
import NilFlow.Program.Basic
import NilFlow.Program.Index
import NilFlow.Program.LineDirective
import NilFlow.Program.Loading
import NilFlow.Program.Overriding
import NilFlow.Program.Root
import NilFlow.Program.SourceFile
import NilFlow.Report.Basic
import NilFlow.Report.Description
import NilFlow.Report.Diagnostics
import NilFlow.Report.Json
import NilFlow.Report.PlainText
import NilFlow.Report.Sarif
import NilFlow.Settings.Basic
import NilFlow.Settings.File
import NilFlow.Settings.FlagSet
import NilFlow.Settings.Reading
import NilFlow.Settings.Writing
import NilFlow.Severity
import NilFlow.Sorting
import NilFlow.Span
import NilFlow.Status
import NilFlow.Text.Base64
import NilFlow.Text.CharClass
import NilFlow.Text.Csv
import NilFlow.Text.DocLink
import NilFlow.Text.EditDistance
import NilFlow.Text.Enumeration
import NilFlow.Text.JsonValue
import NilFlow.Text.LogLine
import NilFlow.Text.Lowercase
import NilFlow.Text.Path
import NilFlow.Text.Quoted
import NilFlow.Text.Sha1
import NilFlow.Text.Template
import NilFlow.Text.Truth
import NilFlow.Text.Utf8
import NilFlow.Text.Uuid
import NilFlow.Tree.Cursor
import NilFlow.Tree.Kind
import NilFlow.Tree.Node
import NilFlow.Typing
import NilFlow.Variable
import NilFlow.WorkList
import NilFlow.WorkList.Budget
import NilFlow.Yaml.Mapping
import NilFlow.Yaml.Meaning
import NilFlow.Yaml.Node
import NilFlow.Yaml.Scalar
import NilFlow.Yaml.Scanner
import NilFlow.Yaml.Source
import NilFlow.Yaml.Token
import NilFlow.Proofs.Closure
import NilFlow.Proofs.Tree.Cursor
import NilFlow.Proofs.Program.Index
import NilFlow.Proofs.Forest.Insertion
import NilFlow.Proofs.UnionFind
import NilFlow.Proofs.Forest.Trimming
import NilFlow.Proofs.Forest.WellFormed
import NilFlow.Proofs.Forest.Removal
import NilFlow.Proofs.Forest.Components
import NilFlow.Proofs.Forest.CoDiscovery
import NilFlow.Proofs.Forest.Connection
import NilFlow.Proofs.Forest.Condemnation
import NilFlow.Proofs.Harvest.Rounds
import NilFlow.Proofs.Forest.Provenance
import NilFlow.Proofs.Harvest.Trace
import NilFlow.Proofs.Harvest.Partition
import NilFlow.Proofs.Harvest.Certificate
import NilFlow.Proofs.Harvest.Occurrences
import NilFlow.Proofs.Flow.Seeding
import NilFlow.Proofs.Harvest.Order
import NilFlow.Proofs.Flow.Spans
import NilFlow.Proofs.Harvest.Writable
import NilFlow.Proofs.Flow.Fatality
import NilFlow.Proofs.Flow.Walk
import NilFlow.Proofs.Flow.Starts
import NilFlow.Proofs.Harvest.Endings
import NilFlow.Proofs.Harvest.Halting
import NilFlow.Proofs.Program.Typed
import NilFlow.Proofs.Harvest.Verdict
import NilFlow.Proofs.Flow.Climbing
import NilFlow.Proofs.Flow.Stores
import NilFlow.Proofs.Flow.Arrivals
import NilFlow.Proofs.Flow.Boxing
import NilFlow.Proofs.Flow.Symmetry
import NilFlow.Proofs.Program.Overriding
import NilFlow.Proofs.Flow.Policies
import NilFlow.Proofs.Flow.Arguments
import NilFlow.Proofs.Flow.Descent
import NilFlow.Proofs.Flow.Conversions
import NilFlow.Proofs.Group
import NilFlow.Proofs.Forest.Implicit
import NilFlow.Proofs.WorkList.Queue
import NilFlow.Proofs.Harvest.Siblings
import NilFlow.Proofs.NoLint
import NilFlow.Proofs.Program.Suppression
import NilFlow.Proofs.Settings.File
import NilFlow.Proofs.Harvest.Identity
import NilFlow.Proofs.Report.Convertible
import NilFlow.Proofs.Settings.Order
import NilFlow.Proofs.Analyzer.Plugin
import NilFlow.Proofs.Program.Loading
import NilFlow.Proofs.Forest.Layout
import NilFlow.Proofs.Forest.Traversal
import NilFlow.Proofs.Forest.Carrying
import NilFlow.Proofs.Forest.Representation
import NilFlow.Proofs.UnionFind.Calls
