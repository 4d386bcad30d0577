import ConfigFill.Command.Arguments
import ConfigFill.Command.Execution
import ConfigFill.Decimal.Binary64
import ConfigFill.Decimal.Layout
import ConfigFill.Decimal.Shortest
import ConfigFill.Document.Directory
import ConfigFill.Document.Files
import ConfigFill.Document.Loading
import ConfigFill.Environment
import ConfigFill.Failure
import ConfigFill.Json.Fault
import ConfigFill.Json.Number
import ConfigFill.Json.Printer
import ConfigFill.Json.Reader
import ConfigFill.Main
import ConfigFill.Parameter.Assembly
import ConfigFill.Parameter.Path
import ConfigFill.Parameter.Store
import ConfigFill.Parameter.Table
import ConfigFill.Placeholder.Basic
import ConfigFill.Placeholder.Variable
import ConfigFill.Proofs.Command.Checking
import ConfigFill.Proofs.Command.Filling
import ConfigFill.Proofs.Document.Loading
import ConfigFill.Proofs.Filling.Course
import ConfigFill.Proofs.Filling.Keys
import ConfigFill.Proofs.Filling.Leaves
import ConfigFill.Proofs.Filling.Places
import ConfigFill.Proofs.Filling.Reference
import ConfigFill.Proofs.Json.Number
import ConfigFill.Proofs.Json.Reader
import ConfigFill.Proofs.Json.RoundTrip
import ConfigFill.Proofs.Json.Scalar
import ConfigFill.Proofs.Json.Spelling
import ConfigFill.Proofs.Parameter.Assembly
import ConfigFill.Proofs.Parameter.Hierarchy
import ConfigFill.Proofs.Parameter.History
import ConfigFill.Proofs.Parameter.InPlace
import ConfigFill.Proofs.Parameter.Names
import ConfigFill.Proofs.Parameter.Path
import ConfigFill.Proofs.Parameter.Table
import ConfigFill.Proofs.Placeholder.Expansion
import ConfigFill.Proofs.Placeholder.Grammar
import ConfigFill.Proofs.Placeholder.Variable
import ConfigFill.Proofs.Resolution.Children
import ConfigFill.Proofs.Resolution.Log
import ConfigFill.Proofs.Resolution.Lookup
import ConfigFill.Proofs.Resolution.Order
import ConfigFill.Proofs.Resolution.Related
import ConfigFill.Proofs.Resolution.Relevance
import ConfigFill.Proofs.Resolution.Replacement
import ConfigFill.Proofs.Resolution.Resolver
import ConfigFill.Proofs.Resolution.Subtree
import ConfigFill.Proofs.Resolution.Table
import ConfigFill.Proofs.Service.Agreement
import ConfigFill.Proofs.Service.Fetch
import ConfigFill.Proofs.Service.Pages
import ConfigFill.Proofs.Service.Settings
import ConfigFill.Proofs.Trace.Effect
import ConfigFill.Proofs.Trace.Local
import ConfigFill.Proofs.Trace.Log
import ConfigFill.Proofs.Trace.Related
import ConfigFill.Proofs.Tree.Grammar
import ConfigFill.Proofs.Tree.Leafy
import ConfigFill.Proofs.Tree.Merge
import ConfigFill.Proofs.Tree.Order
import ConfigFill.Proofs.Tree.Path
import ConfigFill.Proofs.Tree.Repetition
import ConfigFill.Proofs.Tree.Select
import ConfigFill.Proofs.Tree.Shape
import ConfigFill.Proofs.Yaml.Document
import ConfigFill.Proofs.Yaml.Literal
import ConfigFill.Proofs.Yaml.Plain
import ConfigFill.Proofs.Yaml.Quoted
import ConfigFill.Proofs.Yaml.Reader
import ConfigFill.Proofs.Yaml.Scalar
import ConfigFill.Resolution.Decoding
import ConfigFill.Resolution.Filling
import ConfigFill.Resolution.Lookup
import ConfigFill.Resolution.Replacement
import ConfigFill.Resolution.Resolver
import ConfigFill.Service.Settings
import ConfigFill.Service.Store
import ConfigFill.Service.Tables
import ConfigFill.Text.Digits
import ConfigFill.Text.Printable
import ConfigFill.Text.Quoted
import ConfigFill.Text.Segments
import ConfigFill.Text.Terminal
import ConfigFill.Trace.Record
import ConfigFill.Trace.Run
import ConfigFill.Tree.Basic
import ConfigFill.Tree.Entries
import ConfigFill.Tree.Merge
import ConfigFill.Tree.Path
import ConfigFill.Tree.Text
import ConfigFill.Yaml.Cursor
import ConfigFill.Yaml.Event
import ConfigFill.Yaml.Mark
import ConfigFill.Yaml.Node
import ConfigFill.Yaml.Printer
import ConfigFill.Yaml.Reader
import ConfigFill.Yaml.Scalar
import ConfigFill.Yaml.Style
import ConfigFill.Yaml.Token.Basic
import ConfigFill.Yaml.Token.Block
import ConfigFill.Yaml.Token.Directive
import ConfigFill.Yaml.Token.Plain
import ConfigFill.Yaml.Token.Property
import ConfigFill.Yaml.Token.Quoted
import ConfigFill.Yaml.Token.Stream
