import ServiceStubs.Collection.KeyedSet
import ServiceStubs.Collection.OrderedMap
import ServiceStubs.Command.Bundle
import ServiceStubs.Command.Failure
import ServiceStubs.Command.Generate
import ServiceStubs.Command.Request
import ServiceStubs.Command.Run
import ServiceStubs.Command.Show
import ServiceStubs.Decimal.Binary64
import ServiceStubs.Decimal.Shortest
import ServiceStubs.Declaration.Argument
import ServiceStubs.Declaration.Class
import ServiceStubs.Declaration.Entity
import ServiceStubs.Declaration.Function
import ServiceStubs.Documentation.Basic
import ServiceStubs.Documentation.Directive
import ServiceStubs.Documentation.Hint
import ServiceStubs.Documentation.Method
import ServiceStubs.Error
import ServiceStubs.Files.Discovery
import ServiceStubs.Files.Disk
import ServiceStubs.Files.Path
import ServiceStubs.Files.Tree
import ServiceStubs.Import.Basic
import ServiceStubs.Import.Group
import ServiceStubs.Json.Basic
import ServiceStubs.Json.Printer
import ServiceStubs.Json.Reader
import ServiceStubs.Json.Record
import ServiceStubs.Json.Value
import ServiceStubs.Package.Basic
import ServiceStubs.Package.Client
import ServiceStubs.Package.Collection
import ServiceStubs.Package.EntityDocs
import ServiceStubs.Package.Factory
import ServiceStubs.Package.Resource
import ServiceStubs.Schema.Basic
import ServiceStubs.Schema.Correction
import ServiceStubs.Schema.Loading
import ServiceStubs.Schema.Lookup
import ServiceStubs.Schema.Reading
import ServiceStubs.Schema.Writing
import ServiceStubs.ServiceName
import ServiceStubs.Session.Basic
import ServiceStubs.Session.FixedDict
import ServiceStubs.Session.Methods
import ServiceStubs.Session.ShapeType
import ServiceStubs.Settings.Basic
import ServiceStubs.Settings.Reading
import ServiceStubs.Stub.Docstring
import ServiceStubs.Stub.Layout
import ServiceStubs.Stub.Module
import ServiceStubs.Stub.Package
import ServiceStubs.Text.Alphanumeric
import ServiceStubs.Text.Blank
import ServiceStubs.Text.CharClass
import ServiceStubs.Text.Hex
import ServiceStubs.Text.LetterCase
import ServiceStubs.Text.Lines
import ServiceStubs.Text.Markup
import ServiceStubs.Text.Quoted
import ServiceStubs.Text.Replace
import ServiceStubs.Text.SnakeCase
import ServiceStubs.Text.Split
import ServiceStubs.TypeExpr.Basic
import ServiceStubs.TypeExpr.Closure
import ServiceStubs.TypeExpr.Definition
import ServiceStubs.TypeExpr.Store
import ServiceStubs.Yaml.Cursor
import ServiceStubs.Yaml.Document
import ServiceStubs.Yaml.Lexer
import ServiceStubs.Yaml.Node
import ServiceStubs.Yaml.Scalar
import ServiceStubs.Yaml.Token
import ServiceStubs.Main
import ServiceStubs.Proofs.Collection.KeyedSet
import ServiceStubs.Proofs.Collection.OrderedMap
import ServiceStubs.Proofs.Command.Apart
import ServiceStubs.Proofs.Command.Outcomes
import ServiceStubs.Proofs.Command.Packages
import ServiceStubs.Proofs.Command.Search
import ServiceStubs.Proofs.Command.Writing
import ServiceStubs.Proofs.Declaration.Signature
import ServiceStubs.Proofs.Declaration.Skeleton
import ServiceStubs.Proofs.Declaration.Typed
import ServiceStubs.Proofs.Documentation.Completion
import ServiceStubs.Proofs.Documentation.Directive
import ServiceStubs.Proofs.Documentation.Hint
import ServiceStubs.Proofs.Documentation.Known
import ServiceStubs.Proofs.Documentation.Meaning
import ServiceStubs.Proofs.Documentation.Reading
import ServiceStubs.Proofs.Files.Discovery
import ServiceStubs.Proofs.Files.Path
import ServiceStubs.Proofs.Files.Tree
import ServiceStubs.Proofs.Import.Group
import ServiceStubs.Proofs.Import.Sorting
import ServiceStubs.Proofs.Json.Printing
import ServiceStubs.Proofs.Json.Record
import ServiceStubs.Proofs.Json.Tokens
import ServiceStubs.Proofs.Json.Value
import ServiceStubs.Proofs.Package.Agree
import ServiceStubs.Proofs.Package.Attributes
import ServiceStubs.Proofs.Package.Blobs
import ServiceStubs.Proofs.Package.Calls
import ServiceStubs.Proofs.Package.Clash
import ServiceStubs.Proofs.Package.ClassNames
import ServiceStubs.Proofs.Package.Contents
import ServiceStubs.Proofs.Package.Derived
import ServiceStubs.Proofs.Package.Dictionaries
import ServiceStubs.Proofs.Package.Documented
import ServiceStubs.Proofs.Package.Entities
import ServiceStubs.Proofs.Package.EntityDocs
import ServiceStubs.Proofs.Package.HandedOut
import ServiceStubs.Proofs.Package.Inputs
import ServiceStubs.Proofs.Package.Interning
import ServiceStubs.Proofs.Package.Members
import ServiceStubs.Proofs.Package.Metadata
import ServiceStubs.Proofs.Package.Parameters
import ServiceStubs.Proofs.Package.Plan
import ServiceStubs.Proofs.Package.Reachable
import ServiceStubs.Proofs.Package.Rejection
import ServiceStubs.Proofs.Package.Rendering
import ServiceStubs.Proofs.Package.Signatures
import ServiceStubs.Proofs.Package.Unlisted
import ServiceStubs.Proofs.Schema.Correction
import ServiceStubs.Proofs.Schema.Exact
import ServiceStubs.Proofs.Schema.Lookup
import ServiceStubs.Proofs.Schema.Parts
import ServiceStubs.Proofs.Schema.References
import ServiceStubs.Proofs.Schema.RoundTrip
import ServiceStubs.Proofs.Schema.Unlisted
import ServiceStubs.Proofs.Schema.Validation
import ServiceStubs.Proofs.Schema.Writing
import ServiceStubs.Proofs.Session.Agree
import ServiceStubs.Proofs.Session.Blob
import ServiceStubs.Proofs.Session.Derived
import ServiceStubs.Proofs.Session.Distinct
import ServiceStubs.Proofs.Session.Execution
import ServiceStubs.Proofs.Session.Failure
import ServiceStubs.Proofs.Session.Form
import ServiceStubs.Proofs.Session.Frame
import ServiceStubs.Proofs.Session.Gives
import ServiceStubs.Proofs.Session.Invariant
import ServiceStubs.Proofs.Session.Known
import ServiceStubs.Proofs.Session.Methods
import ServiceStubs.Proofs.Session.Names
import ServiceStubs.Proofs.Session.Plan
import ServiceStubs.Proofs.Session.Position
import ServiceStubs.Proofs.Session.Reachable
import ServiceStubs.Proofs.Session.Request
import ServiceStubs.Proofs.Session.Resolution
import ServiceStubs.Proofs.Session.Sameness
import ServiceStubs.Proofs.Session.Signatures
import ServiceStubs.Proofs.Session.Table
import ServiceStubs.Proofs.Session.Translation
import ServiceStubs.Proofs.Session.Yields
import ServiceStubs.Proofs.Stub.Binding
import ServiceStubs.Proofs.Stub.Docstring
import ServiceStubs.Proofs.Stub.Linking
import ServiceStubs.Proofs.Stub.MarkedModule
import ServiceStubs.Proofs.Stub.MarkedText
import ServiceStubs.Proofs.Stub.Marking
import ServiceStubs.Proofs.Stub.Modules
import ServiceStubs.Proofs.Stub.Names
import ServiceStubs.Proofs.Text.Lines
import ServiceStubs.Proofs.Text.Markup
import ServiceStubs.Proofs.Text.Replace
import ServiceStubs.Proofs.Text.Split
import ServiceStubs.Proofs.Text.StringLiteral
import ServiceStubs.Proofs.TypeExpr.Closure
import ServiceStubs.Proofs.TypeExpr.Copy
import ServiceStubs.Proofs.TypeExpr.Definition
import ServiceStubs.Proofs.TypeExpr.Legible
import ServiceStubs.Proofs.TypeExpr.Mutation
import ServiceStubs.Proofs.TypeExpr.Nodes
import ServiceStubs.Proofs.TypeExpr.Search
import ServiceStubs.Proofs.TypeExpr.Store
