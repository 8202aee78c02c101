import IdlBind.Backend
import IdlBind.Backend.Catalogue
import IdlBind.Backend.Duktape
import IdlBind.Backend.Jsapi
import IdlBind.Binding.Parser
import IdlBind.Binding.Statement
import IdlBind.CName
import IdlBind.Command.Request
import IdlBind.Command.Run
import IdlBind.Command.Settings
import IdlBind.Config
import IdlBind.Descriptor
import IdlBind.Emission
import IdlBind.FilePath
import IdlBind.Files.Error
import IdlBind.Files.Store
import IdlBind.Files.Tree
import IdlBind.Generation
import IdlBind.Json
import IdlBind.Language
import IdlBind.Main
import IdlBind.Members
import IdlBind.Members.Ancestry
import IdlBind.Node
import IdlBind.Node.Chain
import IdlBind.Node.Json
import IdlBind.Node.Outline
import IdlBind.Node.Query
import IdlBind.Node.Record
import IdlBind.Number.Binary64
import IdlBind.Number.Integer
import IdlBind.Number.Shortest
import IdlBind.ParseError
import IdlBind.Parser
import IdlBind.Position
import IdlBind.Project
import IdlBind.Proofs.Backend.Agreement
import IdlBind.Proofs.Backend.Duktape
import IdlBind.Proofs.Backend.FieldLayout
import IdlBind.Proofs.Backend.FileScope
import IdlBind.Proofs.Backend.Jsapi
import IdlBind.Proofs.Backend.Lines
import IdlBind.Proofs.Backend.Linkage
import IdlBind.Proofs.Backend.PrivateFields
import IdlBind.Proofs.Backend.StubNames
import IdlBind.Proofs.Binding.Grammar
import IdlBind.Proofs.Binding.Privates
import IdlBind.Proofs.Binding.Shape
import IdlBind.Proofs.Binding.Trace
import IdlBind.Proofs.Binding.Truncation
import IdlBind.Proofs.CName.Escape
import IdlBind.Proofs.Files.BareNames
import IdlBind.Proofs.Files.Writing
import IdlBind.Proofs.Generation.Capacity
import IdlBind.Proofs.Generation.Confinement
import IdlBind.Proofs.Generation.Failures
import IdlBind.Proofs.Generation.Order
import IdlBind.Proofs.Generation.Sections
import IdlBind.Proofs.Generation.Unrelated
import IdlBind.Proofs.Generation.Whole
import IdlBind.Proofs.Language
import IdlBind.Proofs.Members.Names
import IdlBind.Proofs.Members.Path
import IdlBind.Proofs.Members.Ranges
import IdlBind.Proofs.Members.Resolution
import IdlBind.Proofs.Members.Rounds
import IdlBind.Proofs.Members.SpecialOperations
import IdlBind.Proofs.Node.Building
import IdlBind.Proofs.Node.Chain
import IdlBind.Proofs.Node.Outline
import IdlBind.Proofs.Node.Searching
import IdlBind.Proofs.Number.Digits
import IdlBind.Proofs.Parsing.Basic
import IdlBind.Proofs.Parsing.Brackets
import IdlBind.Proofs.Parsing.Grammar
import IdlBind.Proofs.Parsing.Local
import IdlBind.Proofs.Parsing.OrderlyTrace
import IdlBind.Proofs.Parsing.Printed
import IdlBind.Proofs.Parsing.Results
import IdlBind.Proofs.Parsing.Steps
import IdlBind.Proofs.Parsing.Trace
import IdlBind.Proofs.Parsing.Truncation
import IdlBind.Proofs.Progress
import IdlBind.Proofs.Project.Output
import IdlBind.Proofs.Project.OwnDirectory
import IdlBind.Proofs.Project.Reading
import IdlBind.Proofs.Project.SearchOrder
import IdlBind.Proofs.Text.Quoted
import IdlBind.Proofs.Token.Identifiers
import IdlBind.Proofs.Token.Integers
import IdlBind.Proofs.Token.Lexemes
import IdlBind.Proofs.Token.Positions
import IdlBind.Proofs.Token.Printed
import IdlBind.Proofs.Token.Progress
import IdlBind.Proofs.Token.Relocation
import IdlBind.Proofs.Token.Seam
import IdlBind.Proofs.Token.Separators
import IdlBind.Proofs.Token.Spelling
import IdlBind.Proofs.WebIdl.Heads
import IdlBind.Proofs.WebIdl.Local
import IdlBind.Proofs.WebIdl.Merging
import IdlBind.Proofs.WebIdl.Names
import IdlBind.Proofs.WebIdl.Parts
import IdlBind.Proofs.WebIdl.Places
import IdlBind.Proofs.WebIdl.PrintedMembers
import IdlBind.Proofs.WebIdl.PrintedTypes
import IdlBind.Proofs.WebIdl.Printer
import IdlBind.Proofs.WebIdl.Reading
import IdlBind.Proofs.WebIdl.ReadingOrder
import IdlBind.Proofs.WebIdl.Replacing
import IdlBind.Proofs.WebIdl.RoundTrip
import IdlBind.Proofs.WebIdl.Shape
import IdlBind.Proofs.WebIdl.Skipping
import IdlBind.Proofs.WebIdl.Sources
import IdlBind.Proofs.WebIdl.Splitting
import IdlBind.Proofs.WebIdl.Statements
import IdlBind.Proofs.WebIdl.Trace
import IdlBind.Proofs.WebIdl.Transparency
import IdlBind.Proofs.WebIdl.TreeShape
import IdlBind.Proofs.WebIdl.Truncation
import IdlBind.Proofs.WebIdl.WellFormedTree
import IdlBind.Proofs.WebIdl.WrittenOperations
import IdlBind.Sink
import IdlBind.Text.Blank
import IdlBind.Text.Extending
import IdlBind.Text.Lossy
import IdlBind.Text.Printable
import IdlBind.Text.Quoted
import IdlBind.Text.Ranges
import IdlBind.Token
import IdlBind.Token.Lexer
import IdlBind.Token.Parser
import IdlBind.Token.Stream
import IdlBind.Toml
import IdlBind.Toml.Parser
import IdlBind.Toml.Printer
import IdlBind.Toml.Scalar
import IdlBind.WebIdl.Codes
import IdlBind.WebIdl.Definition
import IdlBind.WebIdl.Document
import IdlBind.WebIdl.Loading
import IdlBind.WebIdl.Parser
import IdlBind.WebIdl.Search
