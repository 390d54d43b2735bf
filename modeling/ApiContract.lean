import ApiContract.Calendar
import ApiContract.Command
import ApiContract.Command.Arguments
import ApiContract.Complaint
import ApiContract.Console.Markup
import ApiContract.Console.Reporter
import ApiContract.Contract
import ApiContract.Decimal.Double
import ApiContract.Decimal.Shortest
import ApiContract.Decoding
import ApiContract.Description
import ApiContract.Description.Fault
import ApiContract.Description.Reader
import ApiContract.Description.Version
import ApiContract.Environment
import ApiContract.Failure
import ApiContract.Field
import ApiContract.Field.Checked
import ApiContract.FilePath
import ApiContract.Files
import ApiContract.Files.Draft
import ApiContract.Generation
import ApiContract.Graph
import ApiContract.Graph.Order
import ApiContract.Identifier
import ApiContract.Json.Fault
import ApiContract.Json.Literal
import ApiContract.Json.Reader
import ApiContract.Main
import ApiContract.Message
import ApiContract.Method
import ApiContract.Module.Basic
import ApiContract.Module.Client
import ApiContract.Module.Endpoints
import ApiContract.Module.Schemas
import ApiContract.Operation
import ApiContract.Operation.Content
import ApiContract.Operation.Parameters
import ApiContract.Operation.Reader
import ApiContract.Operation.Record
import ApiContract.Output
import ApiContract.Path
import ApiContract.Pointer
import ApiContract.Run
import ApiContract.Schema
import ApiContract.Schema.Reader
import ApiContract.Settings
import ApiContract.Source
import ApiContract.Text.Base64
import ApiContract.Text.Blank
import ApiContract.Text.Case
import ApiContract.Text.Case.Table
import ApiContract.Text.Digit
import ApiContract.Text.Numeral
import ApiContract.Text.Pieces
import ApiContract.Text.Printable
import ApiContract.Text.Sorted
import ApiContract.Trace
import ApiContract.Value
import ApiContract.Value.Text
import ApiContract.World
import ApiContract.Yaml.Cursor
import ApiContract.Yaml.Kind
import ApiContract.Yaml.Lexer
import ApiContract.Yaml.Node
import ApiContract.Yaml.Number
import ApiContract.Yaml.Reader
import ApiContract.Yaml.Scalar.Block
import ApiContract.Yaml.Scalar.Plain
import ApiContract.Yaml.Scalar.Quoted
import ApiContract.Yaml.Tag
import ApiContract.Yaml.Time
import ApiContract.Yaml.Token
import ApiContract.Proofs.Graph.Basic
import ApiContract.Proofs.Graph.Placing
import ApiContract.Proofs.Graph.Order
import ApiContract.Proofs.Graph.Cycle
import ApiContract.Proofs.Identifier
import ApiContract.Proofs.Identifier.Legal
import ApiContract.Proofs.Identifier.Argument
import ApiContract.Proofs.Contract.Reading
import ApiContract.Proofs.Contract.Written
import ApiContract.Proofs.Path.Name
import ApiContract.Proofs.Path.Template
import ApiContract.Proofs.Path.Base
import ApiContract.Proofs.Generation.Basic
import ApiContract.Proofs.Generation.Precedence
import ApiContract.Proofs.Description
import ApiContract.Proofs.Operation.Basic
import ApiContract.Proofs.Operation.Naming
import ApiContract.Proofs.Operation.Legal
import ApiContract.Proofs.Operation.Content
import ApiContract.Proofs.Operation.Reader
import ApiContract.Proofs.Module.Arguments
import ApiContract.Proofs.Generation.Aliases
import ApiContract.Proofs.Generation.Interpolation
import ApiContract.Proofs.Generation.Address
import ApiContract.Proofs.Pointer
import ApiContract.Proofs.Decimal.Numeral
import ApiContract.Proofs.Json.Literal
import ApiContract.Proofs.Contract.Shape
import ApiContract.Proofs.Contract.Token
import ApiContract.Proofs.Contract.Grammar
import ApiContract.Proofs.Contract.Validator
import ApiContract.Proofs.Contract.Type
import ApiContract.Proofs.Schema
import ApiContract.Proofs.Contract.Agreement
import ApiContract.Proofs.Schema.Step
import ApiContract.Proofs.Schema.Acceptance
import ApiContract.Proofs.Json.Value
import ApiContract.Proofs.Schema.Json
import ApiContract.Proofs.Schema.References
import ApiContract.Proofs.Generation.Strictness
import ApiContract.Proofs.Files.Place
import ApiContract.Proofs.Files.Making
import ApiContract.Proofs.Files.Draft
import ApiContract.Proofs.Files.Repeat
import ApiContract.Proofs.Output
import ApiContract.Proofs.Run
import ApiContract.Proofs.Run.Repeat
import ApiContract.Proofs.Command
import ApiContract.Proofs.Console
import ApiContract.Proofs.Command.Colour
import ApiContract.Proofs.Source
import ApiContract.Proofs.Identifier.Collision
import ApiContract.Proofs.Generation.Hygiene
import ApiContract.Proofs.Path.Longest
import ApiContract.Proofs.Script
import ApiContract.Proofs.Path.Literal
import ApiContract.Proofs.Module.Comment
import ApiContract.Proofs.Operation.Parameters
import ApiContract.Proofs.Pointer.Chain
import ApiContract.Proofs.Operation.Choice
import ApiContract.Proofs.Text.Integer
import ApiContract.Proofs.Identifier.Repair
import ApiContract.Proofs.Pointer.Location
import ApiContract.Proofs.Schema.Nullability
import ApiContract.Proofs.Field
import ApiContract.Proofs.Settings
