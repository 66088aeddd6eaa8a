import ApiBinding.Client
import ApiBinding.Client.OfDescription
import ApiBinding.Client.Render
import ApiBinding.Declaration
import ApiBinding.Declaration.Collect
import ApiBinding.Description
import ApiBinding.Description.Shape
import ApiBinding.Dialect
import ApiBinding.Entries
import ApiBinding.Failure
import ApiBinding.FileName
import ApiBinding.Generation
import ApiBinding.Identifier
import ApiBinding.Identifier.Forbidden
import ApiBinding.Identifier.Operation
import ApiBinding.Json
import ApiBinding.Method
import ApiBinding.Method.Docstring
import ApiBinding.Method.Naming
import ApiBinding.Method.OfOperation
import ApiBinding.Method.Path
import ApiBinding.Method.Render
import ApiBinding.MethodReference
import ApiBinding.Module
import ApiBinding.Module.Header
import ApiBinding.Module.Support
import ApiBinding.Moment
import ApiBinding.NameTable
import ApiBinding.Number.Binary64
import ApiBinding.Number.Digits
import ApiBinding.Number.Numeral
import ApiBinding.Number.Shortest
import ApiBinding.OpenApi.Media
import ApiBinding.OpenApi.Operations
import ApiBinding.OpenApi.Pointer
import ApiBinding.OpenApi.Reference
import ApiBinding.OpenApi.Schema
import ApiBinding.OpenApi.Version
import ApiBinding.Proofs.Client.Addressing
import ApiBinding.Proofs.Client.Grouping
import ApiBinding.Proofs.Client.NameClash
import ApiBinding.Proofs.Client.Partition
import ApiBinding.Proofs.Client.Refusal
import ApiBinding.Proofs.Client.Streaming
import ApiBinding.Proofs.Code.Body
import ApiBinding.Proofs.Code.Client
import ApiBinding.Proofs.Code.Declared
import ApiBinding.Proofs.Code.Docstring
import ApiBinding.Proofs.Code.Guard
import ApiBinding.Proofs.Code.Hint
import ApiBinding.Proofs.Code.Hygiene
import ApiBinding.Proofs.Code.Import
import ApiBinding.Proofs.Code.Literal
import ApiBinding.Proofs.Code.LongLiteral
import ApiBinding.Proofs.Code.Method
import ApiBinding.Proofs.Code.OneLine
import ApiBinding.Proofs.Code.Reading
import ApiBinding.Proofs.Code.Unbroken
import ApiBinding.Proofs.Declaration.Coverage
import ApiBinding.Proofs.Declaration.Meeting
import ApiBinding.Proofs.Declaration.Mention
import ApiBinding.Proofs.Declaration.Order
import ApiBinding.Proofs.Declaration.Told
import ApiBinding.Proofs.Declaration.Walk
import ApiBinding.Proofs.Dialect
import ApiBinding.Proofs.Entries
import ApiBinding.Proofs.Identifier
import ApiBinding.Proofs.Identifier.Free
import ApiBinding.Proofs.Identifier.Separation
import ApiBinding.Proofs.Method.Address
import ApiBinding.Proofs.Method.Case
import ApiBinding.Proofs.Method.Dispatch
import ApiBinding.Proofs.Method.Guard
import ApiBinding.Proofs.Method.Handler
import ApiBinding.Proofs.Method.Hints
import ApiBinding.Proofs.Method.Making
import ApiBinding.Proofs.Method.NullResult
import ApiBinding.Proofs.Method.Refusal
import ApiBinding.Proofs.Method.Request
import ApiBinding.Proofs.Method.ResponseTable
import ApiBinding.Proofs.Method.Signature
import ApiBinding.Proofs.Method.Streaming
import ApiBinding.Proofs.Method.Writing
import ApiBinding.Proofs.MethodReference
import ApiBinding.Proofs.MethodReference.Set
import ApiBinding.Proofs.Module.Capture
import ApiBinding.Proofs.Module.Enumeration
import ApiBinding.Proofs.Module.FirstMeeting
import ApiBinding.Proofs.Module.Gating
import ApiBinding.Proofs.Module.Layout
import ApiBinding.Proofs.Module.Models
import ApiBinding.Proofs.Module.Names
import ApiBinding.Proofs.Module.Support
import ApiBinding.Proofs.Module.Writing
import ApiBinding.Proofs.NameTable
import ApiBinding.Proofs.Number.Numeral
import ApiBinding.Proofs.OpenApi.Agreement
import ApiBinding.Proofs.OpenApi.Circle
import ApiBinding.Proofs.OpenApi.Comparison
import ApiBinding.Proofs.OpenApi.Conjunction
import ApiBinding.Proofs.OpenApi.Depth
import ApiBinding.Proofs.OpenApi.Dereference
import ApiBinding.Proofs.OpenApi.Derivation
import ApiBinding.Proofs.OpenApi.Endless
import ApiBinding.Proofs.OpenApi.Enough
import ApiBinding.Proofs.OpenApi.Enumeration
import ApiBinding.Proofs.OpenApi.Execution
import ApiBinding.Proofs.OpenApi.Faithful
import ApiBinding.Proofs.OpenApi.Fit
import ApiBinding.Proofs.OpenApi.Keeping
import ApiBinding.Proofs.OpenApi.Known
import ApiBinding.Proofs.OpenApi.Mirror
import ApiBinding.Proofs.OpenApi.Null
import ApiBinding.Proofs.OpenApi.Parameters
import ApiBinding.Proofs.OpenApi.Plan
import ApiBinding.Proofs.OpenApi.Pointer
import ApiBinding.Proofs.OpenApi.Recursion
import ApiBinding.Proofs.OpenApi.Reference
import ApiBinding.Proofs.OpenApi.Replay
import ApiBinding.Proofs.OpenApi.Session
import ApiBinding.Proofs.OpenApi.Spelling
import ApiBinding.Proofs.OpenApi.Title
import ApiBinding.Proofs.OpenApi.Trace
import ApiBinding.Proofs.OpenApi.Unfinished
import ApiBinding.Proofs.Outcome
import ApiBinding.Proofs.Settings.Accepted
import ApiBinding.Proofs.Settings.Check
import ApiBinding.Proofs.Settings.Choice
import ApiBinding.Proofs.Settings.Reading
import ApiBinding.Proofs.Shape
import ApiBinding.Proofs.Source
import ApiBinding.Proofs.Text.Blank
import ApiBinding.Proofs.Text.Lines
import ApiBinding.Proofs.Text.Pieces
import ApiBinding.Proofs.Text.Quoted
import ApiBinding.Proofs.Text.Upper
import ApiBinding.Proofs.TypeHint
import ApiBinding.Proofs.TypeHint.Streaming
import ApiBinding.Proofs.Value
import ApiBinding.Proofs.Value.Equality
import ApiBinding.Settings
import ApiBinding.Settings.Check
import ApiBinding.Settings.Loose
import ApiBinding.Settings.Read
import ApiBinding.Source
import ApiBinding.Text.Alphanumeric
import ApiBinding.Text.Base64
import ApiBinding.Text.Blank
import ApiBinding.Text.Case
import ApiBinding.Text.CaseTable
import ApiBinding.Text.Half
import ApiBinding.Text.Lines
import ApiBinding.Text.Pieces
import ApiBinding.Text.Printable
import ApiBinding.Text.Quoted
import ApiBinding.Text.Ranges
import ApiBinding.TypeHint
import ApiBinding.Url
import ApiBinding.Url.Host
import ApiBinding.Value
import ApiBinding.Value.Use
import ApiBinding.Yaml
import ApiBinding.Yaml.Cursor
import ApiBinding.Yaml.Members
import ApiBinding.Yaml.Merge
import ApiBinding.Yaml.Moment
import ApiBinding.Yaml.Node
import ApiBinding.Yaml.Number
import ApiBinding.Yaml.Object
import ApiBinding.Yaml.Problem
import ApiBinding.Yaml.Scalar
import ApiBinding.Yaml.Tag
import ApiBinding.Yaml.Token
import ApiBinding.Yaml.Written
