import OData.CommandLine.Arguments
import OData.CommandLine.FileTree
import OData.CommandLine.Files
import OData.CommandLine.Run
import OData.Dataset.Basic
import OData.Dataset.Build
import OData.Dataset.Link
import OData.Decimal.Basic
import OData.Decimal.Notation
import OData.Decimal.Shortest
import OData.Definition.Basic
import OData.Definition.Decode
import OData.Definition.Sample
import OData.Definition.Schema
import OData.Definition.Text
import OData.Definition.Validation
import OData.Digest.Blake3
import OData.Digest.Tag
import OData.Envelope
import OData.Event
import OData.Fault
import OData.Field.Projection
import OData.Field.Scalar
import OData.Field.Value
import OData.Indexed
import OData.Journal
import OData.Json.Basic
import OData.Json.Printer
import OData.Main
import OData.Metadata.Document
import OData.Metadata.Xml
import OData.Model.EntityType
import OData.Model.Kind
import OData.Model.Record
import OData.Ordered
import OData.Proofs.CommandLine.Session
import OData.Proofs.CommandLine.Tree
import OData.Proofs.Dataset.Complete
import OData.Proofs.Dataset.Inverse
import OData.Proofs.Dataset.Join
import OData.Proofs.Dataset.Order
import OData.Proofs.Dataset.Seeds
import OData.Proofs.Dataset.Shown
import OData.Proofs.Dataset.Unrelated
import OData.Proofs.Definition.Decoded
import OData.Proofs.Definition.Valid
import OData.Proofs.Definition.WellFormed
import OData.Proofs.Field.Depth
import OData.Proofs.Field.Path
import OData.Proofs.Field.Records
import OData.Proofs.Field.Sent
import OData.Proofs.Field.Spelling
import OData.Proofs.Field.Twice
import OData.Proofs.Lookup
import OData.Proofs.Metadata.Constraint
import OData.Proofs.Metadata.Declared
import OData.Proofs.Metadata.Description
import OData.Proofs.Metadata.Element
import OData.Proofs.Metadata.Names
import OData.Proofs.Metadata.Partner
import OData.Proofs.Metadata.Reader
import OData.Proofs.Metadata.Schema
import OData.Proofs.Metadata.Shape
import OData.Proofs.Query.Clause
import OData.Proofs.Query.Closed
import OData.Proofs.Query.Cut
import OData.Proofs.Query.FirstCut
import OData.Proofs.Query.Joined
import OData.Proofs.Query.Level
import OData.Proofs.Query.Marker
import OData.Proofs.Query.Normal
import OData.Proofs.Query.Numeral
import OData.Proofs.Query.Page
import OData.Proofs.Query.Repeated
import OData.Proofs.Query.RoundTrip
import OData.Proofs.Query.Scanner
import OData.Proofs.Query.Segment
import OData.Proofs.Query.Setting
import OData.Proofs.Query.Spelling
import OData.Proofs.Query.Tree
import OData.Proofs.Registry.Registrations
import OData.Proofs.Request.Agreement
import OData.Proofs.Request.Answer
import OData.Proofs.Request.Asked
import OData.Proofs.Request.Calls
import OData.Proofs.Request.Depth
import OData.Proofs.Request.Expansion
import OData.Proofs.Request.Introspection
import OData.Proofs.Request.Nested
import OData.Proofs.Request.Order
import OData.Proofs.Request.Projection
import OData.Proofs.Request.Selection
import OData.Proofs.Service.Address
import OData.Proofs.Service.ById
import OData.Proofs.Service.Envelope
import OData.Proofs.Service.Outcome
import OData.Proofs.Service.Paging
import OData.Proofs.Service.Unrelated
import OData.Proofs.Text.Letter
import OData.Proofs.Text.Trim
import OData.Proofs.Yaml.Ensures
import OData.Query.Assignment
import OData.Query.Nested
import OData.Query.Options
import OData.Query.Pieces
import OData.Query.Scanner
import OData.Query.Term
import OData.Query.Value
import OData.Registry.Basic
import OData.Request.Answer
import OData.Request.Expansion
import OData.Request.Window
import OData.Service.Basic
import OData.Service.Route
import OData.Text.Blank
import OData.Text.Letter
import OData.Text.Property
import OData.Text.Quoted
import OData.Yaml.Character
import OData.Yaml.Data.Basic
import OData.Yaml.Data.Plain
import OData.Yaml.Decode
import OData.Yaml.Document
import OData.Yaml.Loading
import OData.Yaml.Mismatch
import OData.Yaml.Node
import OData.Yaml.Problem
import OData.Yaml.Tag
import OData.Yaml.Token.Basic
import OData.Yaml.Token.Block
import OData.Yaml.Token.Gap
import OData.Yaml.Token.Layout
import OData.Yaml.Token.Lexeme
import OData.Yaml.Token.Plain
import OData.Yaml.Token.Property
import OData.Yaml.Token.Quoted
