import ContentApi.Calendar.Date
import ContentApi.Calendar.Reader
import ContentApi.Calendar.Timestamp
import ContentApi.Command.Basic
import ContentApi.Command.Form
import ContentApi.Command.Job
import ContentApi.Command.Line
import ContentApi.Command.Program
import ContentApi.Config.DotEnv
import ContentApi.Config.Layers
import ContentApi.Config.Number
import ContentApi.Config.Setting
import ContentApi.Config.Toml.Document
import ContentApi.Config.Toml.Moment
import ContentApi.Config.Toml.Text
import ContentApi.Config.Toml.Value
import ContentApi.Decimal.Binary64
import ContentApi.Decimal.Layout
import ContentApi.Decimal.Shortest
import ContentApi.Failure
import ContentApi.Http.Call
import ContentApi.Http.Credentials
import ContentApi.Http.Message
import ContentApi.Http.Script
import ContentApi.Json.Basic
import ContentApi.Json.Document
import ContentApi.Json.Overlay
import ContentApi.Json.Printer
import ContentApi.Json.Scan
import ContentApi.Listing.Basic
import ContentApi.Listing.Catalogue
import ContentApi.Listing.Walk
import ContentApi.Main
import ContentApi.Metadata.Basic
import ContentApi.Metadata.Template
import ContentApi.Operation.Content
import ContentApi.Operation.Files
import ContentApi.Operation.Folders
import ContentApi.Operation.Holds
import ContentApi.Operation.Metadata
import ContentApi.Operation.Objects
import ContentApi.Operation.Retention
import ContentApi.Operation.Tasks
import ContentApi.Proofs.Calendar.Days
import ContentApi.Proofs.Calendar.Digits
import ContentApi.Proofs.Calendar.Offsets
import ContentApi.Proofs.Calendar.Timestamps
import ContentApi.Proofs.Command.Bounds
import ContentApi.Proofs.Command.Printing
import ContentApi.Proofs.Command.Questions
import ContentApi.Proofs.Command.Words
import ContentApi.Proofs.Config.Guesses
import ContentApi.Proofs.Config.Layering
import ContentApi.Proofs.Config.Numerals
import ContentApi.Proofs.Config.Tables
import ContentApi.Proofs.Config.Variables
import ContentApi.Proofs.Http.Trace
import ContentApi.Proofs.Json.Arranged
import ContentApi.Proofs.Json.Composition
import ContentApi.Proofs.Json.Members
import ContentApi.Proofs.Json.Nulls
import ContentApi.Proofs.Json.Ordered
import ContentApi.Proofs.Json.Overlay
import ContentApi.Proofs.Json.Patch
import ContentApi.Proofs.Json.Reordered
import ContentApi.Proofs.Json.Tidy
import ContentApi.Proofs.Listing.Bounds
import ContentApi.Proofs.Listing.Exchanges
import ContentApi.Proofs.Listing.Filters
import ContentApi.Proofs.Listing.Markers
import ContentApi.Proofs.Listing.Offsets
import ContentApi.Proofs.Listing.Pages
import ContentApi.Proofs.Listing.Pulls
import ContentApi.Proofs.Listing.Walks
import ContentApi.Proofs.Metadata.Paths
import ContentApi.Proofs.Metadata.Replay
import ContentApi.Proofs.Operation.Authorization
import ContentApi.Proofs.Operation.Changes
import ContentApi.Proofs.Operation.Faults
import ContentApi.Proofs.Operation.Inquiries
import ContentApi.Proofs.Operation.Refusals
import ContentApi.Proofs.Operation.Tokens
import ContentApi.Proofs.Results
import ContentApi.Proofs.Schema.Agreement
import ContentApi.Proofs.Schema.Frame
import ContentApi.Proofs.Schema.Grants
import ContentApi.Proofs.Schema.Items
import ContentApi.Proofs.Schema.NormalForm
import ContentApi.Proofs.Schema.Nulls
import ContentApi.Proofs.Schema.Places
import ContentApi.Proofs.Schema.Pruned
import ContentApi.Proofs.Schema.Reading
import ContentApi.Proofs.Schema.Reports
import ContentApi.Proofs.Schema.Rows
import ContentApi.Proofs.Schema.Tidy
import ContentApi.Proofs.Schema.Writing
import ContentApi.Proofs.Service.Bases
import ContentApi.Proofs.Service.Connections
import ContentApi.Proofs.Service.Routes
import ContentApi.Proofs.Snapshot.Drafts
import ContentApi.Proofs.Snapshot.Nulls
import ContentApi.Proofs.Snapshot.Pending
import ContentApi.Proofs.Snapshot.Permissions
import ContentApi.Proofs.Snapshot.Retention
import ContentApi.Proofs.Snapshot.Rows
import ContentApi.Proofs.Snapshot.Silent
import ContentApi.Proofs.Snapshot.Update
import ContentApi.Proofs.Text.Utf8
import ContentApi.Proofs.Url.Closed
import ContentApi.Proofs.Url.Endings
import ContentApi.Proofs.Url.Endpoint
import ContentApi.Proofs.Url.Form
import ContentApi.Proofs.Url.Hosts
import ContentApi.Proofs.Url.Percent
import ContentApi.Proofs.Url.Queries
import ContentApi.Proofs.Url.Segments
import ContentApi.Proofs.Url.Templates
import ContentApi.Schema.Datum
import ContentApi.Schema.Grants
import ContentApi.Schema.Leaf
import ContentApi.Schema.Reader
import ContentApi.Schema.Shape
import ContentApi.Schema.View
import ContentApi.Schema.Vocabulary
import ContentApi.Schema.Writer
import ContentApi.Service.Connection
import ContentApi.Service.Handle
import ContentApi.Service.Route
import ContentApi.Snapshot.Basic
import ContentApi.Snapshot.Edit
import ContentApi.Snapshot.Resource
import ContentApi.Snapshot.View
import ContentApi.Text.Base64
import ContentApi.Text.Blank
import ContentApi.Text.Hex
import ContentApi.Text.Printable
import ContentApi.Text.Quoted
import ContentApi.Text.Utf8
import ContentApi.Url.Basic
import ContentApi.Url.Endpoint
import ContentApi.Url.Form
import ContentApi.Url.Host
import ContentApi.Url.Percent
import ContentApi.Url.Query
import ContentApi.Url.Resolve
