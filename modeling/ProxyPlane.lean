import ProxyPlane.Address
import ProxyPlane.Admin
import ProxyPlane.Command.Arguments
import ProxyPlane.Command.Basic
import ProxyPlane.Command.Help
import ProxyPlane.Command.Run
import ProxyPlane.Compile
import ProxyPlane.Decimal.Binary64
import ProxyPlane.Decimal.Shortest
import ProxyPlane.Dict
import ProxyPlane.Digest.Sha256
import ProxyPlane.Document.Basic
import ProxyPlane.Document.Handler
import ProxyPlane.Files.Operation
import ProxyPlane.Files.Tree
import ProxyPlane.Import.Candidate
import ProxyPlane.Import.Extraction
import ProxyPlane.Import.Importer
import ProxyPlane.Json.Codec
import ProxyPlane.Json.Error
import ProxyPlane.Json.Printer
import ProxyPlane.Json.Scan
import ProxyPlane.Json.Value
import ProxyPlane.Main
import ProxyPlane.Net.Domain
import ProxyPlane.Net.Http
import ProxyPlane.Net.HttpStatus
import ProxyPlane.Net.IpLiteral
import ProxyPlane.Net.Url
import ProxyPlane.Path
import ProxyPlane.Program
import ProxyPlane.Proofs.Acceptance
import ProxyPlane.Proofs.Address
import ProxyPlane.Proofs.Address.Grammar
import ProxyPlane.Proofs.Compile
import ProxyPlane.Proofs.Dict
import ProxyPlane.Proofs.Document.Depth
import ProxyPlane.Proofs.Document.Handler
import ProxyPlane.Proofs.Document.Order
import ProxyPlane.Proofs.Document.Rewriting
import ProxyPlane.Proofs.Document.Sections
import ProxyPlane.Proofs.Domains
import ProxyPlane.Proofs.Execution
import ProxyPlane.Proofs.Files.Contents
import ProxyPlane.Proofs.Files.Frame
import ProxyPlane.Proofs.Files.Tree
import ProxyPlane.Proofs.FirstViolation
import ProxyPlane.Proofs.Handlers
import ProxyPlane.Proofs.Identification
import ProxyPlane.Proofs.Import.Commit
import ProxyPlane.Proofs.Import.Compiled
import ProxyPlane.Proofs.Import.Exactness
import ProxyPlane.Proofs.Import.Findings
import ProxyPlane.Proofs.Import.Flattening
import ProxyPlane.Proofs.Import.Merge
import ProxyPlane.Proofs.Import.Nesting
import ProxyPlane.Proofs.Import.Ownership
import ProxyPlane.Proofs.Import.Resolution
import ProxyPlane.Proofs.Import.RoundTrip
import ProxyPlane.Proofs.Interruption
import ProxyPlane.Proofs.Json.Codec
import ProxyPlane.Proofs.Json.Lines
import ProxyPlane.Proofs.Json.Order
import ProxyPlane.Proofs.Json.Record
import ProxyPlane.Proofs.Json.Rewriting
import ProxyPlane.Proofs.Json.RoundTrip
import ProxyPlane.Proofs.Json.Sections
import ProxyPlane.Proofs.Json.Selection
import ProxyPlane.Proofs.Json.Text
import ProxyPlane.Proofs.Listening
import ProxyPlane.Proofs.Outcome
import ProxyPlane.Proofs.Path
import ProxyPlane.Proofs.Readback
import ProxyPlane.Proofs.Record.Execution
import ProxyPlane.Proofs.Record.Forms
import ProxyPlane.Proofs.Record.Insertion
import ProxyPlane.Proofs.Record.Lines
import ProxyPlane.Proofs.Record.Refinement
import ProxyPlane.Proofs.Reduction
import ProxyPlane.Proofs.Render
import ProxyPlane.Proofs.Routing
import ProxyPlane.Proofs.Snapshot.Directory
import ProxyPlane.Proofs.Snapshot.Freshness
import ProxyPlane.Proofs.Snapshot.Integrity
import ProxyPlane.Proofs.Snapshot.Interruption
import ProxyPlane.Proofs.Snapshot.Listing
import ProxyPlane.Proofs.Snapshot.Names
import ProxyPlane.Proofs.Snapshot.Prune
import ProxyPlane.Proofs.Snapshot.Save
import ProxyPlane.Proofs.Snapshot.Spelling
import ProxyPlane.Proofs.Snapshot.Survivors
import ProxyPlane.Proofs.Sync.BestEffort
import ProxyPlane.Proofs.Sync.Effects
import ProxyPlane.Proofs.Sync.Interruption
import ProxyPlane.Proofs.Sync.Numbering
import ProxyPlane.Proofs.Sync.Plant
import ProxyPlane.Proofs.Sync.Recovery
import ProxyPlane.Proofs.Sync.Retention
import ProxyPlane.Proofs.Sync.Runs
import ProxyPlane.Proofs.Sync.Transaction
import ProxyPlane.Proofs.Target
import ProxyPlane.Proofs.Text.Digits
import ProxyPlane.Proofs.Text.Numeral
import ProxyPlane.Proofs.Text.Pieces
import ProxyPlane.Proofs.Text.Trim
import ProxyPlane.Proofs.Validation
import ProxyPlane.Record.Basic
import ProxyPlane.Record.Identifier
import ProxyPlane.Record.Store
import ProxyPlane.Settings.Basic
import ProxyPlane.Settings.Load
import ProxyPlane.Settings.Validation
import ProxyPlane.Shutdown
import ProxyPlane.Snapshot
import ProxyPlane.Sync
import ProxyPlane.Text.Blank
import ProxyPlane.Text.Numeral
import ProxyPlane.Text.Pieces
import ProxyPlane.Text.Printable
import ProxyPlane.Text.Quoted
import ProxyPlane.Text.Utf8
import ProxyPlane.Time.Calendar
import ProxyPlane.Time.Clock
import ProxyPlane.Time.Instant
import ProxyPlane.Toml.Basic
import ProxyPlane.Toml.Reader
import ProxyPlane.Toml.Scalar
import ProxyPlane.Validation
import ProxyPlane.World
