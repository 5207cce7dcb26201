import LedgerNode.Bytes.Basic
import LedgerNode.Bytes.Hex
import LedgerNode.Calendar
import LedgerNode.Command
import LedgerNode.Config
import LedgerNode.Digest.Keccak
import LedgerNode.Digest.Sha3
import LedgerNode.Fault
import LedgerNode.Hash
import LedgerNode.Html
import LedgerNode.Intake
import LedgerNode.Json.Basic
import LedgerNode.Json.Document
import LedgerNode.Json.Reader
import LedgerNode.Json.Writer
import LedgerNode.Log
import LedgerNode.Machine.Contracts
import LedgerNode.Machine.Engine
import LedgerNode.Machine.Frame
import LedgerNode.Machine.Item
import LedgerNode.Machine.Limits
import LedgerNode.Machine.Service
import LedgerNode.Main
import LedgerNode.Number.Binary64
import LedgerNode.Number.Decimal
import LedgerNode.Page.Content
import LedgerNode.Page.Markup
import LedgerNode.Pool
import LedgerNode.Proofs.Calendar.Gregorian
import LedgerNode.Proofs.Config.Overrides
import LedgerNode.Proofs.Html.Escaping
import LedgerNode.Proofs.Html.Reading
import LedgerNode.Proofs.Json.RoundTrip
import LedgerNode.Proofs.Json.Scalars
import LedgerNode.Proofs.Machine.Assembled
import LedgerNode.Proofs.Machine.CallChain
import LedgerNode.Proofs.Machine.CallerGuard
import LedgerNode.Proofs.Machine.Calls
import LedgerNode.Proofs.Machine.Causes
import LedgerNode.Proofs.Machine.Comparing
import LedgerNode.Proofs.Machine.Course
import LedgerNode.Proofs.Machine.Decoding
import LedgerNode.Proofs.Machine.Deployment
import LedgerNode.Proofs.Machine.Equality
import LedgerNode.Proofs.Machine.Faults
import LedgerNode.Proofs.Machine.Fetching
import LedgerNode.Proofs.Machine.History
import LedgerNode.Proofs.Machine.Hosting
import LedgerNode.Proofs.Machine.InvocationStack
import LedgerNode.Proofs.Machine.Limits
import LedgerNode.Proofs.Machine.Opacity
import LedgerNode.Proofs.Machine.Operands
import LedgerNode.Proofs.Machine.Registration
import LedgerNode.Proofs.Machine.Stepping
import LedgerNode.Proofs.Machine.Termination
import LedgerNode.Proofs.Machine.Undisturbed
import LedgerNode.Proofs.Number.Integers
import LedgerNode.Proofs.Number.Rounding
import LedgerNode.Proofs.Number.TwosComplement
import LedgerNode.Proofs.Outcome
import LedgerNode.Proofs.Page.Neighbors
import LedgerNode.Proofs.Page.Texts
import LedgerNode.Proofs.Pool.Descriptions
import LedgerNode.Proofs.Pool.History
import LedgerNode.Proofs.Pool.Relaying
import LedgerNode.Proofs.Record.Acceptance
import LedgerNode.Proofs.Record.Answers
import LedgerNode.Proofs.Record.Choice
import LedgerNode.Proofs.Record.Duplicates
import LedgerNode.Proofs.Record.Filing
import LedgerNode.Proofs.Record.Normalization
import LedgerNode.Proofs.Record.Timestamps
import LedgerNode.Proofs.Script.Assembling
import LedgerNode.Proofs.Script.Lines
import LedgerNode.Proofs.Script.Readings
import LedgerNode.Proofs.Script.Recovery
import LedgerNode.Proofs.Text.ByteOrder
import LedgerNode.Proofs.Text.LineFeeds
import LedgerNode.Proofs.Wire.Exactness
import LedgerNode.Proofs.Wire.Layout
import LedgerNode.Proofs.Wire.Sinks
import LedgerNode.Proofs.Wire.Truncation
import LedgerNode.Proofs.Wire.Unambiguous
import LedgerNode.Record.Entry
import LedgerNode.Record.Request
import LedgerNode.Record.Response
import LedgerNode.Record.Selection
import LedgerNode.Record.Submission
import LedgerNode.Script.Assembly
import LedgerNode.Script.Instruction
import LedgerNode.Script.Listing
import LedgerNode.Session
import LedgerNode.Table
import LedgerNode.Text.Blank
import LedgerNode.Text.Fold
import LedgerNode.Text.Invisible
import LedgerNode.Text.Lossy
import LedgerNode.Text.Numeral
import LedgerNode.Text.Quoted
import LedgerNode.Transaction
import LedgerNode.Wire.Codec
import LedgerNode.Wire.Format
import LedgerNode.Wire.Sink
