import BlockBoard.Block.Definition
import BlockBoard.Block.Document
import BlockBoard.Block.Graph
import BlockBoard.Board.Simulated
import BlockBoard.CommandLine.Arguments
import BlockBoard.CommandLine.Spec
import BlockBoard.CommandLine.Task
import BlockBoard.Digest.Sha256
import BlockBoard.Firmware.Catalog
import BlockBoard.Firmware.Image
import BlockBoard.Firmware.Registry
import BlockBoard.Firmware.Release
import BlockBoard.Firmware.Sharing
import BlockBoard.Firmware.Transfer
import BlockBoard.Http.Api
import BlockBoard.Http.Message
import BlockBoard.Http.TypedText
import BlockBoard.Json.Basic
import BlockBoard.Json.Printer
import BlockBoard.Json.Reader
import BlockBoard.Json.Record
import BlockBoard.Link.Absent
import BlockBoard.Link.Receiving
import BlockBoard.Link.Scripted
import BlockBoard.Link.Slip
import BlockBoard.Link.Transport
import BlockBoard.Loader.Flashing
import BlockBoard.Loader.Packet
import BlockBoard.Main
import BlockBoard.Number.Binary64
import BlockBoard.Number.Decimal
import BlockBoard.Number.Reading
import BlockBoard.Program.Linking
import BlockBoard.Program.Lowering
import BlockBoard.Program.Requirements
import BlockBoard.Proofs.Script.Grammar
import BlockBoard.Proofs.Script.Spelling
import BlockBoard.Proofs.Script.Token
import BlockBoard.Repl.Prompt
import BlockBoard.Repl.RawMode
import BlockBoard.Script.Expr
import BlockBoard.Script.Precedence
import BlockBoard.Script.Stmt
import BlockBoard.Session.Basic
import BlockBoard.Session.Conduct
import BlockBoard.Session.Events
import BlockBoard.Settings.Catalog
import BlockBoard.Settings.Config
import BlockBoard.Settings.Device
import BlockBoard.Settings.Toml.Basic
import BlockBoard.Settings.Toml.Reader
import BlockBoard.Terminal.Scrollback
import BlockBoard.Text.Blank
import BlockBoard.Text.Pattern
import BlockBoard.Text.Quoted
import BlockBoard.Text.Utf8
import BlockBoard.Time.Timestamp
import BlockBoard.Proofs.Script.Reading
import BlockBoard.Proofs.Program.OperatorTree
import BlockBoard.Proofs.Link.Framing
import BlockBoard.Proofs.Loader.Wire
import BlockBoard.Proofs.Link.Operation
import BlockBoard.Proofs.Link.Recorded
import BlockBoard.Proofs.Loader.Calls
import BlockBoard.Proofs.Loader.Dialogue
import BlockBoard.Proofs.Loader.Completeness
import BlockBoard.Proofs.Loader.Cancelling
import BlockBoard.Proofs.Board.Receiving
import BlockBoard.Proofs.Session.Conduct
import BlockBoard.Proofs.Board.Cancelling
import BlockBoard.Proofs.Session.Cancelling
import BlockBoard.Proofs.Board.Flashing
import BlockBoard.Proofs.Session.Changes
import BlockBoard.Proofs.Session.Reachable
import BlockBoard.Proofs.Session.Watching
import BlockBoard.Proofs.Session.Flashing
import BlockBoard.Proofs.Loader.Watching
import BlockBoard.Proofs.Loader.Interrupting
import BlockBoard.Proofs.Session.Failing
import BlockBoard.Proofs.Session.Idle
import BlockBoard.Proofs.Session.Saving
import BlockBoard.Proofs.Session.Agreeing
import BlockBoard.Proofs.Text.Lines
import BlockBoard.Proofs.Script.CodeLine
import BlockBoard.Proofs.Program.Statements
import BlockBoard.Proofs.Program.Regions
import BlockBoard.Proofs.Script.Outline
import BlockBoard.Proofs.Program.Outline
import BlockBoard.Proofs.Script.Names
import BlockBoard.Proofs.Program.Vocabulary
import BlockBoard.Proofs.Program.Naming
import BlockBoard.Proofs.Program.Requirements
import BlockBoard.Proofs.Board.Running
import BlockBoard.Proofs.Session.Running
import BlockBoard.Proofs.Json.Reading
import BlockBoard.Proofs.Json.Record
import BlockBoard.Proofs.Block.Document
import BlockBoard.Proofs.Json.Number
import BlockBoard.Proofs.Number.Rounding
import BlockBoard.Proofs.Number.Shortest
import BlockBoard.Proofs.Session.Refusing
import BlockBoard.Proofs.Text.Pieces
import BlockBoard.Proofs.Session.Relaying
import BlockBoard.Proofs.Session.Latching
import BlockBoard.Proofs.Session.Installing
import BlockBoard.Proofs.Link.Paced
import BlockBoard.Proofs.Loader.Pacing
import BlockBoard.Proofs.Board.Unplugging
import BlockBoard.Proofs.Session.Unplugging
import BlockBoard.Proofs.Session.Rejecting
import BlockBoard.Proofs.Board.Stopping
import BlockBoard.Proofs.Session.Stopping
import BlockBoard.Proofs.Link.Recovering
import BlockBoard.Proofs.Firmware.Catalog
import BlockBoard.Proofs.Firmware.Sharing
import BlockBoard.Proofs.Board.Agreement
import BlockBoard.Proofs.Number.Whole
import BlockBoard.Proofs.Program.Integers
import BlockBoard.Proofs.Program.Arguments
import BlockBoard.Proofs.Script.Lexeme
import BlockBoard.Proofs.Script.Varying
import BlockBoard.Proofs.Program.Texts
import BlockBoard.Proofs.Loader.Waiting
import BlockBoard.Proofs.Loader.Progress
import BlockBoard.Proofs.Program.Extraction
import BlockBoard.Proofs.Program.Bounds
import BlockBoard.Proofs.Program.Nesting
import BlockBoard.Proofs.Program.Walking
import BlockBoard.Proofs.Json.Grammar
import BlockBoard.Proofs.Block.Depth
import BlockBoard.Proofs.Link.Pattern
import BlockBoard.Proofs.Link.Arriving
import BlockBoard.Proofs.Session.Ending
import BlockBoard.Proofs.Repl.Executing
import BlockBoard.Proofs.Terminal.Showing
import BlockBoard.Proofs.Firmware.Finding
import BlockBoard.Proofs.Firmware.Paging
import BlockBoard.Proofs.Number.Ordering
import BlockBoard.Proofs.Number.Part
import BlockBoard.Proofs.Firmware.Transfer
import BlockBoard.Proofs.Session.Fetching
