import ToolChanger.Classification
import ToolChanger.CommandLine.Arguments
import ToolChanger.CommandLine.Run
import ToolChanger.Decimal.Binary64
import ToolChanger.Decimal.Scaling
import ToolChanger.Decimal.Shortest
import ToolChanger.Json.Basic
import ToolChanger.Json.Printer
import ToolChanger.Json.Raw
import ToolChanger.Json.Reader
import ToolChanger.Json.Token
import ToolChanger.Library
import ToolChanger.Load
import ToolChanger.Magazine
import ToolChanger.Main
import ToolChanger.Operator.Basic
import ToolChanger.Operator.Console
import ToolChanger.Operator.Decision
import ToolChanger.Operator.Summary
import ToolChanger.Override
import ToolChanger.Program.Comment
import ToolChanger.Program.ToolChange
import ToolChanger.Program.Word
import ToolChanger.Remap.Apply
import ToolChanger.Remap.Layers
import ToolChanger.Remap.Plan
import ToolChanger.Remap.Reconcile
import ToolChanger.Renumbering
import ToolChanger.Settings
import ToolChanger.Settings.File
import ToolChanger.Store.Basic
import ToolChanger.Store.FileSystem
import ToolChanger.Store.Folder
import ToolChanger.Store.Memory
import ToolChanger.Store.Path
import ToolChanger.Store.Scripted
import ToolChanger.Sync
import ToolChanger.Text.Blank
import ToolChanger.Text.Digit
import ToolChanger.Text.Numeral
import ToolChanger.Text.Offset
import ToolChanger.Toml.Moment
import ToolChanger.Toml.Printer
import ToolChanger.Toml.Reader
import ToolChanger.Toml.Table
import ToolChanger.Toml.Text
import ToolChanger.Toml.Value
import ToolChanger.Toml.Word
import ToolChanger.Tool.Basic
import ToolChanger.Tool.Codec
import ToolChanger.Tool.Number
import ToolChanger.Tool.Table
import ToolChanger.Proofs.Classification.Buckets
import ToolChanger.Proofs.Decimal.Exact
import ToolChanger.Proofs.Json.Members
import ToolChanger.Proofs.Library.Accepted
import ToolChanger.Proofs.Library.Changes
import ToolChanger.Proofs.Library.Records
import ToolChanger.Proofs.Library.Sync
import ToolChanger.Proofs.Load.Afresh
import ToolChanger.Proofs.Load.CarryOut
import ToolChanger.Proofs.Load.FailedMove
import ToolChanger.Proofs.Load.Failing
import ToolChanger.Proofs.Load.Frame
import ToolChanger.Proofs.Load.Keeps
import ToolChanger.Proofs.Load.Look
import ToolChanger.Proofs.Load.Move
import ToolChanger.Proofs.Load.OnRecord
import ToolChanger.Proofs.Load.Positive
import ToolChanger.Proofs.Load.Refresh
import ToolChanger.Proofs.Load.Repeated
import ToolChanger.Proofs.Load.Rounds
import ToolChanger.Proofs.Load.Scripted
import ToolChanger.Proofs.Load.Status
import ToolChanger.Proofs.Load.Steady
import ToolChanger.Proofs.Load.Unshared
import ToolChanger.Proofs.Load.Yields
import ToolChanger.Proofs.Operator.Command
import ToolChanger.Proofs.Operator.Console
import ToolChanger.Proofs.Operator.Decision
import ToolChanger.Proofs.Operator.FreePocket
import ToolChanger.Proofs.Override.Codec
import ToolChanger.Proofs.Override.Members
import ToolChanger.Proofs.Override.Reading
import ToolChanger.Proofs.Program.Changes
import ToolChanger.Proofs.Program.Comment
import ToolChanger.Proofs.Program.FirstWord
import ToolChanger.Proofs.Program.Lines
import ToolChanger.Proofs.Program.Mask
import ToolChanger.Proofs.Program.Word
import ToolChanger.Proofs.Remap.Agreement
import ToolChanger.Proofs.Remap.Commuting
import ToolChanger.Proofs.Remap.HalfMove
import ToolChanger.Proofs.Remap.Outcome
import ToolChanger.Proofs.Remap.Positive
import ToolChanger.Proofs.Remap.Precedence
import ToolChanger.Proofs.Remap.Range
import ToolChanger.Proofs.Remap.Record
import ToolChanger.Proofs.Remap.Sessionless
import ToolChanger.Proofs.Remap.Settling
import ToolChanger.Proofs.Remap.Swap
import ToolChanger.Proofs.Remap.Update
import ToolChanger.Proofs.Renumbering.Comment
import ToolChanger.Proofs.Renumbering.Count
import ToolChanger.Proofs.Renumbering.Line
import ToolChanger.Proofs.Renumbering.LineEnding
import ToolChanger.Proofs.Renumbering.Simultaneous
import ToolChanger.Proofs.Renumbering.ToolChange
import ToolChanger.Proofs.Settings.Codec
import ToolChanger.Proofs.Settings.File
import ToolChanger.Proofs.Settings.Toml
import ToolChanger.Proofs.Store.Contents
import ToolChanger.Proofs.Store.Disk
import ToolChanger.Proofs.Store.Exchange
import ToolChanger.Proofs.Store.Faulty
import ToolChanger.Proofs.Store.Folder
import ToolChanger.Proofs.Store.Kept
import ToolChanger.Proofs.Store.Register
import ToolChanger.Proofs.Text.Bytes
import ToolChanger.Proofs.Tool.Codec
import ToolChanger.Proofs.Tool.Reproduction
import ToolChanger.Proofs.Toml.Distinct
import ToolChanger.Proofs.Toml.Expressible
