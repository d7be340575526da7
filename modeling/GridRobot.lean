import GridRobot.Command
import GridRobot.CommandLine.Answer
import GridRobot.CommandLine.Arguments
import GridRobot.CommandLine.Folder
import GridRobot.Condition
import GridRobot.Decimal.Binary64
import GridRobot.Decimal.Shortest
import GridRobot.Direction
import GridRobot.Exchange
import GridRobot.Goal
import GridRobot.Grade
import GridRobot.Json.Fault
import GridRobot.Json.Reader
import GridRobot.Json.Record
import GridRobot.Json.Report
import GridRobot.Json.Token
import GridRobot.Json.Value
import GridRobot.Json.World
import GridRobot.Lint.Check
import GridRobot.Lint.Diagnostic
import GridRobot.Main
import GridRobot.Proofs.Run.Course
import GridRobot.Run.Chain
import GridRobot.Run.Error
import GridRobot.Run.Machine
import GridRobot.Run.Outcome
import GridRobot.Run.Progress
import GridRobot.Script.Block
import GridRobot.Script.Line
import GridRobot.Script.Program
import GridRobot.Script.Statement
import GridRobot.Text.Blank
import GridRobot.Text.Lines
import GridRobot.Text.Numeral
import GridRobot.Text.Printable
import GridRobot.Text.Quoted
import GridRobot.Text.Word
import GridRobot.World.Bag
import GridRobot.World.Basic
import GridRobot.World.Declaration
import GridRobot.World.Edge
import GridRobot.World.Layout
import GridRobot.World.Position
import GridRobot.World.Scan
import GridRobot.Proofs.Run.Recursive
import GridRobot.Proofs.Run.Visit
import GridRobot.Proofs.Run.Budget
import GridRobot.Proofs.Run.Replay
import GridRobot.Proofs.Run.Limit
import GridRobot.Proofs.Text.Basic
import GridRobot.Proofs.World.Edge
import GridRobot.Proofs.World.Declaration
import GridRobot.Proofs.World.Codec
import GridRobot.Proofs.Run.Grid
import GridRobot.Proofs.Script.Place
import GridRobot.Proofs.Run.Blame
import GridRobot.Proofs.Plan.Basic
import GridRobot.Proofs.Plan.Phrase
import GridRobot.Proofs.Plan.Layout
import GridRobot.Proofs.Plan.Headers
import GridRobot.Proofs.Plan.Script
import GridRobot.Proofs.Plan.Run
import GridRobot.Proofs.Run.View
import GridRobot.Proofs.Run.Walls
import GridRobot.Proofs.World.Layout
import GridRobot.Proofs.Grade
import GridRobot.Proofs.Json.Token
import GridRobot.Proofs.Json.Reader
import GridRobot.Proofs.Json.World
import GridRobot.Proofs.World.Edits
import GridRobot.Proofs.Run.Beepers
import GridRobot.Proofs.Run.Retelling
import GridRobot.Proofs.Script.Line
import GridRobot.Proofs.Script.Headers
import GridRobot.Proofs.Except
import GridRobot.Proofs.Run.Observer
import GridRobot.Proofs.Script.Widened
import GridRobot.Proofs.Script.LineEnds
import GridRobot.Proofs.Lint.EntryPoint
import GridRobot.Proofs.Run.Rotation
import GridRobot.Proofs.Lint.Indent
import GridRobot.Proofs.Run.Passed
import GridRobot.Proofs.Script.Remark
import GridRobot.Proofs.Plan.Comment
import GridRobot.Proofs.Text.Span
import GridRobot.Proofs.Script.Header
import GridRobot.Proofs.Script.Discovery
import GridRobot.Proofs.World.Scan
import GridRobot.Proofs.World.LastWriter
import GridRobot.Proofs.Command.Guards
import GridRobot.Proofs.Command.Undo
import GridRobot.Proofs.Run.Walk
import GridRobot.Proofs.World.Piles
import GridRobot.Proofs.Script.Trailing
import GridRobot.Proofs.Lint.Findings
import GridRobot.Proofs.Plan.Lint
import GridRobot.Proofs.Text.LineIndex
