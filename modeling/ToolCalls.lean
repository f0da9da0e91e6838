import ToolCalls.Call.Attempt
import ToolCalls.Call.Record
import ToolCalls.Call.Strict
import ToolCalls.Cursor
import ToolCalls.Extract
import ToolCalls.Log.Machine
import ToolCalls.Log.Sinks
import ToolCalls.Proofs.Literal.Grammar
import ToolCalls.Scanner.Receivers
import ToolCalls.Settings
import ToolCalls.Value.Draft
import ToolCalls.Proofs.Literal.Reading
import ToolCalls.Proofs.Call.Grammar
import ToolCalls.Proofs.Scanner.Losslessness
import ToolCalls.Proofs.Scanner.Recognition
import ToolCalls.Proofs.Scanner.Registers
import ToolCalls.Proofs.Scanner.Soundness
import ToolCalls.Proofs.Literal.Limits
import ToolCalls.Proofs.Call.Limits
import ToolCalls.Proofs.Call.Locality
import ToolCalls.Proofs.Scanner.Faults
import ToolCalls.Proofs.Call.Attempts
import ToolCalls.Proofs.Scanner.Gating
import ToolCalls.Proofs.Scanner.Agreement
import ToolCalls.Proofs.Literal.LineEnds
import ToolCalls.Proofs.Call.LineEnds
import ToolCalls.Proofs.Scanner.EndOfStream
import ToolCalls.Proofs.Text.FullRuns
import ToolCalls.Proofs.Call.Blocks
import ToolCalls.Proofs.Literal.Nodes
import ToolCalls.Proofs.Text.Stages
import ToolCalls.Proofs.Scanner.Literals
import ToolCalls.Proofs.Text.Indentation
import ToolCalls.Proofs.Call.Views
import ToolCalls.Proofs.Log.Runs
import ToolCalls.Proofs.Log.Requests
import ToolCalls.Proofs.Literal.Validation
import ToolCalls.Proofs.Call.Validation
import ToolCalls.Proofs.Scanner.Buffers
import ToolCalls.Proofs.Text.Dedenting
import ToolCalls.Proofs.Literal.Progress
import ToolCalls.Proofs.Settings.Environment
import ToolCalls.Proofs.Call.Progress
