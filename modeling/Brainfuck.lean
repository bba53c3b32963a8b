import Brainfuck.Instruction
import Brainfuck.Failure
import Brainfuck.Stream.Input
import Brainfuck.Stream.Output
import Brainfuck.Log
import Brainfuck.Tape
import Brainfuck.Text.Blank
import Brainfuck.Text.Numeral
import Brainfuck.EofPolicy
import Brainfuck.Program.Load
import Brainfuck.Machine.Run
import Brainfuck.Settings.Setting
import Brainfuck.Settings.File
import Brainfuck.Diagnostic
import Brainfuck.Command
import Brainfuck.Proofs.Brackets
import Brainfuck.Proofs.Scan
import Brainfuck.Proofs.JumpTable
import Brainfuck.Proofs.Execution
import Brainfuck.Proofs.LoadErrors
import Brainfuck.Proofs.Safety
import Brainfuck.Proofs.Block
import Brainfuck.Proofs.Evaluation
import Brainfuck.Proofs.Streaming
import Brainfuck.Proofs.Offsets
import Brainfuck.Proofs.OpenBrackets
import Brainfuck.Proofs.Canonical
import Brainfuck.Proofs.Action
import Brainfuck.Proofs.History
import Brainfuck.Proofs.Faults
import Brainfuck.Proofs.Window
import Brainfuck.Proofs.Caret
import Brainfuck.Proofs.Streams
import Brainfuck.Proofs.Flushing
import Brainfuck.Proofs.Consumption
import Brainfuck.Proofs.Interruption
import Brainfuck.Proofs.Verbosity
import Brainfuck.Proofs.CommandLine
import Brainfuck.Proofs.Invocation
import Brainfuck.Proofs.Concatenation
import Brainfuck.Proofs.Widening
import Brainfuck.Proofs.Padding
import Brainfuck.Proofs.Truncation
import Brainfuck.Proofs.Copying
import Brainfuck.Proofs.Replacement
import Brainfuck.Proofs.Straight
import Brainfuck.Proofs.Wrapping
import Brainfuck.Proofs.LinearLoop
import Brainfuck.Proofs.DeadLoop
import Brainfuck.Proofs.Tracing
import Brainfuck.Proofs.SettingValues
import Brainfuck.Proofs.SettingsLine
import Brainfuck.Proofs.Assignments
import Brainfuck.Proofs.LastAssignment
import Brainfuck.Proofs.Unreadable
import Brainfuck.Proofs.Trimming
import Brainfuck.Proofs.Spelling
import Brainfuck.Proofs.Layers
