import Brainfuck.Diagnostic
import Brainfuck.Settings.File

namespace Brainfuck

structure Arguments where
  help : Bool := false
  tapeSize : Option Nat := none
  eof : Option EofPolicy := none
  path : Option String := none
  deriving DecidableEq

def Arguments.layer (arguments : Arguments) : Layer := ⟨arguments.tapeSize, arguments.eof⟩

namespace Command

/-- What the command takes from libraries, as they work in the process it runs in. -/
structure Libraries where
  readArguments : List String → Except String Arguments
  logger : (environment : String → Option String) → (fallback : String) → Logger
  configHome : (environment : String → Option String) → Option String
  paint : List Char → List Char
  alarm : String

structure Surroundings where
  environment : String → Option String
  file : String → Except Failure (List UInt8)
  terminal : Bool := false

structure Report where
  exit : Nat
  output : Array UInt8 := #[]
  messages : String := ""
  unread : Input := []

def usage (name : String) : String := "\n".intercalate [
  "Usage:",
  s!"  {name} [OPTIONS] <PATH>   # Load the program at PATH and run it on stdin/stdout",
  "",
  "Options:",
  "  --tape-size <N>        Number of tape cells (fallback BF_TAPE_SIZE; default 65535)",
  "  --eof <POLICY>         Cell value stored by ',' at end of input: zero, unchanged or max",
  "                         (fallback BF_EOF; default zero)",
  "  --help, -h             Show this help",
  "",
  "Notes:",
  "- Any characters outside of Brainfuck's ><+-.,[] are ignored as comments.",
  "- Moving the pointer off either end of the tape is a runtime error.",
  "- The tape holds 65535 cells unless --tape-size, BF_TAPE_SIZE or bf.toml overrides it.",
  "- Settings may also be placed under [interpreter] in <config home>/bf.toml.",
  "- Set RUST_LOG=debug (or trace) for diagnostics on stderr.",
  "",
  "Examples:",
  "- Run a program, feeding a file to `,`:",
  s!"    {name} ./cat.bf < input.txt",
  "", ""]

def name (words : List String) : String := words.headD "bf"

def Libraries.style (libraries : Libraries) (surroundings : Surroundings) (name : String) :
    Diagnostic.Style :=
  ⟨some name, if surroundings.terminal then some libraries.paint else none⟩

structure Job where
  source : List UInt8
  program : Program
  interpreter : Interpreter
  style : Diagnostic.Style
  logger : Logger
  messages : String
  alarm : String

inductive Preparation where
  | over (exit : Nat) (messages : String)
  | ready (job : Job)

def runningRecord (path : String) (program : Program) (settings : Settings) : Record :=
  ⟨.info, .command, s!"running {path} ({program.length} instructions, {settings.tapeSize} cells)"⟩

section

variable (libraries : Libraries) (surroundings : Surroundings)

def Libraries.loggerIn : Logger := libraries.logger surroundings.environment "warn"

def prepareSource (name : String) (flags : Layer) (path : String) (source : List UInt8) :
    Preparation :=
  let style := libraries.style surroundings name
  match Program.ofBytes source with
  | .error error => .over 1 (Diagnostic.loadError style source error)
  | .ok program =>
    let logger := libraries.loggerIn surroundings
    let (settings, records) := Settings.gather flags surroundings.environment
      (libraries.configHome surroundings.environment) surroundings.file
    .ready {
      source, program, style, logger
      interpreter := settings.interpreter
      messages := logger.lines
        (program.loadedRecord :: records ++ [runningRecord path program settings])
      alarm := libraries.alarm }

def prepare (name : String) (arguments : Arguments) : Preparation :=
  if arguments.help then .over 0 (usage name)
  else
    match arguments.path with
    | none => .over 2 (usage name)
    | some path =>
      match surroundings.file path with
      | .error cause => .over 1 s!"{name}: Load error: failed to read {path}: {cause.text}\n"
      | .ok source => prepareSource libraries surroundings name arguments.layer path source

end

namespace Job

def exit (halt : Halt) : Nat :=
  match halt.ending with
  | .finished => 0
  | .failed _ => 1
  | .stuck | .overflow => 101

/-- What has come out when the process has ended. A failure is followed by a flush, and the end of
the process by one more, whatever comes of them. -/
def printed (halt : Halt) : Array UInt8 :=
  let output := halt.state.machine.output
  match halt.ending with
  | .failed _ => output.flush.2.flush.2.delivered
  | _ => output.flush.2.delivered

def lastWords (job : Job) (halt : Halt) : String :=
  job.logger.lines (Interpreter.haltRecords halt) ++
    match halt.ending with
    | .finished => ""
    | .failed error => Diagnostic.runError job.style job.source job.program error
    | .stuck | .overflow => job.alarm

def traceLines (job : Job) (fuel : Nat) (input : Input) (output : Output) : String :=
  if job.logger.shows .machine .trace then
    job.logger.lines ((job.interpreter.trace job.program fuel input output).map Entry.record)
  else ""

def run (job : Job) (fuel : Nat) (input : Input) (output : Output) : Option Report :=
  (job.interpreter.run job.program fuel input output).map fun halt =>
    ⟨exit halt, printed halt,
      job.messages ++ job.traceLines fuel input output ++ job.lastWords halt,
      halt.state.machine.input⟩

end Job

/-- The whole command on its words; `none` if the program runs on. -/
def invoke (libraries : Libraries) (surroundings : Surroundings) (words : List String)
    (fuel : Nat) (input : Input) (output : Output) : Option Report :=
  let complaints := (libraries.loggerIn surroundings).complaints
  match libraries.readArguments words with
  | .error message => some ⟨2, #[], complaints ++ message, input⟩
  | .ok arguments =>
    match prepare libraries surroundings (name words) arguments with
    | .over exit messages => some ⟨exit, #[], complaints ++ messages, input⟩
    | .ready job =>
      (job.run fuel input output).map fun report =>
        { report with messages := complaints ++ report.messages }

end Command
end Brainfuck
