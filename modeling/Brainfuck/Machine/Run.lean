import Brainfuck.Machine.Step
import Brainfuck.Log

/-!
As a program may run forever, a run is followed for a given number of steps; `none` says that it
was then still going on.
-/

namespace Brainfuck

def runFrom (program : Program) (eof : EofPolicy) : (fuel : Nat) → State → Option Halt
  | 0, _ => none
  | fuel + 1, state =>
    match step program eof state with
    | .next after => runFrom program eof fuel after
    | .halt halt => some halt

structure Entry where
  ip : Nat
  pointer : Nat
  cell : UInt8
  op : Char
  deriving DecidableEq, Inhabited

def State.entry? (program : Program) (state : State) : Option Entry :=
  match program.instruction? state.ip, state.machine.tape.current? with
  | some instruction, some cell =>
    some ⟨state.ip, state.machine.tape.pointer, cell, instruction.symbol⟩
  | _, _ => none

/-- The entries of a run, latest first, on top of those already `seen`. -/
def traceFrom (program : Program) (eof : EofPolicy) :
    (fuel : Nat) → State → (seen : List Entry) → List Entry
  | 0, _, seen => seen
  | fuel + 1, state, seen =>
    match state.entry? program with
    | none => seen
    | some entry =>
      match step program eof state with
      | .next after => traceFrom program eof fuel after (entry :: seen)
      | .halt _ => entry :: seen

def Entry.record (entry : Entry) : Record :=
  ⟨.trace, .machine,
    s!"ip={entry.ip} ptr={entry.pointer} cell={entry.cell} op='{entry.op}'"⟩

def State.finishedRecord (state : State) : Record :=
  ⟨.debug, .machine,
    s!"program finished after {state.steps} steps (ptr={state.machine.tape.pointer})"⟩

def defaultTapeSize : Nat := 65535

structure Interpreter where
  tapeSize : Nat := defaultTapeSize
  eof : EofPolicy := .zero
  deriving DecidableEq, Inhabited

namespace Interpreter

def start (interpreter : Interpreter) (input : Input) (output : Output) : State :=
  { machine := ⟨.blank interpreter.tapeSize, input, output⟩ }

def run (interpreter : Interpreter) (program : Program) (fuel : Nat) (input : Input)
    (output : Output) : Option Halt :=
  if interpreter.tapeSize = 0 then
    some ⟨.failed .emptyTape, interpreter.start input output⟩
  else
    match Tape.new? interpreter.tapeSize with
    | none => some ⟨.overflow, { machine := ⟨.blank 0, input, output⟩ }⟩
    | some tape => runFrom program interpreter.eof fuel { machine := ⟨tape, input, output⟩ }

def trace (interpreter : Interpreter) (program : Program) (fuel : Nat) (input : Input)
    (output : Output) : List Entry :=
  if interpreter.tapeSize = 0 then []
  else
    match Tape.new? interpreter.tapeSize with
    | none => []
    | some tape =>
      (traceFrom program interpreter.eof fuel { machine := ⟨tape, input, output⟩ } []).reverse

def haltRecords (halt : Halt) : List Record :=
  match halt.ending with
  | .finished => [halt.state.finishedRecord]
  | _ => []

def runRecords (interpreter : Interpreter) (program : Program) (fuel : Nat) (input : Input)
    (output : Output) (tracing : Bool) (halt : Halt) : List Record :=
  (if tracing then (interpreter.trace program fuel input output).map Entry.record else []) ++
    haltRecords halt

end Interpreter
end Brainfuck
