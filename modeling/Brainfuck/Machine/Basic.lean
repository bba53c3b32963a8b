import Brainfuck.Instruction
import Brainfuck.EofPolicy
import Brainfuck.Tape
import Brainfuck.Stream.Input
import Brainfuck.Stream.Output

namespace Brainfuck

inductive RunError where
  | outOfBounds (ip pointer : Nat) (op : Char)
  | io (ip : Nat) (cause : Failure)
  | emptyTape
  deriving DecidableEq

namespace RunError

def message : RunError → String
  | .outOfBounds ip pointer op =>
    s!"Pointer out of bounds at instruction {ip} (ptr={pointer}, op='{op}')"
  | .io ip cause => s!"I/O error at instruction {ip}: {cause.text}"
  | .emptyTape => "Tape size must be at least one cell"

def cause? : RunError → Option Failure
  | .io _ cause => some cause
  | _ => none

end RunError

structure Machine where
  tape : Tape
  input : Input := []
  output : Output := {}
  deriving DecidableEq, Inhabited

inductive Effect where
  | done (machine : Machine)
  /-- What was consumed and written before the failure stays so. -/
  | failed (error : RunError) (machine : Machine)
  deriving DecidableEq

def Machine.act (eof : EofPolicy) (ip : Nat) (action : Action) (cell : UInt8) :
    Machine → Effect
  | ⟨tape, input, output⟩ =>
    match action with
    | .right =>
      match tape.moveRight? with
      | some moved => .done ⟨moved, input, output⟩
      | none => .failed (.outOfBounds ip tape.pointer action.symbol) ⟨tape, input, output⟩
    | .left =>
      match tape.moveLeft? with
      | some moved => .done ⟨moved, input, output⟩
      | none => .failed (.outOfBounds ip tape.pointer action.symbol) ⟨tape, input, output⟩
    | .increment => .done ⟨tape.write (cell + 1), input, output⟩
    | .decrement => .done ⟨tape.write (cell - 1), input, output⟩
    | .output =>
      match output.emit cell with
      | (.ok _, emitted) => .done ⟨tape, input, emitted⟩
      | (.error cause, emitted) => .failed (.io ip cause) ⟨tape, input, emitted⟩
    | .input =>
      match input.readByte with
      | (.ok (some byte), rest) => .done ⟨tape.write byte, rest, output⟩
      | (.ok none, rest) => .done ⟨tape.write (eof.fill cell), rest, output⟩
      | (.error cause, rest) => .failed (.io ip cause) ⟨tape, rest, output⟩

end Brainfuck
