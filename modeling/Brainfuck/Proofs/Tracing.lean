import Brainfuck.Proofs.History
import Brainfuck.Proofs.Safety
import Mathlib.Data.List.Chain

namespace Brainfuck

variable {program : Program} {eof : EofPolicy} {start state : State} {past : List State}
  {entry : Entry} {halt : Halt}

namespace State

end State

def entries (program : Program) (states : List State) : List Entry :=
  states.filterMap fun state => state.entry? program

namespace Interpreter

variable {interpreter : Interpreter} {input : Input} {output : Output}

end Interpreter

end Brainfuck
