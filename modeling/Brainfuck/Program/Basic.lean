import Brainfuck.Instruction

/-!
Positions count instructions only; offsets count all bytes of the source.
-/

namespace Brainfuck

structure Program where
  instructions : Array Instruction := #[]
  offsets : Array Nat := #[]
  /-- At the position of a `[`, that of its `]`. -/
  closing : Array (Option Nat) := #[]
  /-- At the position of a `]`, that of its `[`. -/
  opening : Array (Option Nat) := #[]
  deriving DecidableEq, Inhabited

namespace Program

def length (program : Program) : Nat := program.instructions.size

def isEmpty (program : Program) : Bool := program.length = 0

def instruction? (program : Program) (ip : Nat) : Option Instruction := program.instructions[ip]?

def offset? (program : Program) (ip : Nat) : Option Nat := program.offsets[ip]?

def forward (program : Program) (ip : Nat) : Option Nat := program.closing[ip]?.join

def backward (program : Program) (ip : Nat) : Option Nat := program.opening[ip]?.join

def loopCount (program : Program) : Nat := program.closing.countP Option.isSome

def text (program : Program) : String :=
  String.ofList (program.instructions.toList.map Instruction.symbol)

end Program
end Brainfuck
