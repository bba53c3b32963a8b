namespace Brainfuck

/-- How many bytes one piece of memory can hold. -/
def capacity : Nat := 9223372036854775807

structure Tape where
  cells : Array UInt8
  pointer : Nat
  deriving DecidableEq, Inhabited

namespace Tape

def blank (size : Nat) : Tape := ⟨Array.replicate size 0, 0⟩

def new? (size : Nat) : Option Tape := if size ≤ capacity then some (blank size) else none

def size (tape : Tape) : Nat := tape.cells.size

def cell? (tape : Tape) (index : Nat) : Option UInt8 := tape.cells[index]?

def current? (tape : Tape) : Option UInt8 := tape.cell? tape.pointer

def write (tape : Tape) (value : UInt8) : Tape :=
  match tape with
  | ⟨cells, pointer⟩ => ⟨cells.setIfInBounds pointer value, pointer⟩

def moveRight? (tape : Tape) : Option Tape :=
  match tape with
  | ⟨cells, pointer⟩ => if pointer + 1 < cells.size then some ⟨cells, pointer + 1⟩ else none

def moveLeft? (tape : Tape) : Option Tape :=
  match tape with
  | ⟨_, 0⟩ => none
  | ⟨cells, pointer + 1⟩ => some ⟨cells, pointer⟩

end Tape
end Brainfuck
