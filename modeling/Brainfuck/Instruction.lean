namespace Brainfuck

inductive Action where
  | right
  | left
  | increment
  | decrement
  | output
  | input
  deriving DecidableEq, Inhabited

def Action.symbol : Action → Char
  | .right => '>'
  | .left => '<'
  | .increment => '+'
  | .decrement => '-'
  | .output => '.'
  | .input => ','

inductive Instruction where
  | simple (action : Action)
  | loopStart
  | loopEnd
  deriving DecidableEq, Inhabited

namespace Instruction

def symbol : Instruction → Char
  | .simple action => action.symbol
  | .loopStart => '['
  | .loopEnd => ']'

def byte (instruction : Instruction) : UInt8 := instruction.symbol.toUInt8

def ofByte? (byte : UInt8) : Option Instruction :=
  match Char.ofUInt8 byte with
  | '>' => some (.simple .right)
  | '<' => some (.simple .left)
  | '+' => some (.simple .increment)
  | '-' => some (.simple .decrement)
  | '.' => some (.simple .output)
  | ',' => some (.simple .input)
  | '[' => some .loopStart
  | ']' => some .loopEnd
  | _ => none

@[simp] theorem ofByte?_byte (instruction : Instruction) :
    ofByte? instruction.byte = some instruction := by
  rcases instruction with (_ | _ | _ | _ | _ | _) | _ | _ <;> rfl

theorem eq_byte_of_ofByte? {byte : UInt8} {instruction : Instruction}
    (h : ofByte? byte = some instruction) : byte = instruction.byte := by
  unfold ofByte? at h
  split at h <;> cases h <;>
    rename_i character <;> apply UInt8.toNat.inj <;>
    exact congrArg Char.toNat character

end Instruction
end Brainfuck
