import Brainfuck.Machine.Basic
import Brainfuck.Program.Basic

namespace Brainfuck

structure State where
  ip : Nat := 0
  machine : Machine
  /-- Counted without a bound: a run of 2 ^ 64 steps would last for centuries. -/
  steps : Nat := 0
  deriving DecidableEq, Inhabited

inductive Ending where
  | finished
  | failed (error : RunError)
  /-- The pointer is off the tape or a bracket has no partner, which no loaded program meets. -/
  | stuck
  /-- More cells are asked for than a tape can have. -/
  | overflow
  deriving DecidableEq

structure Halt where
  ending : Ending
  state : State
  deriving DecidableEq

inductive Step where
  | next (state : State)
  | halt (halt : Halt)
  deriving DecidableEq

def Step.jump (partner : Option Nat) (ip : Nat) (machine : Machine) (steps : Nat) : Step :=
  match partner with
  | some target => .next ⟨target + 1, machine, steps + 1⟩
  | none => .halt ⟨.stuck, ip, machine, steps⟩

def step (program : Program) (eof : EofPolicy) : State → Step
  | ⟨ip, machine, steps⟩ =>
    match program.instruction? ip, machine.tape.current? with
    | none, _ => .halt ⟨.finished, ip, machine, steps⟩
    | some _, none => .halt ⟨.stuck, ip, machine, steps⟩
    | some (.simple action), some cell =>
      match machine.act eof ip action cell with
      | .done after => .next ⟨ip + 1, after, steps + 1⟩
      | .failed error after => .halt ⟨.failed error, ip, after, steps⟩
    | some .loopStart, some cell =>
      if cell = 0 then .jump (program.forward ip) ip machine steps
      else .next ⟨ip + 1, machine, steps + 1⟩
    | some .loopEnd, some cell =>
      if cell = 0 then .next ⟨ip + 1, machine, steps + 1⟩
      else .jump (program.backward ip) ip machine steps

end Brainfuck
