import Brainfuck.Proofs.Action
import Brainfuck.Proofs.Execution

namespace Brainfuck

variable {program : Program} {eof : EofPolicy} {start state : State} {past : List State}

/-- A run from `start` comes to a state by a step from each state of the list. -/
inductive Trail (program : Program) (eof : EofPolicy) (start : State) :
    List State → State → Prop where
  | start : Trail program eof start [] start
  | step {past : List State} {before after : State} (trail : Trail program eof start past before)
      (moved : step program eof before = .next after) :
      Trail program eof start (past ++ [before]) after

theorem Trail.reaches (trail : Trail program eof start past state) :
    Reaches program eof start state := by
  induction trail with
  | start => exact .refl
  | step _ moved ih => exact ih.tail moved

theorem Trail.cons {next : State} (moved : Transition program eof start next)
    (trail : Trail program eof next past state) :
    Trail program eof start (start :: past) state := by
  induction trail with
  | start => exact Trail.start.step moved.step_eq
  | step _ moved' ih => exact ih.step moved'

theorem Reaches.exists_trail (reached : Reaches program eof start state) :
    ∃ past, Trail program eof start past state := by
  induction reached with
  | refl => exact ⟨[], .start⟩
  | tail _ moved ih =>
      obtain ⟨past, trail⟩ := ih
      exact ⟨_, trail.step moved⟩

theorem Transition.steps_eq {before after : State} (moved : Transition program eof before after) :
    after.steps = before.steps + 1 := by
  cases moved <;> rfl

theorem Stop.steps_eq {halt : Halt} (stop : Stop program eof state halt) :
    halt.state.steps = state.steps := by
  cases stop <;> rfl

theorem Stop.ip_eq {halt : Halt} (stop : Stop program eof state halt) :
    halt.state.ip = state.ip := by
  cases stop <;> rfl

theorem Trail.steps_eq (trail : Trail program eof start past state) :
    state.steps = start.steps + past.length := by
  induction trail with
  | start => rfl
  | step _ moved ih =>
      rw [(transition_of_step moved).steps_eq, ih, List.length_append, List.length_singleton,
        Nat.add_assoc]

theorem Interpreter.exists_trail_of_run {interpreter : Interpreter}
    (sized : interpreter.Sized) {input : Input} {output : Output} {halt : Halt} :
    (∃ fuel, interpreter.run program fuel input output = some halt) ↔
      ∃ past last, Trail program interpreter.eof (interpreter.start input output) past last ∧
        step program interpreter.eof last = .halt halt := by
  simp only [run_eq_runFrom sized]
  constructor
  · rintro ⟨fuel, ran⟩
    obtain ⟨last, reached, stopped⟩ := exists_reaches_of_runFrom ran
    obtain ⟨past, trail⟩ := reached.exists_trail
    exact ⟨past, last, trail, stopped⟩
  · rintro ⟨past, last, trail, stopped⟩
    exact trail.reaches.halts stopped

def executed (program : Program) (past : List State) : List Instruction :=
  past.filterMap fun state => program.instruction? state.ip

theorem executed_concat {instruction : Instruction}
    (here : program.instruction? state.ip = some instruction) (past : List State) :
    executed program (past ++ [state]) = executed program past ++ [instruction] := by
  simp [executed, here]

/-- How far moves have carried the pointer to the right. -/
def netMoves (program : Program) (past : List State) : Int :=
  (executed program past).count (.simple .right) - (executed program past).count (.simple .left)

def Action.move : Action → Int
  | .right => 1
  | .left => -1
  | _ => 0

def Instruction.move : Instruction → Int
  | .simple action => action.move
  | _ => 0

theorem netMoves_concat {instruction : Instruction}
    (here : program.instruction? state.ip = some instruction) (past : List State) :
    netMoves program (past ++ [state]) = netMoves program past + instruction.move := by
  rw [netMoves, netMoves, executed_concat here, List.count_append, List.count_append]
  rcases instruction with (_ | _ | _ | _ | _ | _) | _ | _ <;>
    simp [Instruction.move, Action.move] <;> omega

theorem Tape.pointer_moveRight {tape moved : Tape} (moves : tape.moveRight? = some moved) :
    moved.pointer = tape.pointer + 1 := by
  simp only [Tape.moveRight?, Option.ite_none_right_eq_some, Option.some.injEq] at moves
  rw [← moves.2]

theorem Tape.pointer_moveLeft {tape moved : Tape} (moves : tape.moveLeft? = some moved) :
    tape.pointer = moved.pointer + 1 := by
  obtain ⟨cells, _ | pointer⟩ := tape
  · simp [Tape.moveLeft?] at moves
  · simp only [Tape.moveLeft?, Option.some.injEq] at moves
    rw [← moves]

theorem Acts.pointer_eq {ip : Nat} {cell : UInt8} {machine after : Machine} {action : Action}
    (acts : Acts eof ip cell machine action (.done after)) :
    (after.tape.pointer : Int) = machine.tape.pointer + action.move := by
  cases acts with
  | right moves => simp [Tape.pointer_moveRight moves, Action.move]
  | left moves =>
      have position := Tape.pointer_moveLeft moves
      simp only [Action.move]
      omega
  | increment => simp [Tape.write, Action.move]
  | decrement => simp [Tape.write, Action.move]
  | emit sent => simp [Action.move]
  | read got => simp [Tape.write, Action.move]
  | fill ended => simp [Tape.write, Action.move]

theorem Transition.pointer_eq {before after : State} (moved : Transition program eof before after) :
    ∃ instruction, program.instruction? before.ip = some instruction ∧
      (after.machine.tape.pointer : Int) = before.machine.tape.pointer + instruction.move := by
  cases moved with
  | simple here current acted =>
      exact ⟨_, here, (Machine.act_eq_iff.mp acted).pointer_eq⟩
  | skip here zero partner => exact ⟨_, here, (Int.add_zero _).symm⟩
  | enter here current nonzero => exact ⟨_, here, (Int.add_zero _).symm⟩
  | leave here zero => exact ⟨_, here, (Int.add_zero _).symm⟩
  | again here current nonzero partner => exact ⟨_, here, (Int.add_zero _).symm⟩

theorem Trail.pointer_eq (trail : Trail program eof start past state)
    (origin : start.machine.tape.pointer = 0) :
    (state.machine.tape.pointer : Int) = netMoves program past := by
  induction trail with
  | start => rw [origin]; rfl
  | step _ moved ih =>
      obtain ⟨instruction, here, pointer_eq⟩ := (transition_of_step moved).pointer_eq
      rw [netMoves_concat here, pointer_eq, ih]

end Brainfuck
