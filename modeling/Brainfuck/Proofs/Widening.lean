import Brainfuck.Proofs.Concatenation
import Brainfuck.Proofs.Faults

/-!
An action looks at the cell under the pointer and at the ends of the tape only. So a run goes on
in the same way with more cells on either side, unless it fails at an end that the wider tape
lacks.
-/

namespace Brainfuck

namespace Tape

def widened (left right : Nat) (tape : Tape) : Tape :=
  ⟨.replicate left 0 ++ tape.cells ++ .replicate right 0, tape.pointer + left⟩

variable (left right : Nat) {tape : Tape}

theorem size_widened : (tape.widened left right).size = left + tape.size + right := by
  simp [widened, size, Nat.add_assoc]

theorem widened_blank (size : Nat) :
    (blank size).widened left right = ⟨.replicate (left + size + right) 0, left⟩ := by
  rw [widened, blank, Array.replicate_append_replicate, Array.replicate_append_replicate,
    Nat.zero_add]

theorem current?_widened (inside : tape.pointer < tape.size) :
    (tape.widened left right).current? = tape.current? := by
  rw [current?, current?, cell?, cell?, widened, Array.append_assoc,
    Array.getElem?_append_right (by simp), Array.size_replicate, Nat.add_sub_cancel,
    Array.getElem?_append_left inside]

theorem write_widened (inside : tape.pointer < tape.size) (value : UInt8) :
    (tape.widened left right).write value = (tape.write value).widened left right := by
  rw [write, write, widened, widened, Array.append_assoc,
    Array.setIfInBounds_append_right (by simp), Array.size_replicate, Nat.add_sub_cancel,
    Array.setIfInBounds_append_left inside, Array.append_assoc]

theorem moveRight?_of_inside (inside : tape.pointer + 1 < tape.size) :
    tape.moveRight? = some ⟨tape.cells, tape.pointer + 1⟩ := if_pos inside

variable {left right : Nat}

theorem moveRight?_widened (room : tape.pointer + 1 < tape.size ∨ right = 0) :
    (tape.widened left right).moveRight? = tape.moveRight?.map (widened left right) := by
  by_cases inside : tape.pointer + 1 < tape.size
  · have inside' : (tape.widened left right).pointer + 1 < (tape.widened left right).size := by
      rw [size_widened, widened]
      dsimp only
      omega
    rw [moveRight?_of_inside inside, moveRight?_of_inside inside', Option.map_some, widened,
      widened, Nat.add_right_comm]
  · have outside : (tape.widened left right).size ≤ (tape.widened left right).pointer + 1 := by
      rw [size_widened, widened]
      dsimp only
      omega
    rw [moveRight?_eq_none_iff.mpr outside, moveRight?_eq_none_iff.mpr (Nat.le_of_not_lt inside),
      Option.map_none]

theorem moveLeft?_widened (room : 0 < tape.pointer ∨ left = 0) :
    (tape.widened left right).moveLeft? = tape.moveLeft?.map (widened left right) := by
  obtain ⟨cells, _ | pointer⟩ := tape
  · obtain rfl : left = 0 := by simpa using room
    rfl
  · simp only [moveLeft?, widened, Nat.add_right_comm pointer 1, Option.map_some]

end Tape

/-- A move that fails at an end of a tape also fails where there are no more cells behind that end
of a wider one. -/
def RunError.Persists (left right : Nat) : RunError → Prop
  | .outOfBounds _ _ op => (op = '<' → left = 0) ∧ (op = '>' → right = 0)
  | _ => True

def RunError.widened (left : Nat) : RunError → RunError
  | .outOfBounds ip pointer op => .outOfBounds ip (pointer + left) op
  | .io ip cause => .io ip cause
  | .emptyTape => .emptyTape

def Machine.widened (left right : Nat) : Machine → Machine
  | ⟨tape, input, output⟩ => ⟨tape.widened left right, input, output⟩

def State.widened (left right : Nat) (state : State) : State :=
  { state with machine := state.machine.widened left right }

def Halt.widened (left right : Nat) (halt : Halt) : Halt :=
  halt.map (RunError.widened left) (State.widened left right)

variable {program : Program} {eof : EofPolicy} {left right : Nat}

theorem Acts.widened {ip : Nat} {cell : UInt8} {machine : Machine} {action : Action}
    {effect : Effect} (acts : Acts eof ip cell machine action effect)
    (inside : machine.tape.pointer < machine.tape.size)
    (persists : ∀ error after, effect = .failed error after → error.Persists left right) :
    Acts eof ip cell (machine.widened left right) action
      (effect.map (RunError.widened left) (Machine.widened left right)) := by
  obtain ⟨tape, input, output⟩ := machine
  have writes (value : UInt8) := Tape.write_widened left right inside value
  -- Only moves see where the tape ends: one that succeeds has room on the wider tape too, and one
  -- that is blocked stays so by `persists`.
  cases acts with
  | right moves =>
      have room : tape.pointer + 1 < tape.size := by
        by_contra outside
        simp [Tape.moveRight?_eq_none_iff.mpr (Nat.le_of_not_lt outside)] at moves
      exact .right (by rw [Tape.moveRight?_widened (Or.inl room), moves, Option.map_some])
  | rightmost blocked =>
      have room : right = 0 := (persists _ _ rfl).2 rfl
      exact .rightmost (by rw [Tape.moveRight?_widened (Or.inr room), blocked, Option.map_none])
  | left moves =>
      have room : 0 < tape.pointer := by
        rw [Tape.pointer_moveLeft moves]
        exact Nat.succ_pos _
      exact .left (by rw [Tape.moveLeft?_widened (Or.inl room), moves, Option.map_some])
  | leftmost blocked =>
      have room : left = 0 := (persists _ _ rfl).1 rfl
      exact .leftmost (by rw [Tape.moveLeft?_widened (Or.inr room), blocked, Option.map_none])
  | increment =>
      simp only [Effect.map, Machine.widened, ← writes]
      exact .increment
  | decrement =>
      simp only [Effect.map, Machine.widened, ← writes]
      exact .decrement
  | emit sent => exact .emit sent
  | unsent failed => exact .unsent failed
  | read got =>
      simp only [Effect.map, Machine.widened, ← writes]
      exact .read got
  | fill ended =>
      simp only [Effect.map, Machine.widened, ← writes]
      exact .fill ended
  | unread failed => exact .unread failed

theorem step_widened {state : State}
    (inside : state.machine.tape.pointer < state.machine.tape.size)
    (persists : ∀ halt, step program eof state = .halt halt →
      ∀ error, halt.ending = .failed error → error.Persists left right) :
    step program eof (state.widened left right) =
      (step program eof state).map (RunError.widened left) (State.widened left right) := by
  have seen := Tape.current?_widened left right inside
  rcases transition_or_stop program eof state with ⟨after, moved⟩ | ⟨halt, stop⟩
  · rw [moved.step_eq]
    apply Transition.step_eq
    cases moved with
    | simple here current acted =>
        exact .simple here (seen.trans current)
          ((Machine.act_eq_iff.mp acted).widened inside (by simp)).act_eq
    | skip here zero partner => exact .skip here (seen.trans zero) partner
    | enter here current nonzero => exact .enter here (seen.trans current) nonzero
    | leave here zero => exact .leave here (seen.trans zero)
    | again here current nonzero partner => exact .again here (seen.trans current) nonzero partner
  · rw [stop.step_eq]
    have persists := persists halt stop.step_eq
    apply Stop.step_eq
    cases stop with
    | finished here => exact .finished here
    | failed here current acted =>
        refine .failed here (seen.trans current)
          ((Machine.act_eq_iff.mp acted).widened inside fun error after same => ?_).act_eq
        obtain ⟨rfl, -⟩ := Effect.failed.inj same
        exact persists _ rfl
    | offTape here current => exact .offTape here (seen.trans current)
    | unended here zero partner => exact .unended here (seen.trans zero) partner
    | unbegun here current nonzero partner =>
        exact .unbegun here (seen.trans current) nonzero partner

theorem runFrom_widened (linked : program.Linked) {size fuel : Nat} {state : State} {halt : Halt}
    (bounds : state.InBounds program size) (ran : runFrom program eof fuel state = some halt)
    (persists : ∀ error, halt.ending = .failed error → error.Persists left right) :
    runFrom program eof fuel (state.widened left right) = some (halt.widened left right) := by
  have same : runFrom program eof fuel (state.widened left right) =
      (runFrom program eof fuel state).map (Halt.widened left right) := by
    refine runFrom_map (State.InBounds program size)
      (fun halt => ∀ error, halt.ending = .failed error → error.Persists left right)
      (fun state bounds persists => step_widened ?_ persists)
      (fun state after bounds moved => (transition_of_step moved).inBounds linked bounds) fuel
      bounds fun final found => Option.some.inj (ran.symm.trans found) ▸ persists
    rw [bounds.tape.size_eq]
    exact bounds.tape.pointer_lt
  rw [same, ran]
  rfl

def rightMoves (count : Nat) : List UInt8 := List.replicate count (Instruction.simple .right).byte

theorem decode_rightMoves (count : Nat) :
    decode (rightMoves count) = List.replicate count (.simple .right) :=
  List.filterMap_replicate_of_some (Instruction.ofByte?_byte _)

theorem Program.exists_ofBytes_rightMoves {source : List UInt8} {program : Program}
    (loaded : ofBytes source = .ok program) (count : Nat) :
    ∃ moved, ofBytes (rightMoves count ++ source) = .ok moved ∧
      moved.code = List.replicate count (.simple .right) ++ program.code := by
  have code : decode (rightMoves count ++ source) =
      List.replicate count (.simple .right) ++ program.code := by
    rw [decode_append, decode_rightMoves, code_of_ofBytes loaded]
  have balanced : Balanced (decode (rightMoves count ++ source)) := by
    rw [code]
    rw [← List.map_replicate]
    exact (Balanced.map_simple _).append (linked_of_ofBytes loaded).balanced
  obtain ⟨moved, read⟩ := exists_ofBytes_of_balanced balanced
  exact ⟨moved, read, (code_of_ofBytes read).trans code⟩

theorem runFrom_moves {ip pointer steps count : Nat} {cells : Array UInt8} {input : Input}
    {output : Output} (moves : ∀ i < count, program.instruction? (ip + i) = some (.simple .right))
    (inside : pointer + count < cells.size) (fuel : Nat) :
    runFrom program eof (count + fuel) ⟨ip, ⟨⟨cells, pointer⟩, input, output⟩, steps⟩ =
      runFrom program eof fuel
        ⟨ip + count, ⟨⟨cells, pointer + count⟩, input, output⟩, steps + count⟩ := by
  induction count generalizing ip pointer steps with
  | zero => rw [Nat.zero_add]; rfl
  | succ count ih =>
      have here : program.instruction? ip = some (.simple .right) := moves 0 (Nat.succ_pos _)
      have bound : pointer < cells.size := by omega
      have current : Tape.current? ⟨cells, pointer⟩ = some cells[pointer] :=
        Array.getElem?_eq_getElem bound
      have moved : Tape.moveRight? ⟨cells, pointer⟩ = some ⟨cells, pointer + 1⟩ :=
        Tape.moveRight?_of_inside (show pointer + 1 < cells.size by omega)
      have stepped : step program eof ⟨ip, ⟨⟨cells, pointer⟩, input, output⟩, steps⟩ =
          .next ⟨ip + 1, ⟨⟨cells, pointer + 1⟩, input, output⟩, steps + 1⟩ :=
        (Transition.simple here current (Acts.right moved).act_eq).step_eq
      have moves' : ∀ i < count, program.instruction? (ip + 1 + i) = some (.simple .right) := by
        intro i lt
        rw [Nat.add_assoc, Nat.add_comm 1]
        exact moves (i + 1) (by omega)
      rw [Nat.add_right_comm, runFrom, stepped]
      dsimp only
      rw [ih moves' (by omega)]
      simp only [Nat.add_assoc, Nat.add_comm 1]

theorem Program.within_rightMoves {program moved : Program} (linked : program.Linked)
    (linked' : moved.Linked) {count : Nat}
    (code : moved.code = List.replicate count (.simple .right) ++ program.code) :
    program.Within moved count := by
  have split : moved.code =
      List.replicate count (.simple .right) ++ (program.code ++ []) := by
    rw [code, List.append_nil]
  have within := linked.within linked' split
  rwa [List.length_replicate] at within

theorem runFrom_rightMoves {moved : Program} {count : Nat} {code : List Instruction}
    (split : moved.code = List.replicate count (.simple .right) ++ code) {size : Nat}
    (nonempty : 0 < size) (eof : EofPolicy) (right : Nat) (input : Input) (output : Output)
    (fuel : Nat) :
    runFrom moved eof (count + fuel)
        (Interpreter.start ⟨count + size + right, eof⟩ input output) =
      runFrom moved eof fuel
        (((Interpreter.start ⟨size, eof⟩ input output).widened count right).shifted count
          count) := by
  have moves : ∀ i < count, moved.instruction? (0 + i) = some (.simple .right) := by
    intro i lt
    rw [Nat.zero_add, moved.instruction?_eq, split, List.getElem?_append_left (by simpa using lt)]
    simp [lt]
  have inside : 0 + count < (Array.replicate (count + size + right) (0 : UInt8)).size := by
    rw [Array.size_replicate]
    omega
  have behind : ((Interpreter.start ⟨size, eof⟩ input output).widened count right).shifted count
      count = ⟨0 + count, ⟨⟨.replicate (count + size + right) 0, 0 + count⟩, input, output⟩,
        0 + count⟩ := by
    simp only [Interpreter.start, State.widened, Machine.widened, Tape.widened_blank,
      State.shifted, Nat.zero_add]
  rw [behind]
  exact runFrom_moves moves inside fuel

theorem run_translated {source : List UInt8} {program : Program}
    (loaded : Program.ofBytes source = .ok program) {size : Nat} (nonempty : 0 < size)
    (eof : EofPolicy) (left right : Nat) (fits : left + size + right ≤ capacity) :
    ∃ moved, Program.ofBytes (rightMoves left ++ source) = .ok moved ∧
      ∀ (input : Input) (output : Output) (fuel : Nat) (halt : Halt),
        Interpreter.run ⟨size, eof⟩ program fuel input output = some halt →
        (∀ error, halt.ending = .failed error → error.Persists left right) →
        Interpreter.run ⟨left + size + right, eof⟩ moved (left + fuel) input output =
          some ((halt.widened left right).shifted left left) := by
  obtain ⟨moved, read, code⟩ := Program.exists_ofBytes_rightMoves loaded left
  refine ⟨moved, read, fun input output fuel halt ran persists => ?_⟩
  have linked := Program.linked_of_ofBytes loaded
  have within := Program.within_rightMoves linked (Program.linked_of_ofBytes read) code
  have last : moved.length = program.length + left := by
    rw [← moved.length_code, code, List.length_append, List.length_replicate, program.length_code,
      Nat.add_comm]
  have size_le : size ≤ left + size + right := by omega
  have sized : (⟨size, eof⟩ : Interpreter).Sized := ⟨nonempty, Nat.le_trans size_le fits⟩
  have wider : (⟨left + size + right, eof⟩ : Interpreter).Sized :=
    ⟨Nat.lt_of_lt_of_le nonempty size_le, fits⟩
  rw [Interpreter.run_eq_runFrom sized] at ran
  have widened := runFrom_widened linked
    (Interpreter.start_inBounds nonempty program input output) ran persists
  rw [Interpreter.run_eq_runFrom wider, runFrom_rightMoves code nonempty,
    within.runFrom_eq_of_last last, widened, Option.map_some]

theorem run_translated_to_right_end :
    ∃ moved, Program.ofBytes
        (rightMoves 2 ++ ['+', '[', '>', '+', ']'].map Char.toUInt8) = .ok moved ∧
      ∃ halt, Interpreter.run ⟨5, .zero⟩ moved 12 [] {} = some halt ∧
        halt.ending = .failed (.outOfBounds 4 4 '>') := by
  let program : Program :=
    ⟨#[.simple .increment, .loopStart, .simple .right, .simple .increment, .loopEnd],
      #[0, 1, 2, 3, 4], #[none, some 4, none, none, none], #[none, none, none, none, some 1]⟩
  have loaded : Program.ofBytes (['+', '[', '>', '+', ']'].map Char.toUInt8) = .ok program := rfl
  have nonempty : 0 < 3 := by decide
  obtain ⟨moved, read, runs⟩ := run_translated loaded nonempty .zero 2 0 (by decide)
  have persists : (RunError.outOfBounds 2 2 '>').Persists 2 0 := ⟨by decide, fun _ => rfl⟩
  refine ⟨moved, read, _, runs [] {} 10
    ⟨.failed (.outOfBounds 2 2 '>'), 2, ⟨⟨#[1, 1, 1], 2⟩, [], {}⟩, 8⟩ rfl ?_, rfl⟩
  intro error failed
  rw [Ending.failed.injEq] at failed
  exact failed ▸ persists

end Brainfuck
