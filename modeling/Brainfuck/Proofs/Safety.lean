import Brainfuck.Proofs.Action
import Brainfuck.Proofs.Execution
import Brainfuck.Proofs.JumpTable

namespace Brainfuck

theorem Tape.current?_blank {size : Nat} (nonempty : 0 < size) :
    (blank size).current? = some 0 := by
  simp [blank, current?, cell?, nonempty]

structure Tape.Fits (size : Nat) (tape : Tape) : Prop where
  size_eq : tape.size = size
  pointer_lt : tape.pointer < size

namespace Tape.Fits

variable {size : Nat} {tape moved : Tape}

theorem blank (nonempty : 0 < size) : Fits size (.blank size) where
  size_eq := by simp [Tape.blank, Tape.size]
  pointer_lt := nonempty

theorem exists_current (fits : Fits size tape) : ∃ cell, tape.current? = some cell := by
  have bound : tape.pointer < tape.cells.size := by
    have := fits.pointer_lt
    rwa [← fits.size_eq] at this
  exact ⟨tape.cells[tape.pointer], Array.getElem?_eq_getElem bound⟩

theorem write (fits : Fits size tape) (value : UInt8) : Fits size (tape.write value) := by
  refine ⟨?_, fits.pointer_lt⟩
  rw [← fits.size_eq]
  exact Array.size_setIfInBounds

theorem moveRight (fits : Fits size tape) (moves : tape.moveRight? = some moved) :
    Fits size moved := by
  obtain ⟨cells, pointer⟩ := tape
  obtain ⟨size_eq, _⟩ := fits
  simp only [Tape.moveRight?] at moves
  split at moves
  · next inside =>
      rw [Option.some.injEq] at moves
      subst moves
      exact ⟨size_eq, size_eq ▸ inside⟩
  · simp at moves

theorem moveLeft (fits : Fits size tape) (moves : tape.moveLeft? = some moved) :
    Fits size moved := by
  obtain ⟨cells, pointer⟩ := tape
  obtain ⟨size_eq, pointer_lt⟩ := fits
  cases pointer with
  | zero => simp [Tape.moveLeft?] at moves
  | succ pointer =>
      simp only [Tape.moveLeft?, Option.some.injEq] at moves
      subst moves
      exact ⟨size_eq, Nat.lt_of_succ_lt pointer_lt⟩

theorem act {machine after : Machine} {eof : EofPolicy} {ip : Nat} {action : Action} {cell : UInt8}
    (fits : Fits size machine.tape) (acted : machine.act eof ip action cell = .done after) :
    Fits size after.tape := by
  cases Machine.act_eq_iff.mp acted with
  | right moves => exact fits.moveRight moves
  | left moves => exact fits.moveLeft moves
  | increment => exact fits.write _
  | decrement => exact fits.write _
  | emit sent => exact fits
  | read got => exact fits.write _
  | fill ended => exact fits.write _

end Tape.Fits

structure State.InBounds (program : Program) (size : Nat) (state : State) : Prop where
  tape : state.machine.tape.Fits size
  ip_le : state.ip ≤ program.length

variable {program : Program} {eof : EofPolicy} {size : Nat} {state : State}

theorem Program.ip_lt {ip : Nat} {instruction : Instruction}
    (here : program.instruction? ip = some instruction) : ip < program.length := by
  rw [Program.instruction?_eq] at here
  rw [← program.length_code]
  exact (List.getElem?_eq_some_iff.mp here).1

namespace Program.Linked

variable {o c : Nat}

theorem forward_bounds (linked : program.Linked) (partner : program.forward o = some c) :
    o < c ∧ c < program.length := by
  have partners := (linked.forward_iff o c).mp partner
  exact ⟨partners.lt, program.length_code ▸ partners.closing_lt⟩

theorem backward_bounds (linked : program.Linked) (partner : program.backward c = some o) :
    o < c ∧ c < program.length := by
  have partners := (linked.backward_iff o c).mp partner
  exact ⟨partners.lt, program.length_code ▸ partners.closing_lt⟩

theorem exists_forward (linked : program.Linked)
    (here : program.instruction? o = some .loopStart) : ∃ c, program.forward o = some c :=
  Option.isSome_iff_exists.mp ((linked.forward_isSome_iff o).mpr here)

theorem exists_backward (linked : program.Linked)
    (here : program.instruction? c = some .loopEnd) : ∃ o, program.backward c = some o :=
  Option.isSome_iff_exists.mp ((linked.backward_isSome_iff c).mpr here)

theorem skips (linked : program.Linked) (partners : Partners program.code o c)
    {machine : Machine} (zero : machine.tape.current? = some 0) (steps : Nat) :
    Transition program eof ⟨o, machine, steps⟩ ⟨c + 1, machine, steps + 1⟩ :=
  .skip ((program.instruction?_eq o).trans partners.opens) zero
    ((linked.forward_iff o c).mpr partners)

theorem leaves (linked : program.Linked) (partners : Partners program.code o c) {ip : Nat}
    (bracket : ip = o ∨ ip = c) {machine : Machine} (zero : machine.tape.current? = some 0)
    (steps : Nat) :
    Transition program eof ⟨ip, machine, steps⟩ ⟨c + 1, machine, steps + 1⟩ := by
  rcases bracket with rfl | rfl
  · exact linked.skips partners zero steps
  · exact .leave ((program.instruction?_eq ip).trans partners.closes) zero

theorem repeats (linked : program.Linked) (partners : Partners program.code o c) {ip : Nat}
    (bracket : ip = o ∨ ip = c) {machine : Machine} {cell : UInt8}
    (current : machine.tape.current? = some cell) (nonzero : cell ≠ 0) (steps : Nat) :
    Transition program eof ⟨ip, machine, steps⟩ ⟨o + 1, machine, steps + 1⟩ := by
  rcases bracket with rfl | rfl
  · exact .enter ((program.instruction?_eq ip).trans partners.opens) current nonzero
  · exact .again ((program.instruction?_eq ip).trans partners.closes) current nonzero
      ((linked.backward_iff o ip).mpr partners)

end Program.Linked

theorem Transition.fits {after : State} (moved : Transition program eof state after)
    (fits : state.machine.tape.Fits size) : after.machine.tape.Fits size := by
  cases moved with
  | simple here current acted => exact fits.act acted
  | _ => exact fits

theorem Transition.inBounds {after : State} (linked : program.Linked)
    (moved : Transition program eof state after) (bounds : state.InBounds program size) :
    after.InBounds program size := by
  refine ⟨moved.fits bounds.tape, ?_⟩
  cases moved with
  | simple here current acted => exact Program.ip_lt here
  | skip here zero partner => exact (linked.forward_bounds partner).2
  | enter here current nonzero => exact Program.ip_lt here
  | leave here zero => exact Program.ip_lt here
  | again here current nonzero partner =>
      obtain ⟨lt, bound⟩ := linked.backward_bounds partner
      exact Nat.lt_trans lt bound

theorem Reaches.inBounds {start : State} (linked : program.Linked)
    (reached : Reaches program eof start state) (bounds : start.InBounds program size) :
    state.InBounds program size := by
  induction reached with
  | refl => exact bounds
  | tail _ moved ih => exact (transition_of_step moved).inBounds linked ih

theorem Stop.not_stuck {halt : Halt} (linked : program.Linked) (stop : Stop program eof state halt)
    (bounds : state.InBounds program size) : halt.ending ≠ .stuck := by
  cases stop with
  | finished here => simp
  | failed here current acted => simp
  | offTape here current =>
      obtain ⟨cell, found⟩ := bounds.tape.exists_current
      exact absurd (current.symm.trans found) (by simp)
  | unended here zero partner =>
      obtain ⟨c, found⟩ := linked.exists_forward here
      exact absurd (partner.symm.trans found) (by simp)
  | unbegun here current nonzero partner =>
      obtain ⟨o, found⟩ := linked.exists_backward here
      exact absurd (partner.symm.trans found) (by simp)

theorem Stop.not_overflow {halt : Halt} (stop : Stop program eof state halt) :
    halt.ending ≠ .overflow := by
  cases stop <;> simp

theorem Stop.ip_eq_length {halt : Halt} (stop : Stop program eof state halt)
    (bounds : state.InBounds program size) (finished : halt.ending = .finished) :
    state.ip = program.length := by
  cases stop with
  | finished atEnd => exact Nat.le_antisymm bounds.ip_le (Array.getElem?_eq_none_iff.mp atEnd)
  | _ => simp at finished

theorem Interpreter.start_inBounds {interpreter : Interpreter}
    (nonempty : 0 < interpreter.tapeSize) (program : Program) (input : Input) (output : Output) :
    (interpreter.start input output).InBounds program interpreter.tapeSize :=
  ⟨.blank nonempty, Nat.zero_le _⟩

namespace Interpreter

variable {interpreter : Interpreter} {fuel : Nat} {input : Input} {output : Output} {halt : Halt}

theorem not_stuck_of_run (linked : program.Linked)
    (ran : interpreter.run program fuel input output = some halt) : halt.ending ≠ .stuck := by
  by_cases sized : interpreter.Sized
  · rw [run_eq_runFrom sized] at ran
    obtain ⟨last, reached, stopped⟩ := exists_reaches_of_runFrom ran
    exact (stop_of_step stopped).not_stuck linked
      (reached.inBounds linked (interpreter.start_inBounds sized.nonempty program input output))
  · rcases (sized_or_refused ran).resolve_left sized with ⟨refused, -⟩ | ⟨overflow, -⟩
    · simp [refused]
    · simp [overflow]

theorem not_overflow_of_run (sized : interpreter.Sized)
    (ran : interpreter.run program fuel input output = some halt) : halt.ending ≠ .overflow := by
  rw [run_eq_runFrom sized] at ran
  obtain ⟨last, -, stopped⟩ := exists_reaches_of_runFrom ran
  exact (stop_of_step stopped).not_overflow

end Interpreter

end Brainfuck
