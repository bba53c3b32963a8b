import Brainfuck.Proofs.Faults
import Brainfuck.Proofs.Offsets
import Brainfuck.Proofs.Window

namespace Brainfuck.Diagnostic

theorem mask_byte (instruction : Instruction) : mask instruction.byte = instruction.symbol := by
  rcases instruction with (_ | _ | _ | _ | _ | _) | _ | _ <;> rfl

variable {source : List UInt8} {offset : Nat}

/-- The last two lines of a report are a part of the source and a caret with `symbol` above it. -/
structure Marks (report headline : String) (symbol : Char) (row : List Char) (column : Nat) :
    Prop where
  report_eq : report = headline ++ "\n  " ++ String.ofList row ++ "\n  " ++
    String.ofList (List.replicate column ' ' ++ ['^']) ++ "\n"
  above : row[column]? = some symbol
  length_le : row.length ≤ 65
  printable : ∀ character ∈ row, ' ' ≤ character ∧ character ≤ '~'

theorem exists_marks {instruction : Instruction}
    (found : source[offset]? = some instruction.byte) (headline : String) :
    ∃ row column, Marks (withContext headline source offset) headline instruction.symbol row
      column := by
  have around := frames source offset
  obtain ⟨symbol, above, shown⟩ := around.exists_above found
  rw [shown.eq_mask, mask_byte] at above
  exact ⟨_, _, rfl, above, around.length_le, around.bounds⟩

theorem exists_marks_of_unmatched {bracket : Bracket} {ip : Nat}
    (failed : Program.ofBytes source = .error (.unmatched bracket ip offset)) (headline : String) :
    ∃ row column, Marks (withContext headline source offset) headline bracket.symbol row
      column := by
  rcases ofBytes_cases source with ⟨_, result, _, _⟩ | ⟨front, rest, rfl, _, result⟩ |
    ⟨front, rest, _, rfl, _, _, result⟩
  · simp [result] at failed
  · rw [result, Except.error.injEq, LoadError.unmatched.injEq] at failed
    obtain ⟨rfl, -, rfl⟩ := failed
    have found : (front ++ Instruction.loopEnd.byte :: rest)[front.length]? =
        some Instruction.loopEnd.byte := by simp
    exact exists_marks found headline
  · rw [result, Except.error.injEq, LoadError.unmatched.injEq] at failed
    obtain ⟨rfl, -, rfl⟩ := failed
    have found : (front ++ Instruction.loopStart.byte :: rest)[front.length]? =
        some Instruction.loopStart.byte := by simp
    exact exists_marks found headline

def Blames (error : RunError) (ip : Nat) (op : Char) : Prop :=
  (∃ pointer, error = .outOfBounds ip pointer op) ∧ (op = '<' ∨ op = '>') ∨
    (∃ cause, error = .io ip cause) ∧ (op = '.' ∨ op = ',')

theorem Blames.position {error : RunError} {ip : Nat} {op : Char} (blames : Blames error ip op) :
    runErrorPosition? error = some ip := by
  rcases blames with ⟨⟨pointer, rfl⟩, _⟩ | ⟨⟨cause, rfl⟩, _⟩ <;> rfl

theorem exists_blames {program : Program} {size : Nat} {past : List State} {state : State}
    {error : RunError} (fault : Fault program size past state error) :
    ∃ action, program.instruction? state.ip = some (.simple action) ∧
      Blames error state.ip action.symbol := by
  cases fault with
  | right here last => exact ⟨_, here, Or.inl ⟨⟨_, rfl⟩, Or.inr rfl⟩⟩
  | left here first => exact ⟨_, here, Or.inl ⟨⟨_, rfl⟩, Or.inl rfl⟩⟩
  | output here fails => exact ⟨_, here, Or.inr ⟨⟨_, rfl⟩, Or.inl rfl⟩⟩
  | input here fails => exact ⟨_, here, Or.inr ⟨⟨_, rfl⟩, Or.inr rfl⟩⟩

theorem diagnostics_mark (source : List UInt8) (style : Style) :
    (∀ bracket ip offset, Program.ofBytes source = .error (.unmatched bracket ip offset) →
      ∃ row column, Marks (loadError style source (.unmatched bracket ip offset))
        (style.headline s!"Load error: unmatched bracket {bracket.quoted} at instruction {ip}")
        bracket.symbol row column) ∧
    ∀ program, Program.ofBytes source = .ok program →
      ∀ (interpreter : Interpreter) (fuel : Nat) (input : Input) (output : Output) (halt : Halt)
        (error : RunError), 0 < interpreter.tapeSize →
        interpreter.run program fuel input output = some halt → halt.ending = .failed error →
        ∃ ip op offset row column, Blames error ip op ∧ program.offset? ip = some offset ∧
          Marks (runError style source program error) (style.headline (runErrorMessage error)) op
            row column := by
  refine ⟨fun bracket ip offset failed => exists_marks_of_unmatched failed _, ?_⟩
  intro program loaded interpreter fuel input output halt error nonempty ran failed
  have sized : interpreter.Sized := by
    rcases Interpreter.sized_or_refused ran with sized | ⟨-, empty⟩ | ⟨overflow, -⟩
    · exact sized
    · exact absurd empty (Nat.ne_of_gt nonempty)
    · simp [overflow] at failed
  obtain ⟨past, state, -, -, fault⟩ := Interpreter.exists_fault_of_run
    (Program.linked_of_ofBytes loaded) sized ran failed
  obtain ⟨action, here, blames⟩ := exists_blames fault
  obtain ⟨offset, found, byte_at⟩ := Program.exists_offset loaded here
  obtain ⟨row, column, marks⟩ :=
    exists_marks byte_at (style.headline (runErrorMessage error))
  refine ⟨state.ip, action.symbol, offset, row, column, blames, found, ?_⟩
  rw [runError, blames.position, Option.bind_some, found]
  exact marks

example : loadError {} (['+', '\n', ']'].map Char.toUInt8) (.unmatched .closing 1 2) =
    "Load error: unmatched bracket ']' at instruction 1\n  + ]\n    ^\n" := by decide

end Brainfuck.Diagnostic
