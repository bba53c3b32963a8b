import Brainfuck.Proofs.Concatenation
import Brainfuck.Proofs.Consumption
import Brainfuck.Proofs.Truncation

/-!
`,[.,]` writes each byte that it reads, until it reads a zero or stores one at the end of the
input. Both of its brackets do the same behind a read, so that every byte takes three steps.
-/

namespace Brainfuck

namespace Input

variable {input : Input}

theorem exists_readByte_of_byte {byte : UInt8} {items : List Item}
    (found : input.items = .byte byte :: items) :
    ∃ rest, input.readByte = (.ok (some byte), rest) ∧ rest.items = items := by
  have pending_eq : input.pending = .byte byte :: items := by
    rw [pending, found]
    rfl
  obtain ⟨answer, behind⟩ := readByte_of_pending pending_eq
  exact ⟨_, Prod.ext answer rfl, behind⟩

theorem exists_readByte_of_nil (ended : input.items = []) :
    ∃ rest, input.readByte = (.ok none, rest) ∧ rest.items = [] := by
  have exhausted : input.pending = [] := by
    rw [pending, ended]
    rfl
  obtain ⟨answer, behind⟩ := readByte_of_exhausted exhausted
  exact ⟨_, Prod.ext answer rfl, behind⟩

end Input

namespace Output

structure HasSent (origin : Output) (bytes : List UInt8) (output : Output) : Prop where
  sent : origin.Sent bytes.length output
  flushed : output.Flushed bytes

theorem HasSent.exists_emit {origin output : Output} {bytes : List UInt8}
    (hasSent : origin.HasSent bytes output) (reliable : ∀ count, origin.Completes count)
    (byte : UInt8) :
    ∃ after, output.emit byte = (.ok (), after) ∧ origin.HasSent (bytes ++ [byte]) after := by
  obtain ⟨after, emitted⟩ := hasSent.sent.exists_emit_ok (reliable _) byte
  refine ⟨after, emitted, ?_, hasSent.flushed.emit_ok emitted⟩
  rw [List.length_append]
  exact hasSent.sent.emit_ok emitted

end Output

namespace Tape

variable {tape : Tape} {cell : UInt8}

theorem current?_write (current : tape.current? = some cell) (value : UInt8) :
    (tape.write value).current? = some value := by
  obtain ⟨bound, -⟩ := Array.getElem?_eq_some_iff.mp current
  simp [write, current?, cell?, bound]

theorem write_write (tape : Tape) (first second : UInt8) :
    (tape.write first).write second = tape.write second := by
  simp [write]

theorem write_zero_blank (size : Nat) : (blank size).write 0 = blank size := by
  simp [write, blank]

end Tape

def copying : List Instruction :=
  [.simple .input, .loopStart, .simple .output, .simple .input, .loopEnd]

structure Program.Copies (program : Program) : Prop where
  linked : program.Linked
  code_eq : program.code = copying

namespace Program.Copies

variable {program : Program} {eof : EofPolicy} {ip : Nat} {tape : Tape} {input rest : Input}
  {output sent : Output} {cell byte : UInt8} {answer : Option UInt8}

theorem instruction?_eq (copies : program.Copies) (ip : Nat) :
    program.instruction? ip = copying[ip]? := by
  rw [Program.instruction?_eq, copies.code_eq]

theorem partners (copies : program.Copies) : Partners program.code 1 4 := by
  have balanced := Balanced.map_simple [.output, .input]
  have split : program.code =
      [.simple .input] ++ .loopStart :: ([.output, .input].map .simple ++ .loopEnd :: []) :=
    copies.code_eq
  rw [split]
  exact .of_split balanced []

theorem reads (copies : program.Copies) (reading : ip = 0 ∨ ip = 3)
    (current : tape.current? = some cell) (read : input.readByte = (.ok answer, rest))
    (stored : eof.stored cell answer = byte) (steps : Nat) :
    Transition program eof ⟨ip, ⟨tape, input, output⟩, steps⟩
      ⟨ip + 1, ⟨tape.write byte, rest, output⟩, steps + 1⟩ := by
  have here : program.instruction? ip = some (.simple .input) := by
    rcases reading with rfl | rfl
    · exact copies.instruction?_eq 0
    · exact copies.instruction?_eq 3
  exact .simple here current (stored ▸ (Acts.stored read).act_eq)

theorem writes (copies : program.Copies) (current : tape.current? = some cell)
    (emitted : output.emit cell = (.ok (), sent)) (steps : Nat) :
    Transition program eof ⟨2, ⟨tape, input, output⟩, steps⟩
      ⟨3, ⟨tape, input, sent⟩, steps + 1⟩ :=
  .simple (copies.instruction?_eq 2) current (Acts.emit emitted).act_eq

theorem reaches_end_of_zero (copies : program.Copies) (reading : ip = 0 ∨ ip = 3)
    (current : tape.current? = some cell) (read : input.readByte = (.ok answer, rest))
    (zero : eof.stored cell answer = 0) (steps : Nat) :
    Reaches program eof ⟨ip, ⟨tape, input, output⟩, steps⟩
      ⟨5, ⟨tape.write 0, rest, output⟩, steps + 2⟩ := by
  have bracket : ip + 1 = 1 ∨ ip + 1 = 4 := by omega
  refine (copies.reads reading current read zero steps).reaches.trans ?_
  exact (copies.linked.leaves copies.partners bracket (Tape.current?_write current 0) _).reaches

theorem reaches_next (copies : program.Copies) (reading : ip = 0 ∨ ip = 3)
    (current : tape.current? = some cell) (read : input.readByte = (.ok (some byte), rest))
    (nonzero : byte ≠ 0) (emitted : output.emit byte = (.ok (), sent)) (steps : Nat) :
    Reaches program eof ⟨ip, ⟨tape, input, output⟩, steps⟩
      ⟨3, ⟨tape.write byte, rest, sent⟩, steps + 3⟩ := by
  have bracket : ip + 1 = 1 ∨ ip + 1 = 4 := by omega
  have current' := Tape.current?_write current byte
  refine (copies.reads reading current read rfl steps).reaches.trans ?_
  refine (copies.linked.repeats copies.partners bracket current' nonzero _).reaches.trans ?_
  exact (copies.writes current' emitted (steps + 2)).reaches

theorem reaches_end (copies : program.Copies) (bytes : List UInt8)
    (ends : eof = .zero ∨ 0 ∈ bytes) (reading : ip = 0 ∨ ip = 3)
    (current : tape.current? = some cell) (items : input.items = bytes.map .byte)
    {origin : Output} {done : List UInt8} (hasSent : origin.HasSent done output)
    (reliable : ∀ count, origin.Completes count) (steps : Nat) :
    ∃ rest sent, Reaches program eof ⟨ip, ⟨tape, input, output⟩, steps⟩
        ⟨5, ⟨tape.write 0, rest, sent⟩, steps + 3 * (bytes.takeWhile (· ≠ 0)).length + 2⟩ ∧
      rest.items = (bytes.dropWhile (· ≠ 0)).tail.map .byte ∧
      origin.HasSent (done ++ bytes.takeWhile (· ≠ 0)) sent := by
  -- From either read, a byte that is written leads to the second one.
  induction bytes generalizing ip tape cell input output done steps with
  | nil =>
      obtain rfl : eof = .zero := ends.resolve_right List.not_mem_nil
      obtain ⟨rest, read, behind⟩ := Input.exists_readByte_of_nil items
      refine ⟨rest, output, copies.reaches_end_of_zero reading current read rfl steps, behind, ?_⟩
      simpa using hasSent
  | cons byte bytes ih =>
      obtain ⟨rest, read, behind⟩ := Input.exists_readByte_of_byte items
      by_cases zero : byte = 0
      · subst zero
        refine ⟨rest, output, copies.reaches_end_of_zero reading current read rfl steps, ?_, ?_⟩
        · simpa using behind
        · simpa using hasSent
      · obtain ⟨sent, emitted, hasSent⟩ := hasSent.exists_emit reliable byte
        have ends' : eof = .zero ∨ 0 ∈ bytes := by
          simpa [Ne.symm zero] using ends
        obtain ⟨last, final, reached, unread, written⟩ :=
          ih ends' (Or.inr rfl) (Tape.current?_write current byte) behind hasSent (steps + 3)
        have first : Reaches program eof _ _ :=
          copies.reaches_next reading current read zero emitted steps
        refine ⟨last, final, ?_, ?_, ?_⟩
        · rw [Tape.write_write] at reached
          rw [List.takeWhile_cons_of_pos (by simpa using zero), List.length_cons,
            show steps + 3 * ((bytes.takeWhile (· ≠ 0)).length + 1) + 2 =
              steps + 3 + 3 * (bytes.takeWhile (· ≠ 0)).length + 2 by omega]
          exact first.trans reached
        · rwa [List.dropWhile_cons_of_pos (by simpa using zero)]
        · rw [List.takeWhile_cons_of_pos (by simpa using zero)]
          simpa using written

end Program.Copies

theorem run_copies {source : List UInt8} (spelled : decode source = copying)
    {interpreter : Interpreter} (sized : interpreter.Sized) {bytes : List UInt8}
    (ends : interpreter.eof = .zero ∨ 0 ∈ bytes) {input : Input}
    (items : input.items = bytes.map .byte) {output : Output} (fresh : output.Flushed [])
    (reliable : ∀ count, output.Completes count) :
    ∃ program fuel halt, Program.ofBytes source = .ok program ∧
      interpreter.run program fuel input output = some halt ∧ halt.ending = .finished ∧
      halt.state.machine.output.Flushed (bytes.takeWhile (· ≠ 0)) ∧
      halt.state.machine.tape = .blank interpreter.tapeSize ∧
      halt.state.machine.tape.cell? 0 = some 0 ∧ halt.state.machine.tape.pointer = 0 ∧
      halt.state.machine.input.items = (bytes.dropWhile (· ≠ 0)).tail.map .byte ∧
      halt.state.steps = 3 * (bytes.takeWhile (· ≠ 0)).length + 2 := by
  have balanced : Balanced (decode source) := by
    rw [spelled]
    exact (Balanced.map_simple [.input]).append (Balanced.map_simple [.output, .input]).loop
  obtain ⟨program, loaded⟩ := Program.exists_ofBytes_of_balanced balanced
  have copies : program.Copies :=
    ⟨Program.linked_of_ofBytes loaded, (Program.code_of_ofBytes loaded).trans spelled⟩
  obtain ⟨rest, sent, reached, unread, hasSent⟩ :=
    copies.reaches_end bytes ends (Or.inl rfl) (Tape.current?_blank sized.nonempty) items
      ⟨.start output, fresh⟩ reliable 0
  rw [Tape.write_zero_blank] at reached
  obtain ⟨fuel, ran⟩ := reached.halts (Stop.finished (copies.instruction?_eq 5)).step_eq
  have started := Interpreter.run_eq_runFrom sized program fuel input output
  refine ⟨program, fuel, _, loaded, started.trans ran, rfl, hasSent.flushed, rfl, ?_, rfl, ?_, ?_⟩
  · exact Tape.current?_blank sized.nonempty
  · exact unread
  · exact congrArg (· + 2) (Nat.zero_add _)

theorem run_copies_up_to_zero :
    ∃ program fuel halt,
      Program.ofBytes (['a', ',', '[', '.', ',', ']'].map Char.toUInt8) = .ok program ∧
      Interpreter.run ⟨1, .unchanged⟩ program fuel [.data [104], .data [0, 7]]
        { writes := [.failed (.ofKind .interrupted)] } = some halt ∧
      halt.ending = .finished ∧ halt.state.machine.output.written.toList = [104] ∧
      halt.state.machine.input.items = [.byte 7] := by
  have reliable (count : Nat) :
      ({ writes := [.failed (.ofKind .interrupted)] } : Output).Completes count := fun cause =>
    ⟨by simp [Output.WriteFailsAt, WriteReply.interrupted, Failure.interrupted, Failure.ofKind],
      by simp [Output.FlushFailsAt]⟩
  have spelled : decode (['a', ',', '[', '.', ',', ']'].map Char.toUInt8) = copying := by decide
  have items : Input.items [.data [104], .data [0, 7]] = [104, 0, 7].map .byte := by decide
  have ends : (⟨1, .unchanged⟩ : Interpreter).eof = .zero ∨ (0 : UInt8) ∈ [104, 0, 7] :=
    Or.inr (by decide)
  obtain ⟨program, fuel, halt, loaded, ran, finished, flushed, -, -, -, unread, -⟩ :=
    run_copies spelled ⟨by decide, by decide⟩ ends items ⟨rfl, rfl, rfl⟩ reliable
  exact ⟨program, fuel, halt, loaded, ran, finished, flushed.written_eq, unread⟩

end Brainfuck
