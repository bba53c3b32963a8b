import Brainfuck.Proofs.Faults
import Brainfuck.Proofs.Streams

namespace Brainfuck

namespace Output

/-- The bytes have been written, each with a flush behind it. -/
structure Flushed (output : Output) (bytes : List UInt8) : Prop where
  written_eq : output.written.toList = bytes
  flushCount_eq : output.flushCount = bytes.length
  unflushed_eq : output.unflushed = 0

structure Unflushed (output : Output) (bytes : List UInt8) (last : UInt8) : Prop where
  written_eq : output.written.toList = bytes ++ [last]
  flushCount_eq : output.flushCount = bytes.length
  unflushed_eq : output.unflushed = 1

variable {output after : Output} {bytes : List UInt8} {byte : UInt8} {cause : Failure}

theorem Flushed.writeByte_ok (flushed : output.Flushed bytes)
    (wrote : output.writeByte byte = (.ok (), after)) : after.Unflushed bytes byte := by
  obtain ⟨writes, flushes, written, flushCount, unflushed⟩ := output
  obtain ⟨written_eq, flushCount_eq, unflushed_eq⟩ := flushed
  simp only [writeByte] at wrote
  split at wrote
  · rw [Prod.mk.injEq] at wrote
    rw [← wrote.2]
    exact ⟨by simpa using written_eq, flushCount_eq, by simpa using unflushed_eq⟩
  · simp at wrote

theorem Flushed.writeByte_error (flushed : output.Flushed bytes)
    (failed : output.writeByte byte = (.error cause, after)) : after.Flushed bytes := by
  obtain ⟨writes, flushes, written, flushCount, unflushed⟩ := output
  simp only [writeByte] at failed
  split at failed
  · simp at failed
  · rw [Prod.mk.injEq] at failed
    rw [← failed.2]
    exact ⟨flushed.written_eq, flushed.flushCount_eq, flushed.unflushed_eq⟩

theorem flush_of_fails (fails : output.FlushFails cause) :
    output.flush = (.error cause, { output with flushes := output.flushes.tail }) := by
  obtain ⟨writes, flushes, written, flushCount, unflushed⟩ := output
  rcases flushes with _ | ⟨_ | first, rest⟩
  · simp [FlushFails] at fails
  · simp [FlushFails] at fails
  · rw [FlushFails, List.head?_cons, Option.some.injEq, FlushReply.failed.injEq] at fails
    rw [← fails]
    rfl

theorem flush_of_flushes (flushes : ¬ ∃ cause, output.FlushFails cause) :
    output.flush = (.ok (), { output with
      flushes := output.flushes.tail, flushCount := output.flushCount + 1, unflushed := 0 }) := by
  obtain ⟨writes, replies, written, flushCount, unflushed⟩ := output
  rcases replies with _ | ⟨_ | first, rest⟩
  · rfl
  · rfl
  · exact absurd ⟨first, rfl⟩ flushes

theorem not_fails_of_flush (flushed : output.flush = (.ok (), after)) :
    ¬ ∃ cause, output.FlushFails cause := by
  rintro ⟨cause, fails⟩
  simp [flush_of_fails fails] at flushed

theorem Unflushed.flush_ok {last : UInt8} (unflushed : output.Unflushed bytes last)
    (flushed : output.flush = (.ok (), after)) : after.Flushed (bytes ++ [last]) := by
  obtain ⟨written_eq, flushCount_eq, unflushed_eq⟩ := unflushed
  rw [flush_of_flushes (not_fails_of_flush flushed), Prod.mk.injEq] at flushed
  rw [← flushed.2]
  exact ⟨written_eq, by simp [flushCount_eq], rfl⟩

theorem Unflushed.flush_error {last : UInt8} (unflushed : output.Unflushed bytes last)
    (failed : output.flush = (.error cause, after)) : after.Unflushed bytes last := by
  obtain ⟨written_eq, flushCount_eq, unflushed_eq⟩ := unflushed
  rw [flush_of_fails (exists_flush_error_iff.mp ⟨after, failed⟩), Prod.mk.injEq] at failed
  rw [← failed.2]
  exact ⟨written_eq, flushCount_eq, unflushed_eq⟩

theorem Flushed.emit_ok (flushed : output.Flushed bytes)
    (sent : output.emit byte = (.ok (), after)) : after.Flushed (bytes ++ [byte]) := by
  rw [emit] at sent
  split at sent
  · next wrote => exact (flushed.writeByte_ok wrote).flush_ok sent
  · simp at sent

theorem Flushed.emit_error (flushed : output.Flushed bytes)
    (failed : output.emit byte = (.error cause, after)) :
    output.WriteFails cause ∧ after.Flushed bytes ∨
      (¬ ∃ earlier, output.WriteFails earlier) ∧ output.FlushFails cause ∧
        after.Unflushed bytes byte := by
  have fails := exists_emit_error_iff.mp ⟨after, failed⟩
  rw [emit] at failed
  split at failed
  · next wrote =>
      have written : ¬ ∃ earlier, output.WriteFails earlier := by
        rintro ⟨earlier, writeFails⟩
        obtain ⟨_, unwritten⟩ : ∃ rest, output.writeByte byte = (.error earlier, rest) :=
          exists_writeByte_error_iff.mpr writeFails
        simp [unwritten] at wrote
      rcases fails with writeFails | ⟨-, flushFails⟩
      · exact absurd ⟨cause, writeFails⟩ written
      · exact Or.inr ⟨written, flushFails, (flushed.writeByte_ok wrote).flush_error failed⟩
  · next earlier unwritten wrote =>
      rw [Prod.mk.injEq, Except.error.injEq] at failed
      obtain ⟨rfl, rfl⟩ := failed
      exact Or.inl ⟨exists_writeByte_error_iff.mp ⟨_, wrote⟩, flushed.writeByte_error wrote⟩

end Output

variable {program : Program} {eof : EofPolicy} {start state : State} {past : List State}

def State.emission? (program : Program) (state : State) : Option UInt8 :=
  match state.action? program with
  | some (.output, cell) => some cell
  | _ => none

def emissions (program : Program) (past : List State) : List UInt8 :=
  past.filterMap (State.emission? program)

theorem emissions_concat (program : Program) (past : List State) (state : State) :
    emissions program (past ++ [state]) =
      emissions program past ++ (state.emission? program).toList := by
  rw [emissions, List.filterMap_append, ← emissions]
  cases speaks : state.emission? program <;> simp [speaks]

theorem State.emission?_eq_some_iff {cell : UInt8} :
    state.emission? program = some cell ↔ state.action? program = some (.output, cell) := by
  rw [emission?]
  split
  · next chosen => simp [chosen]
  · next other =>
      simp only [reduceCtorEq, false_iff]
      exact other cell

theorem State.outputAfter_of_emission?_none (silent : state.emission? program = none) :
    state.outputAfter program = state.machine.output := by
  rw [outputAfter]
  split
  · next action cell chosen =>
      cases action with
      | output => simp [emission?, chosen] at silent
      | _ => rfl
  · rfl

theorem emit_of_next {after : State} {cell : UInt8} (speaks : state.emission? program = some cell)
    (moved : step program eof state = .next after) :
    state.machine.output.emit cell = (.ok (), after.machine.output) := by
  obtain ⟨ip, ⟨tape, input, output⟩, steps⟩ := state
  rw [step_of_action? (State.emission?_eq_some_iff.mp speaks)] at moved
  split at moved
  · next acted =>
      rw [Step.next.injEq] at moved
      subst moved
      cases Machine.act_eq_iff.mp acted with
      | emit sent => exact sent
  · simp at moved

theorem Trail.flushed (trail : Trail program eof start past state)
    (fresh : start.machine.output.Flushed []) :
    state.machine.output.Flushed (emissions program past) := by
  induction trail with
  | start => exact fresh
  | @step past before after trail moved ih =>
      rw [emissions_concat]
      cases speaks : before.emission? program with
      | none =>
          rw [(streams_of_next moved).2, State.outputAfter_of_emission?_none speaks]
          simpa [speaks] using ih
      | some cell => simpa [speaks] using ih.emit_ok (emit_of_next speaks moved)

theorem Trail.length_emissions (trail : Trail program eof start past state) :
    (emissions program past).length = (executed program past).count (.simple .output) := by
  induction trail with
  | start => rfl
  | @step past before after trail moved ih =>
      obtain ⟨cell, current⟩ := exists_current_of_next moved
      rw [count_executed_concat current, ← ih, emissions_concat, List.length_append]
      simp only [← State.emission?_eq_some_iff]
      cases speaks : before.emission? program with
      | none => simp
      | some byte =>
          have same : byte = cell := by
            obtain ⟨-, found⟩ :=
              State.action?_eq_some_iff.mp (State.emission?_eq_some_iff.mp speaks)
            exact Option.some.inj (found.symm.trans current)
          simp [same]

def Halt.FailedOutput (program : Program) (halt : Halt) (cause : Failure) : Prop :=
  halt.ending = .failed (.io halt.state.ip cause) ∧
    program.instruction? halt.state.ip = some (.simple .output)

theorem Stop.flushed {last : State} {halt : Halt} {bytes : List UInt8}
    (stop : Stop program eof last halt) (flushed : last.machine.output.Flushed bytes) :
    halt.state.machine.output.Flushed bytes ∧
        (∀ cause, halt.FailedOutput program cause → last.machine.output.WriteFails cause) ∨
      ∃ cause cell, halt.FailedOutput program cause ∧
        last.machine.tape.current? = some cell ∧
        (¬ ∃ earlier, last.machine.output.WriteFails earlier) ∧
        last.machine.output.FlushFails cause ∧ halt.state.machine.output.Unflushed bytes cell := by
  cases stop with
  | failed here current acted =>
      cases Machine.act_eq_iff.mp acted with
      | unsent failed =>
          rcases flushed.emit_error failed with ⟨writeFails, flushed⟩ | ⟨written, flushFails, left⟩
          · refine Or.inl ⟨flushed, fun cause failed => ?_⟩
            obtain ⟨ending, -⟩ := failed
            rw [Ending.failed.injEq, RunError.io.injEq] at ending
            exact ending.2 ▸ writeFails
          · exact Or.inr ⟨_, _, ⟨rfl, here⟩, current, written, flushFails, left⟩
      | _ => exact Or.inl ⟨flushed, fun cause failed => by simp [Halt.FailedOutput, here] at failed⟩
  | _ => exact Or.inl ⟨flushed, fun cause failed => by simp [Halt.FailedOutput] at failed⟩

theorem Interpreter.exists_flushed_of_run {interpreter : Interpreter} {fuel : Nat} {input : Input}
    {output : Output} {halt : Halt} (fresh : output.Flushed [])
    (ran : interpreter.run program fuel input output = some halt) :
    ∃ past last,
      Trail program interpreter.eof (interpreter.start input output) past last ∧
      past.length = halt.state.steps ∧
      (interpreter.Sized → step program interpreter.eof last = .halt halt) ∧
      (halt.state.machine.output.Flushed (emissions program past) ∧
          (∀ cause, halt.FailedOutput program cause → last.machine.output.WriteFails cause) ∨
        ∃ cause cell, halt.FailedOutput program cause ∧
          last.machine.tape.current? = some cell ∧
          (¬ ∃ earlier, last.machine.output.WriteFails earlier) ∧
          last.machine.output.FlushFails cause ∧
          halt.state.machine.output.Unflushed (emissions program past) cell) := by
  by_cases sized : interpreter.Sized
  · obtain ⟨past, last, trail, stopped⟩ := (exists_trail_of_run sized).mp ⟨fuel, ran⟩
    have stop := stop_of_step stopped
    refine ⟨past, last, trail, ?_, fun _ => stopped, stop.flushed (trail.flushed fresh)⟩
    rw [stop.steps_eq, trail.steps_eq]
    exact (Nat.zero_add _).symm
  · obtain ⟨ending, refused, rfl⟩ := halt_eq_of_unsized sized ran
    refine ⟨[], _, .start, rfl, fun sized' => absurd sized' sized, Or.inl ⟨fresh, ?_⟩⟩
    rintro cause ⟨failed, -⟩
    rcases refused with ⟨rfl, -⟩ | ⟨rfl, -⟩ <;> simp at failed

theorem run_flushes (program : Program) (interpreter : Interpreter) (input : Input)
    (writes : List WriteReply) (flushes : List FlushReply) :
    (∀ past state,
      Trail program interpreter.eof (interpreter.start input { writes, flushes }) past state →
        state.machine.output.Flushed (emissions program past) ∧
          (emissions program past).length =
            (executed program past).count (.simple .output)) ∧
    ∀ fuel halt, interpreter.run program fuel input { writes, flushes } = some halt →
      ∃ past last,
        Trail program interpreter.eof (interpreter.start input { writes, flushes }) past last ∧
        past.length = halt.state.steps ∧
        (interpreter.Sized → step program interpreter.eof last = .halt halt) ∧
        (halt.state.machine.output.Flushed (emissions program past) ∧
            (∀ cause, halt.FailedOutput program cause → last.machine.output.WriteFails cause) ∨
          ∃ cause cell, halt.FailedOutput program cause ∧
            last.machine.tape.current? = some cell ∧
            (¬ ∃ earlier, last.machine.output.WriteFails earlier) ∧
            last.machine.output.FlushFails cause ∧
            halt.state.machine.output.Unflushed (emissions program past) cell) := by
  have fresh : ({ writes, flushes } : Output).Flushed [] := ⟨rfl, rfl, rfl⟩
  exact ⟨fun past state trail => ⟨trail.flushed fresh, trail.length_emissions⟩,
    fun fuel halt ran => Interpreter.exists_flushed_of_run fresh ran⟩

example : (Interpreter.run ⟨1, .zero⟩ ⟨#[.simple .output], #[0], #[none], #[none]⟩ 1 []
    { flushes := [.failed (.ofKind .interrupted)] }).map (·.state.machine.output) =
      some { written := #[0], flushCount := 0, unflushed := 1 } := rfl

end Brainfuck
