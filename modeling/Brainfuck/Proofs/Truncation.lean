import Brainfuck.Proofs.Flushing

/-!
A run learns nothing of its output but whether a byte has been sent. So a run whose output fails
follows the run with an output that never does (`Trail.follow`) up to the first byte not sent.
-/

namespace Brainfuck

namespace Output

def WriteFailsAt (output : Output) (bytes : Nat) (cause : Failure) : Prop :=
  (output.writes.filter (!·.interrupted))[bytes]? = some (.failed cause) ∨
    (output.writes.filter (!·.interrupted))[bytes]? = some .refused ∧ cause = nothingWritten

def FlushFailsAt (output : Output) (bytes : Nat) (cause : Failure) : Prop :=
  output.flushes[bytes]? = some (.failed cause)

def Completes (output : Output) (bytes : Nat) : Prop :=
  ∀ cause, ¬ output.WriteFailsAt bytes cause ∧ ¬ output.FlushFailsAt bytes cause

/-- What is left of the replies of an output that has sent so many `bytes`. -/
structure Sent (origin : Output) (bytes : Nat) (output : Output) : Prop where
  writes_eq : output.writes.filter (!·.interrupted) =
    (origin.writes.filter (!·.interrupted)).drop bytes
  flushes_eq : output.flushes = origin.flushes.drop bytes

theorem writeReply_ok {writes rest : List WriteReply}
    (replied : writeReply writes = (.ok (), rest)) :
    rest.filter (!·.interrupted) = (writes.filter (!·.interrupted)).drop 1 := by
  induction writes with
  | nil =>
      rw [writeReply, Prod.mk.injEq] at replied
      rw [← replied.2]
      rfl
  | cons reply writes ih =>
      cases reply with
      | accepted =>
          rw [writeReply, Prod.mk.injEq] at replied
          rw [← replied.2]
          rfl
      | refused => simp [writeReply] at replied
      | failed cause =>
          by_cases again : cause.interrupted
          · rw [writeReply, if_pos again] at replied
            rw [ih replied]
            simp [WriteReply.interrupted, again]
          · simp [writeReply, again] at replied

variable {origin output after : Output} {bytes : Nat} {byte : UInt8} {cause : Failure}

theorem writes_of_writeByte (wrote : output.writeByte byte = (.ok (), after)) :
    after.writes.filter (!·.interrupted) = (output.writes.filter (!·.interrupted)).drop 1 := by
  obtain ⟨writes, flushes, written, flushCount, unflushed⟩ := output
  simp only [writeByte] at wrote
  split at wrote
  · next replied =>
      rw [Prod.mk.injEq] at wrote
      rw [← wrote.2]
      exact writeReply_ok replied
  · simp at wrote

theorem replies_of_flush (flushed : output.flush = (.ok (), after)) :
    after.writes = output.writes ∧ after.flushes = output.flushes.tail := by
  rw [flush_of_flushes (not_fails_of_flush flushed), Prod.mk.injEq] at flushed
  rw [← flushed.2]
  exact ⟨rfl, rfl⟩

namespace Sent

theorem start (origin : Output) : origin.Sent 0 origin := ⟨rfl, rfl⟩

theorem emit_ok (sent : origin.Sent bytes output) (emitted : output.emit byte = (.ok (), after)) :
    origin.Sent (bytes + 1) after := by
  rw [emit] at emitted
  split at emitted
  · next written wrote =>
      obtain ⟨writes_eq, flushes_eq⟩ := replies_of_flush emitted
      refine ⟨?_, ?_⟩
      · rw [writes_eq, writes_of_writeByte wrote, sent.writes_eq, List.drop_drop]
      · rw [flushes_eq, flushes_of_writeByte wrote, sent.flushes_eq, List.tail_drop]
  · simp at emitted

theorem writeFails_iff (sent : origin.Sent bytes output) :
    output.WriteFails cause ↔ origin.WriteFailsAt bytes cause := by
  rw [WriteFails, WriteFailsAt, ← List.head?_filter, sent.writes_eq, List.head?_drop]

theorem flushFails_iff (sent : origin.Sent bytes output) :
    output.FlushFails cause ↔ origin.FlushFailsAt bytes cause := by
  rw [FlushFails, FlushFailsAt, sent.flushes_eq, List.head?_drop]

theorem completes_iff (sent : origin.Sent bytes output) :
    origin.Completes bytes ↔ ¬ ∃ cause, output.Fails cause := by
  simp only [Completes, Fails, ← sent.writeFails_iff, ← sent.flushFails_iff]
  constructor
  · rintro completes ⟨cause, writeFails | ⟨-, flushFails⟩⟩
    · exact (completes cause).1 writeFails
    · exact (completes cause).2 flushFails
  · intro fine cause
    have written : ¬ ∃ earlier, output.WriteFails earlier := by
      rintro ⟨earlier, fails⟩
      exact fine ⟨earlier, Or.inl fails⟩
    exact ⟨fun fails => written ⟨cause, fails⟩, fun fails => fine ⟨cause, Or.inr ⟨written, fails⟩⟩⟩

theorem exists_emit_ok (sent : origin.Sent bytes output) (completes : origin.Completes bytes)
    (byte : UInt8) : ∃ after, output.emit byte = (.ok (), after) := by
  cases emitted : output.emit byte with
  | mk result after =>
      cases result with
      | ok done => exact ⟨after, rfl⟩
      | error cause =>
          exact absurd ⟨cause, exists_emit_error_iff.mp ⟨after, emitted⟩⟩
            (sent.completes_iff.mp completes)

end Sent
end Output

variable {program : Program} {eof : EofPolicy} {start state : State} {past : List State}

theorem Trail.sent (trail : Trail program eof start past state) :
    start.machine.output.Sent (emissions program past).length state.machine.output := by
  induction trail with
  | start => exact .start _
  | @step past before after trail moved ih =>
      rw [emissions_concat]
      cases speaks : before.emission? program with
      | none =>
          rw [(streams_of_next moved).2, State.outputAfter_of_emission?_none speaks]
          simpa using ih
      | some cell => simpa using ih.emit_ok (emit_of_next speaks moved)

theorem State.emission?_withStreams (program : Program) (state : State) (input : Input)
    (output : Output) :
    (state.withStreams input output).emission? program = state.emission? program := rfl

theorem step_withOutput {output : Output}
    (same : ∀ cell, state.emission? program = some cell →
      (output.emit cell).1 = (state.machine.output.emit cell).1) (eof : EofPolicy) :
    step program eof (state.withStreams state.machine.input output) =
      (step program eof state).withStreams (state.inputAfter program)
        ((state.withStreams state.machine.input output).outputAfter program) :=
  step_withStreams (fun _ _ => rfl)
    fun cell chosen => same cell (State.emission?_eq_some_iff.mpr chosen)

theorem next_withOutput {after : State} (moved : step program eof state = .next after)
    (output : Output)
    (sends : ∀ cell, state.emission? program = some cell →
      ∃ sent, output.emit cell = (.ok (), sent)) :
    ∃ sent, step program eof (state.withStreams state.machine.input output) =
      .next (after.withStreams after.machine.input sent) := by
  have stepped := step_withOutput (fun cell speaks => by
    obtain ⟨sent, emitted⟩ := sends cell speaks
    rw [emitted, emit_of_next speaks moved]) eof
  rw [moved, ← (streams_of_next moved).1] at stepped
  exact ⟨_, stepped⟩

theorem halt_withOutput {halt : Halt} (stopped : step program eof state = .halt halt)
    (silent : state.emission? program = none) (output : Output) :
    step program eof (state.withStreams state.machine.input output) =
      .halt (halt.withStreams halt.state.machine.input output) := by
  have stepped := @step_withOutput program state output (by simp [silent]) eof
  rwa [stopped, ← (streams_of_halt stopped).1,
    State.outputAfter_of_emission?_none (by rwa [State.emission?_withStreams])] at stepped

theorem step_of_emission {cell : UInt8} (speaks : state.emission? program = some cell)
    (eof : EofPolicy) :
    step program eof state =
      match state.machine.output.emit cell with
      | (.ok _, sent) => .next ⟨state.ip + 1, ⟨state.machine.tape, state.machine.input, sent⟩,
          state.steps + 1⟩
      | (.error cause, unsent) => .halt ⟨.failed (.io state.ip cause), state.ip,
          ⟨state.machine.tape, state.machine.input, unsent⟩, state.steps⟩ := by
  obtain ⟨ip, ⟨tape, input, output⟩, steps⟩ := state
  rw [step_of_action? (State.emission?_eq_some_iff.mp speaks), Machine.act]
  dsimp only
  rcases output.emit cell with ⟨_ | _, _⟩ <;> rfl

theorem emission?_of_halt {halt : Halt} {origin : Output} {bytes : Nat}
    (sent : origin.Sent bytes state.machine.output) (completes : origin.Completes bytes)
    (stopped : step program eof state = .halt halt) : state.emission? program = none := by
  cases speaks : state.emission? program with
  | none => rfl
  | some cell =>
      obtain ⟨after, emitted⟩ := sent.exists_emit_ok completes cell
      rw [step_of_emission speaks, emitted] at stopped
      simp at stopped

theorem flushed_of_halt {halt : Halt} (trail : Trail program eof start past state)
    (fresh : start.machine.output.Flushed []) (stopped : step program eof state = .halt halt)
    (silent : state.emission? program = none) :
    halt.state.machine.output.Flushed (emissions program past) := by
  rw [(streams_of_halt stopped).2, State.outputAfter_of_emission?_none silent]
  exact trail.flushed fresh

theorem Trail.follow (trail : Trail program eof start past state) (sink : Output) :
    (∃ past' output,
      Trail program eof (start.withStreams start.machine.input sink) past'
        (state.withStreams state.machine.input output) ∧
      emissions program past' = emissions program past ∧
      ∀ j < (emissions program past).length, sink.Completes j) ∨
    ∃ past' last cell,
      Trail program eof (start.withStreams start.machine.input sink) past' last ∧
      last.emission? program = some cell ∧
      emissions program past' ++ [cell] <+: emissions program past ∧
      (∀ j < (emissions program past').length, sink.Completes j) ∧
      ¬ sink.Completes (emissions program past').length := by
  -- The other run takes the same steps up to a byte that its output does not send. It ends there,
  -- so that from then on the prefix of the emissions is all that is left to keep.
  induction trail with
  | start => exact Or.inl ⟨[], sink, .start, rfl, by simp [emissions]⟩
  | @step past before after trail moved ih =>
      rw [emissions_concat]
      rcases ih with ⟨past', output, followed, same, completes⟩ |
        ⟨past', last, cell, followed, speaks, isPrefix, completes, fails⟩
      · have sent : sink.Sent (emissions program past).length output := same ▸ followed.sent
        by_cases sends : ∀ cell, before.emission? program = some cell →
            sink.Completes (emissions program past).length
        · obtain ⟨after', moved'⟩ := next_withOutput moved output fun cell speaks =>
            sent.exists_emit_ok (sends cell speaks) cell
          refine Or.inl ⟨_, after', followed.step moved', ?_, fun j lt => ?_⟩
          · rw [emissions_concat, same, State.emission?_withStreams]
          · rcases Nat.lt_or_ge j (emissions program past).length with earlier | ge
            · exact completes j earlier
            · cases speaks : before.emission? program with
              | none => simp [speaks] at lt; omega
              | some cell =>
                  have latest : j = (emissions program past).length := by
                    simp [speaks] at lt
                    omega
                  exact latest ▸ sends cell speaks
        · push Not at sends
          obtain ⟨cell, speaks, fails⟩ := sends
          refine Or.inr ⟨past', _, cell, followed, speaks, ?_, ?_⟩
          · rw [same, speaks]
            exact List.prefix_rfl
          · rw [same]
            exact ⟨completes, fails⟩
      · exact Or.inr ⟨past', last, cell, followed, speaks,
          isPrefix.trans (List.prefix_append _ _), completes, fails⟩

theorem exists_halt_of_unsent {origin : Output} {cell : UInt8} {bytes : List UInt8}
    (sent : origin.Sent bytes.length state.machine.output)
    (fails : ¬ origin.Completes bytes.length) (flushed : state.machine.output.Flushed bytes)
    (speaks : state.emission? program = some cell) (eof : EofPolicy) :
    ∃ halt cause, step program eof state = .halt halt ∧
      halt.ending = .failed (.io state.ip cause) ∧
      (origin.WriteFailsAt bytes.length cause ∧
          halt.state.machine.output.written.toList = bytes ∨
        (∀ earlier, ¬ origin.WriteFailsAt bytes.length earlier) ∧
          origin.FlushFailsAt bytes.length cause ∧
          halt.state.machine.output.written.toList = bytes ++ [cell]) := by
  obtain ⟨cause, unsent⟩ : ∃ cause, state.machine.output.Fails cause := by
    rwa [sent.completes_iff, not_not] at fails
  obtain ⟨after, emitted⟩ : ∃ after, state.machine.output.emit cell = (.error cause, after) :=
    Output.exists_emit_error_iff.mpr unsent
  have stopped := step_of_emission speaks eof
  rw [emitted] at stopped
  refine ⟨_, cause, stopped, rfl, ?_⟩
  rcases flushed.emit_error emitted with ⟨writeFails, flushed⟩ | ⟨written, flushFails, left⟩
  · exact Or.inl ⟨sent.writeFails_iff.mp writeFails, flushed.written_eq⟩
  · exact Or.inr ⟨fun earlier writeFails => written ⟨earlier, sent.writeFails_iff.mpr writeFails⟩,
      sent.flushFails_iff.mp flushFails, left.written_eq⟩

/-- A run with an output that always sends, and the run with another one: both are the same, or
the other one ends at the first byte that it does not send. -/
theorem run_truncated (program : Program) (interpreter : Interpreter) (input : Input)
    {ideal : Output} (fresh : ideal.Flushed []) (reliable : ∀ bytes, ideal.Completes bytes)
    {fuel : Nat} {halt : Halt} (ran : interpreter.run program fuel input ideal = some halt)
    {sink : Output} (fresh' : sink.Flushed []) :
    ∃ fuel' halt', interpreter.run program fuel' input sink = some halt' ∧
      ((∀ j < halt.state.machine.output.written.size, sink.Completes j) ∧
          (∃ output, halt' = halt.withStreams halt.state.machine.input output ∧
            output.written = halt.state.machine.output.written ∧
            output.flushCount = halt.state.machine.output.flushCount) ∨
        ∃ past last cause j,
          Trail program interpreter.eof (interpreter.start input sink) past last ∧
          step program interpreter.eof last = .halt halt' ∧
          program.instruction? last.ip = some (.simple .output) ∧
          (executed program past).count (.simple .output) = j ∧
          j < halt.state.machine.output.written.size ∧
          (∀ i < j, sink.Completes i) ∧
          halt'.ending = .failed (.io last.ip cause) ∧
          (sink.WriteFailsAt j cause ∧ halt'.state.machine.output.written.toList =
              halt.state.machine.output.written.toList.take j ∨
            (∀ earlier, ¬ sink.WriteFailsAt j earlier) ∧ sink.FlushFailsAt j cause ∧
              halt'.state.machine.output.written.toList =
                halt.state.machine.output.written.toList.take (j + 1))) := by
  by_cases sized : interpreter.Sized
  · obtain ⟨past, last, trail, stopped⟩ :=
      (Interpreter.exists_trail_of_run sized).mp ⟨fuel, ran⟩
    have silent := emission?_of_halt trail.sent (reliable _) stopped
    have flushed := flushed_of_halt trail fresh stopped silent
    have size_eq : halt.state.machine.output.written.size = (emissions program past).length := by
      rw [← flushed.written_eq, Array.length_toList]
    rcases trail.follow sink with ⟨past', output, followed, same, completes⟩ |
      ⟨past', last', cell, followed, speaks, isPrefix, completes, fails⟩
    · -- Everything is sent, so the run ends where the one with the ideal output does.
      have flushed' := followed.flushed fresh'
      rw [same] at flushed'
      obtain ⟨fuel', ran'⟩ := (Interpreter.exists_trail_of_run sized).mpr
        ⟨past', _, followed, halt_withOutput stopped silent output⟩
      refine ⟨fuel', _, ran', Or.inl ⟨size_eq ▸ completes, output, rfl, ?_, ?_⟩⟩
      · exact Array.toList_inj.mp (flushed'.written_eq.trans flushed.written_eq.symm)
      · exact flushed'.flushCount_eq.trans flushed.flushCount_eq.symm
    · -- The run ends at the first byte that is not sent, which the ideal output has taken.
      obtain ⟨halt', cause, stopped', ending, left⟩ := exists_halt_of_unsent followed.sent fails
        (followed.flushed fresh') speaks interpreter.eof
      obtain ⟨fuel', ran'⟩ := (Interpreter.exists_trail_of_run sized).mpr
        ⟨past', _, followed, stopped'⟩
      have here := (State.action?_eq_some_iff.mp (State.emission?_eq_some_iff.mp speaks)).1
      refine ⟨fuel', halt', ran', Or.inr ⟨past', last', cause, (emissions program past').length,
        followed, stopped', here, followed.length_emissions.symm, ?_, completes, ending, ?_⟩⟩
      · rw [size_eq]
        simpa [Nat.succ_le_iff] using isPrefix.length_le
      · have unsent := List.prefix_iff_eq_take.mp isPrefix
        have sent := List.prefix_iff_eq_take.mp ((List.prefix_append _ _).trans isPrefix)
        rw [List.length_append, List.length_singleton] at unsent
        rw [flushed.written_eq, ← sent, ← unsent]
        exact left
  · obtain ⟨ending, -, runs⟩ := Interpreter.exists_refusal sized
    obtain rfl := Option.some.inj ((runs program fuel input ideal).symm.trans ran)
    have written : ideal.written = #[] := Array.toList_eq_nil_iff.mp fresh.written_eq
    have written' : sink.written = #[] := Array.toList_eq_nil_iff.mp fresh'.written_eq
    refine ⟨0, _, runs program 0 input sink, Or.inl ⟨?_, sink, rfl, ?_, ?_⟩⟩
    · simp [written]
    · exact written'.trans written.symm
    · exact fresh'.flushCount_eq.trans fresh.flushCount_eq.symm

theorem run_truncated_interrupted_flush :
    ∃ fuel halt ip, Interpreter.run ⟨1, .zero⟩
        ⟨#[.simple .output, .simple .increment, .simple .output], #[0, 1, 2],
          #[none, none, none], #[none, none, none]⟩ fuel []
        { flushes := [.flushed, .failed (.ofKind .interrupted)] } = some halt ∧
      halt.ending = .failed (.io ip (.ofKind .interrupted)) ∧
      halt.state.machine.output.written.toList = [0, 1] := by
  let program : Program := ⟨#[.simple .output, .simple .increment, .simple .output], #[0, 1, 2],
    #[none, none, none], #[none, none, none]⟩
  let sink : Output := { flushes := [.flushed, .failed (.ofKind .interrupted)] }
  have reliable (bytes : Nat) : ({} : Output).Completes bytes := fun cause =>
    ⟨by simp [Output.WriteFailsAt], by simp [Output.FlushFailsAt]⟩
  have unwritten (bytes : Nat) (cause : Failure) : ¬ sink.WriteFailsAt bytes cause := by
    simp [Output.WriteFailsAt, sink]
  obtain ⟨fuel, halt, ran, ⟨completes, -⟩ |
      ⟨past, last, cause, j, trail, stopped, here, count_eq, lt, before, ending, cut⟩⟩ :=
    run_truncated program ⟨1, .zero⟩ [] ⟨rfl, rfl, rfl⟩ reliable
      (show Interpreter.run ⟨1, .zero⟩ program 4 [] {} = some _ from rfl)
      (show sink.Flushed [] from ⟨rfl, rfl, rfl⟩)
  · exact absurd rfl (completes 1 (by decide) (.ofKind .interrupted)).2
  · rcases cut with ⟨writeFails, -⟩ | ⟨-, flushFails, written⟩
    · exact absurd writeFails (unwritten j cause)
    · obtain _ | _ | j := j
      · simp [Output.FlushFailsAt, sink] at flushFails
      · obtain rfl : Failure.ofKind .interrupted = cause := by
          simpa [Output.FlushFailsAt, sink] using flushFails
        exact ⟨fuel, halt, last.ip, ran, ending, written⟩
      · simp [Output.FlushFailsAt, sink] at flushFails

end Brainfuck
