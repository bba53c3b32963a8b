import Brainfuck.Proofs.History
import Brainfuck.Proofs.Safety

namespace Brainfuck

def Item.interrupted : Item → Bool
  | .failure cause => cause.interrupted
  | _ => false

def WriteReply.interrupted : WriteReply → Bool
  | .failed cause => cause.interrupted
  | _ => false

/-- The first call that is not made again fails. -/
def Input.Fails (input : Input) (cause : Failure) : Prop :=
  input.items.find? (fun item => !item.interrupted) = some (.failure cause)

namespace Output

def WriteFails (output : Output) (cause : Failure) : Prop :=
  output.writes.find? (fun reply => !reply.interrupted) = some (.failed cause) ∨
    output.writes.find? (fun reply => !reply.interrupted) = some .refused ∧ cause = nothingWritten

def FlushFails (output : Output) (cause : Failure) : Prop :=
  output.flushes.head? = some (.failed cause)

def Fails (output : Output) (cause : Failure) : Prop :=
  output.WriteFails cause ∨ (¬ ∃ earlier, output.WriteFails earlier) ∧ output.FlushFails cause

end Output

theorem Input.exists_readByte_error_iff {input : Input} {cause : Failure} :
    (∃ rest, input.readByte = (.error cause, rest)) ↔ input.Fails cause := by
  induction input with
  | nil => simp [readByte, Fails, items]
  | cons event input ih =>
      rw [Fails] at ih ⊢
      rw [items, List.flatMap_cons, ← items]
      cases event with
      | data bytes =>
          cases bytes with
          | nil => exact ih
          | cons byte bytes => simp [readByte, Event.items, Item.interrupted]
      | endOfStream => simp [readByte, Event.items, Item.interrupted]
      | failure first =>
          by_cases again : first.interrupted
          · simpa [readByte, Event.items, Item.interrupted, again] using ih
          · simp [readByte, Event.items, Item.interrupted, again]

namespace Output

theorem exists_writeReply_error_iff {writes : List WriteReply} {cause : Failure} :
    (∃ rest, writeReply writes = (.error cause, rest)) ↔
      writes.find? (fun reply => !reply.interrupted) = some (.failed cause) ∨
        writes.find? (fun reply => !reply.interrupted) = some .refused ∧
          cause = nothingWritten := by
  induction writes with
  | nil => simp [writeReply]
  | cons reply writes ih =>
      cases reply with
      | accepted => simp [writeReply, WriteReply.interrupted]
      | refused => simp [writeReply, WriteReply.interrupted, eq_comm]
      | failed first =>
          by_cases again : first.interrupted
          · simpa [writeReply, WriteReply.interrupted, again] using ih
          · simp [writeReply, WriteReply.interrupted, again]

theorem exists_writeByte_error_iff {output : Output} {byte : UInt8} {cause : Failure} :
    (∃ after, output.writeByte byte = (.error cause, after)) ↔ output.WriteFails cause := by
  obtain ⟨writes, flushes, written, flushCount, unflushed⟩ := output
  rw [WriteFails, ← exists_writeReply_error_iff, writeByte]
  rcases writeReply writes with ⟨_ | _, rest⟩ <;> simp

theorem flushes_of_writeByte {output after : Output} {byte : UInt8}
    (wrote : output.writeByte byte = (.ok (), after)) : after.flushes = output.flushes := by
  obtain ⟨writes, flushes, written, flushCount, unflushed⟩ := output
  simp only [writeByte] at wrote
  split at wrote
  · rw [Prod.mk.injEq] at wrote
    rw [← wrote.2]
  · simp at wrote

theorem exists_flush_error_iff {output : Output} {cause : Failure} :
    (∃ after, output.flush = (.error cause, after)) ↔ output.FlushFails cause := by
  obtain ⟨writes, flushes, written, flushCount, unflushed⟩ := output
  rcases flushes with _ | ⟨_ | first, rest⟩ <;> simp [flush, FlushFails]

theorem exists_emit_error_iff {output : Output} {byte : UInt8} {cause : Failure} :
    (∃ after, output.emit byte = (.error cause, after)) ↔ output.Fails cause := by
  have writeFails (earlier : Failure) :
      (∃ after, output.writeByte byte = (.error earlier, after)) ↔ output.WriteFails earlier :=
    exists_writeByte_error_iff
  rw [Fails, emit]
  cases wrote : output.writeByte byte with
  | mk result after =>
      cases result with
      | ok done =>
          -- Only now is the flush called, and its answers are those from before the write.
          have writes : ∀ earlier, ¬ output.WriteFails earlier := by
            intro earlier fails
            obtain ⟨_, failed⟩ := (writeFails earlier).mpr fails
            simp [failed] at wrote
          have same : after.FlushFails cause ↔ output.FlushFails cause := by
            rw [FlushFails, FlushFails, flushes_of_writeByte wrote]
          simp only [writes, exists_false, not_false_eq_true, true_and, false_or, ← same]
          exact exists_flush_error_iff
      | error first =>
          have unwritten : ∃ earlier, output.WriteFails earlier :=
            ⟨first, (writeFails first).mp ⟨after, wrote⟩⟩
          rw [← writeFails, wrote]
          simp only [unwritten, not_true_eq_false, false_and, or_false]

end Output

theorem Tape.moveRight?_eq_none_iff {tape : Tape} :
    tape.moveRight? = none ↔ tape.size ≤ tape.pointer + 1 := by
  simp [Tape.moveRight?, Tape.size]

theorem Tape.moveLeft?_eq_none_iff {tape : Tape} : tape.moveLeft? = none ↔ tape.pointer = 0 := by
  obtain ⟨cells, _ | pointer⟩ := tape <;> simp [Tape.moveLeft?]

/-- The errors a run can end with when it comes to a state with the states of `past` behind it. -/
inductive Fault (program : Program) (size : Nat) (past : List State) (state : State) :
    RunError → Prop where
  | right (here : program.instruction? state.ip = some (.simple .right))
      (last : netMoves program past + 1 = size) :
      Fault program size past state (.outOfBounds state.ip (size - 1) '>')
  | left (here : program.instruction? state.ip = some (.simple .left))
      (first : netMoves program past - 1 = -1) :
      Fault program size past state (.outOfBounds state.ip 0 '<')
  | output {cause : Failure} (here : program.instruction? state.ip = some (.simple .output))
      (fails : state.machine.output.Fails cause) :
      Fault program size past state (.io state.ip cause)
  | input {cause : Failure} (here : program.instruction? state.ip = some (.simple .input))
      (fails : state.machine.input.Fails cause) :
      Fault program size past state (.io state.ip cause)

variable {program : Program} {eof : EofPolicy} {size : Nat} {past : List State} {state : State}

theorem Fault.exists_step {error : RunError} (fits : state.machine.tape.Fits size)
    (pointer_eq : (state.machine.tape.pointer : Int) = netMoves program past)
    (fault : Fault program size past state error) (eof : EofPolicy) :
    ∃ after, step program eof state = .halt ⟨.failed error, state.ip, after, state.steps⟩ := by
  obtain ⟨ip, ⟨tape, input, output⟩, steps⟩ := state
  obtain ⟨cell, current⟩ := fits.exists_current
  obtain ⟨size_eq, pointer_lt⟩ := fits
  dsimp only at size_eq pointer_lt pointer_eq
  cases fault with
  | right here last =>
      have blocked : tape.moveRight? = none := Tape.moveRight?_eq_none_iff.mpr (by omega)
      have position : size - 1 = tape.pointer := by omega
      rw [position]
      exact ⟨_, (Stop.failed here current (Acts.rightmost blocked).act_eq).step_eq⟩
  | left here first =>
      have position : tape.pointer = 0 := by omega
      have blocked : tape.moveLeft? = none := Tape.moveLeft?_eq_none_iff.mpr position
      rw [← position]
      exact ⟨_, (Stop.failed here current (Acts.leftmost blocked).act_eq).step_eq⟩
  | output here fails =>
      obtain ⟨emitted, failed⟩ : ∃ after, output.emit cell = (.error _, after) :=
        Output.exists_emit_error_iff.mpr fails
      exact ⟨_, (Stop.failed here current (Acts.unsent failed).act_eq).step_eq⟩
  | input here fails =>
      obtain ⟨rest, failed⟩ := Input.exists_readByte_error_iff.mpr fails
      exact ⟨_, (Stop.failed here current (Acts.unread failed).act_eq).step_eq⟩

theorem Fault.of_step {error : RunError} (fits : state.machine.tape.Fits size)
    (pointer_eq : (state.machine.tape.pointer : Int) = netMoves program past) {halt : Halt}
    (stopped : step program eof state = .halt halt) (failed : halt.ending = .failed error) :
    Fault program size past state error := by
  obtain ⟨size_eq, pointer_lt⟩ := fits
  cases stop_of_step stopped with
  | finished here => simp at failed
  | offTape here current => simp at failed
  | unended here zero partner => simp at failed
  | unbegun here current nonzero partner => simp at failed
  | failed here current acted =>
      rw [Ending.failed.injEq] at failed
      subst failed
      cases Machine.act_eq_iff.mp acted with
      | @rightmost tape input output blocked =>
          have outside := Tape.moveRight?_eq_none_iff.mp blocked
          dsimp only at size_eq pointer_lt pointer_eq
          have position : tape.pointer = size - 1 := by omega
          rw [position]
          exact .right here (by omega)
      | @leftmost tape input output blocked =>
          have position := Tape.moveLeft?_eq_none_iff.mp blocked
          dsimp only at pointer_eq
          rw [position] at pointer_eq ⊢
          exact .left here (by omega)
      | unsent failed => exact .output here (Output.exists_emit_error_iff.mp ⟨_, failed⟩)
      | unread failed => exact .input here (Input.exists_readByte_error_iff.mp ⟨_, failed⟩)

namespace Interpreter

variable {interpreter : Interpreter} {input : Input} {output : Output}

theorem fits_of_trail (linked : program.Linked) (sized : interpreter.Sized)
    (trail : Trail program interpreter.eof (interpreter.start input output) past state) :
    state.machine.tape.Fits interpreter.tapeSize :=
  have initial := interpreter.start_inBounds sized.nonempty program input output
  (trail.reaches.inBounds linked initial).tape

theorem run_of_fault (linked : program.Linked) (sized : interpreter.Sized)
    (trail : Trail program interpreter.eof (interpreter.start input output) past state)
    {error : RunError} (fault : Fault program interpreter.tapeSize past state error) :
    ∃ fuel halt, interpreter.run program fuel input output = some halt ∧
      halt.ending = .failed error ∧ halt.state.steps = past.length := by
  obtain ⟨after, stopped⟩ :=
    fault.exists_step (fits_of_trail linked sized trail) (trail.pointer_eq rfl) interpreter.eof
  obtain ⟨fuel, ran⟩ := trail.reaches.halts stopped
  rw [← run_eq_runFrom sized] at ran
  exact ⟨fuel, _, ran, rfl, trail.steps_eq.trans (Nat.zero_add _)⟩

theorem exists_fault_of_run (linked : program.Linked) (sized : interpreter.Sized)
    {fuel : Nat} {halt : Halt} (ran : interpreter.run program fuel input output = some halt)
    {error : RunError} (failed : halt.ending = .failed error) :
    ∃ past state, Trail program interpreter.eof (interpreter.start input output) past state ∧
      past.length = halt.state.steps ∧ Fault program interpreter.tapeSize past state error := by
  rw [run_eq_runFrom sized] at ran
  obtain ⟨last, reached, stopped⟩ := exists_reaches_of_runFrom ran
  obtain ⟨past, trail⟩ := reached.exists_trail
  refine ⟨past, last, trail, ?_,
    .of_step (fits_of_trail linked sized trail) (trail.pointer_eq rfl) stopped failed⟩
  rw [(stop_of_step stopped).steps_eq, trail.steps_eq]
  exact (Nat.zero_add _).symm

end Interpreter

theorem run_faults {source unread : Input} {program : Program}
    (loaded : Program.load source = (.ok program, unread)) (interpreter : Interpreter)
    (input : Input) (output : Output) :
    ((∃ fuel halt, interpreter.run program fuel input output = some halt ∧
        halt.ending = .failed .emptyTape) ↔ interpreter.tapeSize = 0) ∧
    (interpreter.tapeSize = 0 → ∀ fuel, ∃ halt,
      interpreter.run program fuel input output = some halt ∧ halt.ending = .failed .emptyTape ∧
        halt.state.machine.input = input ∧ halt.state.machine.output = output) ∧
    (interpreter.Sized →
      (∀ past state,
        Trail program interpreter.eof (interpreter.start input output) past state →
        (state.machine.tape.pointer : Int) = netMoves program past ∧
          state.machine.tape.pointer < interpreter.tapeSize ∧
          ∀ error, Fault program interpreter.tapeSize past state error →
            ∀ after, step program interpreter.eof state ≠ .next after) ∧
      (∀ error steps,
        (∃ fuel halt, interpreter.run program fuel input output = some halt ∧
          halt.ending = .failed error ∧ halt.state.steps = steps) ↔
        ∃ past state,
          Trail program interpreter.eof (interpreter.start input output) past state ∧
            past.length = steps ∧ Fault program interpreter.tapeSize past state error) ∧
      ∀ fuel halt, interpreter.run program fuel input output = some halt →
        halt.ending ≠ .stuck ∧ halt.ending ≠ .overflow) ∧
    (capacity < interpreter.tapeSize → ∀ fuel, ∃ halt,
      interpreter.run program fuel input output = some halt ∧ halt.ending = .overflow) := by
  have linked := Program.linked_of_load loaded
  refine ⟨⟨?_, fun empty => ?_⟩, fun empty fuel => ?_, fun sized => ⟨?_, ?_, ?_⟩,
    fun oversize fuel => ?_⟩
  · rintro ⟨fuel, halt, ran, failed⟩
    rcases Interpreter.sized_or_refused ran with sized | ⟨-, empty⟩ | ⟨overflow, -⟩
    · obtain ⟨past, state, -, -, fault⟩ := Interpreter.exists_fault_of_run linked sized ran failed
      cases fault
    · exact empty
    · simp [overflow] at failed
  · exact ⟨0, _, if_pos empty, rfl⟩
  · exact ⟨_, if_pos empty, rfl, rfl, rfl⟩
  · intro past state trail
    have fits := Interpreter.fits_of_trail linked sized trail
    have pointer_eq := trail.pointer_eq rfl
    refine ⟨pointer_eq, fits.pointer_lt, fun error fault after moved => ?_⟩
    obtain ⟨last, stopped⟩ := fault.exists_step fits pointer_eq interpreter.eof
    simp [stopped] at moved
  · intro error steps
    constructor
    · rintro ⟨fuel, halt, ran, failed, rfl⟩
      exact Interpreter.exists_fault_of_run linked sized ran failed
    · rintro ⟨past, state, trail, rfl, fault⟩
      exact Interpreter.run_of_fault linked sized trail fault
  · intro fuel halt ran
    exact ⟨Interpreter.not_stuck_of_run linked ran, Interpreter.not_overflow_of_run sized ran⟩
  · exact ⟨_, Interpreter.run_of_oversize oversize program fuel input output, rfl⟩

theorem run_faults_lost_input :
    ∃ program, Program.load [.data (['>', ',', '>'].map Char.toUInt8)] = (.ok program, []) ∧
      ∃ past state,
        Trail program .zero (Interpreter.start ⟨2, .zero⟩ [.failure (.ofKind .other)] {}) past
          state ∧
        past.length = 1 ∧ Fault program 2 past state (.io 1 (.ofKind .other)) := by
  let program : Program :=
    ⟨#[.simple .right, .simple .input, .simple .right], #[0, 1, 2], #[none, none, none],
      #[none, none, none]⟩
  have loaded :
      Program.load [.data (['>', ',', '>'].map Char.toUInt8)] = (.ok program, []) := rfl
  have sized : (⟨2, .zero⟩ : Interpreter).Sized := ⟨by decide, by decide⟩
  have faults := run_faults loaded ⟨2, .zero⟩ [.failure (.ofKind .other)] {}
  exact ⟨program, loaded, ((faults.2.2.1 sized).2.1 (.io 1 (.ofKind .other)) 1).mp
    ⟨3, _, rfl, rfl, rfl⟩⟩

end Brainfuck
