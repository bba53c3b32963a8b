import Brainfuck.Proofs.Consumption

namespace Brainfuck

/-- Data is cut in two, or nothing is added: no bytes, or a call that is to be made again. -/
inductive Input.Change : Input → Input → Prop
  | cut (front rest : Input) (first second : List UInt8) :
      Change (front ++ .data (first ++ second) :: rest)
        (front ++ .data first :: .data second :: rest)
  | empty (front rest : Input) : Change (front ++ rest) (front ++ .data [] :: rest)
  | interruption (front rest : Input) {cause : Failure} (again : cause.interrupted) :
      Change (front ++ rest) (front ++ .failure cause :: rest)

def Input.Alike : Input → Input → Prop := Relation.EqvGen Input.Change

def noticed (items : List Item) : List Item := items.filter (!·.interrupted)

theorem noticed_append (front rest : List Item) :
    noticed (front ++ rest) = noticed front ++ noticed rest :=
  List.filter_append ..

namespace Input

theorem Change.noticed_eq {input other : Input} (change : Change input other) :
    noticed other.items = noticed input.items := by
  cases change with
  | cut front rest first second => simp [items, Event.items]
  | empty front rest => simp [items, Event.items]
  | interruption front rest again => simp [items, Event.items, noticed, Item.interrupted, again]

theorem Alike.noticed_eq {input other : Input} (alike : input.Alike other) :
    noticed other.items = noticed input.items := by
  induction alike with
  | rel _ _ change => exact change.noticed_eq
  | refl _ => rfl
  | symm _ _ _ ih => exact ih.symm
  | trans _ _ _ _ _ first second => exact second.trans first

theorem noticed_items_eq (input : Input) :
    noticed input.items =
      match input.pending with
      | [] => []
      | item :: rest => item :: noticed rest := by
  have split : input.items.takeWhile Item.interrupted ++ input.pending = input.items :=
    List.takeWhile_append_dropWhile
  have skipped : noticed (input.items.takeWhile Item.interrupted) = [] := by
    rw [noticed, List.filter_eq_nil_iff]
    intro item member
    simp [List.mem_takeWhile_imp member]
  rw [← split, noticed_append, skipped, List.nil_append]
  cases found : input.pending with
  | nil => rfl
  | cons item rest => exact List.filter_cons_of_pos (by simp [not_interrupted_of_pending found])

theorem readByte_alike (input other : Input) (same : noticed other.items = noticed input.items) :
    other.readByte.1 = input.readByte.1 ∧
      noticed other.readByte.2.items = noticed input.readByte.2.items := by
  rw [input.noticed_items_eq, other.noticed_items_eq] at same
  cases found : input.pending with
  | nil =>
      cases found' : other.pending with
      | nil =>
          rw [(readByte_of_exhausted found).1, (readByte_of_exhausted found).2,
            (readByte_of_exhausted found').1, (readByte_of_exhausted found').2]
          exact ⟨rfl, rfl⟩
      | cons item' rest' => simp [found, found'] at same
  | cons item rest =>
      cases found' : other.pending with
      | nil => simp [found, found'] at same
      | cons item' rest' =>
          simp only [found, found', List.cons.injEq] at same
          rw [(readByte_of_pending found).1, (readByte_of_pending found).2,
            (readByte_of_pending found').1, (readByte_of_pending found').2, same.1]
          exact ⟨rfl, same.2⟩

theorem bytesLeft_eq (input : Input) :
    input.bytesLeft = (input.items.filterMap Item.byte?).length := by
  rw [bytesLeft, items, List.filterMap_flatMap]
  refine congrArg List.length (List.flatMap_congr fun event _ => ?_)
  cases event with
  | data bytes =>
      have same : Item.byte? ∘ Item.byte = some := rfl
      rw [Event.items, List.filterMap_map, same, List.filterMap_some]
  | endOfStream => rfl
  | failure cause => rfl

theorem filterMap_byte?_noticed (items : List Item) :
    (noticed items).filterMap Item.byte? = items.filterMap Item.byte? := by
  rw [noticed, List.filterMap_filter]
  congr 1
  funext item
  cases item with
  | byte value => rfl
  | endOfStream => rfl
  | failure cause => simp [Item.byte?]

theorem bytesLeft_alike {input other : Input} (same : noticed other.items = noticed input.items) :
    other.bytesLeft = input.bytesLeft := by
  rw [bytesLeft_eq, bytesLeft_eq, ← filterMap_byte?_noticed, same, filterMap_byte?_noticed]

end Input

namespace Output

def withoutInterruptions (output : Output) : Output :=
  { output with writes := output.writes.filter (!·.interrupted) }

theorem writeReply_filter (writes : List WriteReply) :
    writeReply (writes.filter (!·.interrupted)) =
      ((writeReply writes).1, (writeReply writes).2.filter (!·.interrupted)) := by
  induction writes with
  | nil => rfl
  | cons reply writes ih =>
      cases reply with
      | accepted => rfl
      | refused => rfl
      | failed cause =>
          by_cases again : cause.interrupted
          · simpa [writeReply, WriteReply.interrupted, again] using ih
          · simp [writeReply, WriteReply.interrupted, again]

theorem writeByte_withoutInterruptions (output : Output) (byte : UInt8) :
    output.withoutInterruptions.writeByte byte =
      ((output.writeByte byte).1, (output.writeByte byte).2.withoutInterruptions) := by
  obtain ⟨writes, flushes, written, flushCount, unflushed⟩ := output
  simp only [withoutInterruptions, writeByte, writeReply_filter]
  rcases writeReply writes with ⟨_ | _, rest⟩ <;> rfl

theorem flush_withoutInterruptions (output : Output) :
    output.withoutInterruptions.flush =
      (output.flush.1, output.flush.2.withoutInterruptions) := by
  obtain ⟨writes, flushes, written, flushCount, unflushed⟩ := output
  rcases flushes with _ | ⟨_ | _, rest⟩ <;> rfl

theorem emit_withoutInterruptions (output : Output) (byte : UInt8) :
    output.withoutInterruptions.emit byte =
      ((output.emit byte).1, (output.emit byte).2.withoutInterruptions) := by
  rw [emit, emit, writeByte_withoutInterruptions]
  rcases output.writeByte byte with ⟨_ | _, after⟩
  · rfl
  · exact after.flush_withoutInterruptions

theorem emit_alike (output other : Output) (byte : UInt8)
    (same : other.withoutInterruptions = output.withoutInterruptions) :
    (other.emit byte).1 = (output.emit byte).1 ∧
      (other.emit byte).2.withoutInterruptions = (output.emit byte).2.withoutInterruptions := by
  have emitted := other.emit_withoutInterruptions byte
  rw [same, emit_withoutInterruptions, Prod.mk.injEq] at emitted
  exact ⟨emitted.1.symm, emitted.2.symm⟩

end Output

theorem Scan.readItems_noticed (scan : Scan) (items : List Item) :
    scan.readItems (noticed items) =
      ((scan.readItems items).1, noticed (scan.readItems items).2) := by
  induction items generalizing scan with
  | nil => rfl
  | cons item items ih =>
      cases item with
      | byte value =>
          have kept : noticed (.byte value :: items) = .byte value :: noticed items := rfl
          rw [kept, readItems, readItems]
          cases scan.feed value with
          | ok next => exact ih next
          | error error => rfl
      | endOfStream => rfl
      | failure cause =>
          by_cases again : cause.interrupted
          · have skipped : noticed (.failure cause :: items) = noticed items := by
              simp [noticed, Item.interrupted, again]
            rw [skipped, readItems, if_pos again, ih]
          · have kept : noticed (.failure cause :: items) = .failure cause :: noticed items := by
              simp [noticed, Item.interrupted, again]
            rw [kept, readItems, readItems, if_neg again, if_neg again]

theorem Program.load_noticed (source : Input) :
    ({} : Scan).readItems (noticed source.items) =
      ((load source).1, noticed (load source).2.items) := by
  rw [Scan.readItems_noticed, ← Scan.read_eq_readItems]
  rfl

structure Outcome where
  ending : Ending
  tape : Tape
  steps : Nat
  written : Array UInt8
  flushCount : Nat
  unflushed : Nat
  bytesLeft : Nat

def Halt.outcome (halt : Halt) : Outcome where
  ending := halt.ending
  tape := halt.state.machine.tape
  steps := halt.state.steps
  written := halt.state.machine.output.written
  flushCount := halt.state.machine.output.flushCount
  unflushed := halt.state.machine.output.unflushed
  bytesLeft := halt.state.machine.input.bytesLeft

theorem Halt.outcome_withStreams {halt : Halt} {input : Input} {output : Output}
    (inputs : noticed input.items = noticed halt.state.machine.input.items)
    (outputs : output.withoutInterruptions =
      halt.state.machine.output.withoutInterruptions) :
    (halt.withStreams input output).outcome = halt.outcome := by
  rw [Output.withoutInterruptions, Output.withoutInterruptions, Output.mk.injEq] at outputs
  obtain ⟨-, -, written, flushCount, unflushed⟩ := outputs
  simp only [outcome, withStreams, State.withStreams, written, flushCount, unflushed,
    Input.bytesLeft_alike inputs]

private theorem map_eq_map_of_rel {α β : Type} {related : α → α → Prop} {view : α → β}
    (agree : ∀ first second, related first second → view second = view first)
    {first second : Option α} (rel : Option.Rel related first second) :
    second.map view = first.map view := by
  cases rel with
  | some here => exact congrArg some (agree _ _ here)
  | none => rfl

theorem Interpreter.run_alike (interpreter : Interpreter) (program : Program) (fuel : Nat)
    {input other : Input} {output sink : Output}
    (inputs : noticed other.items = noticed input.items)
    (outputs : sink.withoutInterruptions = output.withoutInterruptions) :
    (interpreter.run program fuel other sink).map Halt.outcome =
      (interpreter.run program fuel input output).map Halt.outcome := by
  by_cases sized : interpreter.Sized
  · rw [run_eq_runFrom sized, run_eq_runFrom sized]
    refine map_eq_map_of_rel ?_ (@runFrom_withStreams program interpreter.eof _ _
      Input.readByte_alike Output.emit_alike fuel (interpreter.start input output) other sink
      inputs outputs)
    rintro halt _ ⟨left, rest, rfl, inputs, outputs⟩
    exact Halt.outcome_withStreams inputs outputs
  · obtain ⟨ending, -, runs⟩ := exists_refusal sized
    rw [runs, runs]
    exact congrArg some (@Halt.outcome_withStreams
      ⟨ending, { machine := ⟨.blank 0, input, output⟩ }⟩ other sink inputs outputs)

theorem interruptions_unnoticed {source unread : Input} {program : Program}
    (loaded : Program.load source = (.ok program, unread)) (interpreter : Interpreter)
    (input : Input) (output : Output) :
    (∀ other sink, input.Alike other →
      sink.withoutInterruptions = output.withoutInterruptions →
      ∀ fuel, (interpreter.run program fuel other sink).map Halt.outcome =
        (interpreter.run program fuel input output).map Halt.outcome) ∧
    (∀ text other : Input, text.Alike other →
      (Program.load other).1 = (Program.load text).1 ∧
        (Program.load other).2.bytesLeft = (Program.load text).2.bytesLeft) ∧
    (interpreter.Sized → ∀ past state cause,
      Trail program interpreter.eof (interpreter.start input output) past state →
      program.instruction? state.ip = some (.simple .output) →
      (¬ ∃ earlier, state.machine.output.WriteFails earlier) →
      state.machine.output.FlushFails cause → cause.interrupted →
      ∃ fuel halt, interpreter.run program fuel input output = some halt ∧
        halt.ending = .failed (.io state.ip cause) ∧ halt.state.steps = past.length) := by
  refine ⟨fun other sink alike outputs fuel => ?_, fun text other alike => ?_,
    fun sized past state cause trail here written flushFails _ => ?_⟩
  · exact interpreter.run_alike program fuel alike.noticed_eq outputs
  · have loads := Program.load_noticed other
    rw [alike.noticed_eq, Program.load_noticed, Prod.mk.injEq] at loads
    exact ⟨loads.1.symm, Input.bytesLeft_alike loads.2.symm⟩
  · exact Interpreter.run_of_fault (Program.linked_of_load loaded) sized trail
      (.output here (Or.inr ⟨written, flushFails⟩))

theorem interruptions_unnoticed_echo :
    ∃ program, Program.load [.data ([',', '.'].map Char.toUInt8)] = (.ok program, []) ∧
      (Interpreter.run ⟨1, .zero⟩ program 3 [.data [7], .data [8]] {}).map Halt.outcome =
        (Interpreter.run ⟨1, .zero⟩ program 3 [.failure (.ofKind .interrupted), .data [7, 8]]
          { writes := [.failed (.ofKind .interrupted)] }).map Halt.outcome := by
  let program : Program :=
    ⟨#[.simple .input, .simple .output], #[0, 1], #[none, none], #[none, none]⟩
  have loaded : Program.load [.data ([',', '.'].map Char.toUInt8)] = (.ok program, []) := rfl
  have uninterrupted : Input.Alike [.failure (.ofKind .interrupted), .data [7, 8]]
      [.data [7, 8]] := .symm _ _ (.rel _ _ (.interruption [] _ rfl))
  have cut : Input.Alike [.data [7, 8]] [.data [7], .data [8]] := .rel _ _ (.cut [] [] [7] [8])
  exact ⟨program, loaded, (interruptions_unnoticed loaded ⟨1, .zero⟩
    [.failure (.ofKind .interrupted), .data [7, 8]]
    { writes := [.failed (.ofKind .interrupted)] }).1 _ {} (.trans _ _ _ uninterrupted cut) rfl 3⟩

end Brainfuck
