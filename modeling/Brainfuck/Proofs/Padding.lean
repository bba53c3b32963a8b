import Brainfuck.Proofs.Consumption

/-!
A policy shows in a run only where a read finds an end of the stream (`Trail.withPolicy`). One
that stores a fixed byte there does what every policy does on the input with that byte in place of
each end (`Trail.padded`).
-/

namespace Brainfuck

def EofPolicy.filler? : EofPolicy → Option UInt8
  | .zero => some 0
  | .unchanged => none
  | .max => some 255

theorem EofPolicy.fill_of_filler? {policy : EofPolicy} {value : UInt8}
    (filler : policy.filler? = some value) (cell : UInt8) : policy.fill cell = value := by
  cases policy with
  | zero => exact Option.some.inj filler
  | unchanged => simp [filler?] at filler
  | max => exact Option.some.inj filler

def Item.filled (value : UInt8) : Item → Item
  | .endOfStream => .byte value
  | item => item

/-- The other input has the byte for each end of the stream, and so many more behind. -/
def Input.Padded (value : UInt8) (count : Nat) (input other : Input) : Prop :=
  other.items = input.items.map (Item.filled value) ++ List.replicate count (.byte value)

theorem Item.interrupted_filled (value : UInt8) (item : Item) :
    (item.filled value).interrupted = item.interrupted := by
  cases item <;> rfl

theorem Item.stored_filled {eof : EofPolicy} {value : UInt8} (filler : eof.filler? = some value)
    (policy : EofPolicy) (cell : UInt8) (item : Item) :
    (item.filled value).answer.map (policy.stored cell) = item.answer.map (eof.stored cell) := by
  cases item with
  | byte other => rfl
  | endOfStream => exact congrArg Except.ok (EofPolicy.fill_of_filler? filler cell).symm
  | failure cause => rfl

namespace Input

variable {value : UInt8} {count : Nat} {input other : Input}

theorem Padded.pending_eq (padded : Padded value count input other) :
    other.pending = input.pending.map (Item.filled value) ++
      List.replicate count (.byte value) := by
  have same : Item.interrupted ∘ Item.filled value = Item.interrupted :=
    funext (Item.interrupted_filled value)
  have padding : (List.replicate count (Item.byte value)).dropWhile Item.interrupted =
      List.replicate count (.byte value) := by
    simp [Item.interrupted]
  rw [Padded] at padded
  rw [pending, padded, List.dropWhile_append, List.dropWhile_map, same, padding, pending]
  split
  · next exhausted => rw [List.isEmpty_iff.mp exhausted, List.nil_append]
  · rfl

theorem Padded.readByte {eof : EofPolicy} (filler : eof.filler? = some value)
    (padded : Padded value (count + if input.pending.isEmpty then 1 else 0) input other)
    (policy : EofPolicy) (cell : UInt8) :
    other.readByte.1.map (policy.stored cell) = input.readByte.1.map (eof.stored cell) ∧
      Padded value count input.readByte.2 other.readByte.2 := by
  have pending_eq := padded.pending_eq
  cases found : input.pending with
  | nil =>
      rw [found] at pending_eq
      obtain ⟨ended, rest_eq⟩ := readByte_of_exhausted found
      have padding : other.pending = .byte value :: List.replicate count (.byte value) := pending_eq
      obtain ⟨answer, behind⟩ := readByte_of_pending padding
      rw [answer, ended, Padded, behind, rest_eq]
      exact ⟨Item.stored_filled filler policy cell .endOfStream, rfl⟩
  | cons item rest =>
      rw [found] at pending_eq
      obtain ⟨answer, behind⟩ := readByte_of_pending pending_eq
      rw [answer, (readByte_of_pending found).1, Padded, behind, (readByte_of_pending found).2]
      exact ⟨Item.stored_filled filler policy cell item, rfl⟩

end Input

variable {program : Program} {eof : EofPolicy} {start state : State} {past : List State}

/-- The next step finds an end of the stream, be it marked in the input or behind it. -/
def State.ReadsEnd (program : Program) (state : State) : Prop :=
  ∃ cell, state.action? program = some (.input, cell) ∧ state.machine.input.readByte.1 = .ok none

theorem step_policy (within : ¬ state.ReadsEnd program) (eof policy : EofPolicy) :
    step program policy state = step program eof state := by
  have reads (cell : UInt8) (chosen : state.action? program = some (.input, cell)) :
      state.machine.input.readByte.1.map (policy.stored cell) =
        state.machine.input.readByte.1.map (eof.stored cell) := by
    rcases answered : state.machine.input.readByte.1 with cause | _ | byte
    · rfl
    · exact absurd ⟨cell, chosen, answered⟩ within
    · rfl
  rw [step_streams program eof state]
  exact step_withPolicy reads fun _ _ => rfl

theorem Trail.withPolicy (trail : Trail program eof start past state)
    (within : ∀ state ∈ past, ¬ state.ReadsEnd program) (policy : EofPolicy) :
    Trail program policy start past state := by
  induction trail with
  | start => exact .start
  | step trail moved ih =>
      rw [List.forall_mem_append, List.forall_mem_singleton] at within
      exact (ih within.1).step ((step_policy within.2 eof policy).trans moved)

theorem step_padded {value : UInt8} (filler : eof.filler? = some value) {count : Nat}
    {other : Input} (padded : Input.Padded value
      (count + if state.overreads program then 1 else 0) state.machine.input other)
    (policy : EofPolicy) :
    ∃ left, Input.Padded value count (state.inputAfter program) left ∧
      step program policy (state.withStreams other state.machine.output) =
        (step program eof state).withStreams left (state.outputAfter program) := by
  refine ⟨_, ?_, step_withPolicy (fun cell chosen => ?_) fun _ _ => rfl⟩
  · rw [State.inputAfter, State.inputAfter, State.action?_withStreams]
    rw [State.overreads] at padded
    cases chosen : state.action? program with
    | none => simpa [chosen, State.withStreams] using padded
    | some found =>
        obtain ⟨action, cell⟩ := found
        simp only [chosen] at padded
        cases action with
        | input => exact (padded.readByte filler policy cell).2
        | _ => exact padded
  · simp only [State.overreads, chosen] at padded
    exact (padded.readByte filler policy cell).1

theorem add_countP_overreads_concat (program : Program) (count : Nat) (past : List State)
    (state : State) :
    count + (past ++ [state]).countP (State.overreads program) =
      (count + if state.overreads program then 1 else 0) +
        past.countP (State.overreads program) := by
  rw [List.countP_append, List.countP_singleton, Nat.add_comm (past.countP _), Nat.add_assoc]

theorem Trail.padded (trail : Trail program eof start past state) {value : UInt8}
    (filler : eof.filler? = some value) {count : Nat} {other : Input}
    (padded : Input.Padded value (count + past.countP (State.overreads program))
      start.machine.input other) (policy : EofPolicy) :
    ∃ left, Input.Padded value count state.machine.input left ∧
      Reaches program policy (start.withStreams other start.machine.output)
        (state.withStreams left state.machine.output) := by
  -- What the last step takes of the padding is left over by the steps before it.
  induction trail generalizing count with
  | start => exact ⟨other, padded, .refl⟩
  | @step past before after trail moved ih =>
      rw [add_countP_overreads_concat] at padded
      obtain ⟨between, padded', reached⟩ := ih padded
      obtain ⟨left, padded'', stepped⟩ := step_padded filler padded' policy
      rw [moved, ← (streams_of_next moved).2] at stepped
      rw [(streams_of_next moved).1]
      exact ⟨left, padded'', reached.tail stepped⟩

namespace Interpreter

variable {interpreter : Interpreter} {input : Input} {output : Output} {visited : List State}
  {halt : Halt}

/-- The states that a run comes to until it halts. Without a tape there are none. -/
inductive Visits (interpreter : Interpreter) (program : Program) (input : Input)
    (output : Output) : List State → Halt → Prop where
  | refused (empty : interpreter.tapeSize = 0) :
      Visits interpreter program input output []
        ⟨.failed .emptyTape, interpreter.start input output⟩
  | overflowed (oversize : capacity < interpreter.tapeSize) :
      Visits interpreter program input output []
        ⟨.overflow, { machine := ⟨.blank 0, input, output⟩ }⟩
  | ran {past : List State} {last : State} {halt : Halt} (sized : interpreter.Sized)
      (trail : Trail program interpreter.eof (interpreter.start input output) past last)
      (stopped : step program interpreter.eof last = .halt halt) :
      Visits interpreter program input output (past ++ [last]) halt

theorem exists_run_iff_visits :
    (∃ fuel, interpreter.run program fuel input output = some halt) ↔
      ∃ visited, interpreter.Visits program input output visited halt := by
  constructor
  · rintro ⟨fuel, ran⟩
    by_cases sized : interpreter.Sized
    · obtain ⟨past, last, trail, stopped⟩ := (exists_trail_of_run sized).mp ⟨fuel, ran⟩
      exact ⟨_, .ran sized trail stopped⟩
    · obtain ⟨_, ⟨rfl, empty⟩ | ⟨rfl, oversize⟩, runs⟩ := exists_refusal sized
      · obtain rfl := Option.some.inj ((if_pos empty).symm.trans ran)
        exact ⟨[], .refused empty⟩
      · obtain rfl := Option.some.inj ((runs program fuel input output).symm.trans ran)
        exact ⟨[], .overflowed oversize⟩
  · rintro ⟨visited, visits⟩
    cases visits with
    | refused empty => exact ⟨0, if_pos empty⟩
    | overflowed oversize => exact ⟨0, run_of_oversize oversize program 0 input output⟩
    | ran sized trail stopped =>
        exact (exists_trail_of_run sized).mpr ⟨_, _, trail, stopped⟩

theorem Visits.run_policy (visits : interpreter.Visits program input output visited halt)
    (within : ∀ state ∈ visited, ¬ state.ReadsEnd program) (policy : EofPolicy) :
    ∃ fuel, run ⟨interpreter.tapeSize, policy⟩ program fuel input output = some halt := by
  rw [exists_run_iff_visits]
  cases visits with
  | refused empty => exact ⟨[], .refused empty⟩
  | overflowed oversize => exact ⟨[], .overflowed oversize⟩
  | ran sized trail stopped =>
      rw [List.forall_mem_append, List.forall_mem_singleton] at within
      exact ⟨_, .ran ⟨sized.nonempty, sized.fits⟩ (trail.withPolicy within.1 policy)
        ((step_policy within.2 interpreter.eof policy).trans stopped)⟩

theorem Visits.run_padded (visits : interpreter.Visits program input output visited halt)
    {value : UInt8} (filler : interpreter.eof.filler? = some value) {count : Nat} {other : Input}
    (padded : Input.Padded value (count + visited.countP (State.overreads program)) input other)
    (policy : EofPolicy) :
    ∃ fuel left, Input.Padded value count halt.state.machine.input left ∧
      run ⟨interpreter.tapeSize, policy⟩ program fuel other output =
        some (halt.withStreams left halt.state.machine.output) := by
  cases visits with
  | refused empty => exact ⟨0, other, padded, if_pos empty⟩
  | overflowed oversize =>
      exact ⟨0, other, padded, run_of_oversize oversize program 0 other output⟩
  | @ran past last _ sized trail stopped =>
      rw [add_countP_overreads_concat] at padded
      obtain ⟨between, padded', reached⟩ := trail.padded filler padded policy
      obtain ⟨left, padded'', stepped⟩ := step_padded filler padded' policy
      rw [stopped, ← (streams_of_halt stopped).2] at stepped
      rw [(streams_of_halt stopped).1]
      obtain ⟨fuel, ran⟩ := reached.halts stepped
      have sized' : (⟨interpreter.tapeSize, policy⟩ : Interpreter).Sized :=
        ⟨sized.nonempty, sized.fits⟩
      refine ⟨fuel, left, padded'', ?_⟩
      rw [run_eq_runFrom sized']
      exact ran

end Interpreter

theorem run_pads (program : Program) (interpreter : Interpreter) (input : Input)
    (output : Output) (halt : Halt) :
    ((∃ fuel, interpreter.run program fuel input output = some halt) ↔
      ∃ visited, interpreter.Visits program input output visited halt) ∧
    ∀ visited, interpreter.Visits program input output visited halt →
      ((∀ state ∈ visited, ¬ state.ReadsEnd program) → ∀ policy, ∃ fuel,
        Interpreter.run ⟨interpreter.tapeSize, policy⟩ program fuel input output = some halt) ∧
      ∀ value, interpreter.eof.filler? = some value → ∀ count other,
        Input.Padded value (count + visited.countP (State.overreads program)) input other →
        ∀ policy, ∃ fuel left, Input.Padded value count halt.state.machine.input left ∧
          Interpreter.run ⟨interpreter.tapeSize, policy⟩ program fuel other output =
            some (halt.withStreams left halt.state.machine.output) := by
  refine ⟨Interpreter.exists_run_iff_visits, fun visited visits => ⟨visits.run_policy, ?_⟩⟩
  intro value filler count other padded
  exact visits.run_padded filler padded

theorem run_pads_two_reads :
    ∃ program, Program.load [.data ([',', ','].map Char.toUInt8)] = (.ok program, []) ∧
      (∃ fuel, Interpreter.run ⟨1, .max⟩ program fuel [.data [7, 8]] {} =
        some ⟨.finished, ⟨2, ⟨⟨#[8], 0⟩, [.data []], {}⟩, 2⟩⟩) ∧
      ∃ fuel left, left.items = [] ∧
        Interpreter.run ⟨1, .unchanged⟩ program fuel [.data [255, 255]] {} =
          some ⟨.finished, ⟨2, ⟨⟨#[255], 0⟩, left, {}⟩, 2⟩⟩ := by
  let program : Program :=
    ⟨#[.simple .input, .simple .input], #[0, 1], #[none, none], #[none, none]⟩
  let halt (byte : UInt8) (left : Input) : Halt :=
    ⟨.finished, ⟨2, ⟨⟨#[byte], 0⟩, left, {}⟩, 2⟩⟩
  refine ⟨program, rfl, ?_, ?_⟩
  · have trail : Trail program .unchanged (Interpreter.start ⟨1, .unchanged⟩ [.data [7, 8]] {})
        [_, _] (halt 8 [.data []]).state := .step (.step .start rfl) rfl
    have sized : (⟨1, .unchanged⟩ : Interpreter).Sized := ⟨by decide, by decide⟩
    refine ((run_pads program _ _ _ (halt 8 [.data []])).2 _ (.ran sized trail rfl)).1 ?_ .max
    rintro state member ⟨cell, chosen, ended⟩
    simp only [List.cons_append, List.nil_append, List.mem_cons, List.not_mem_nil, or_false]
      at member
    rcases member with rfl | rfl | rfl
    · cases ended
    · cases ended
    · cases chosen
  · have trail : Trail program .max (Interpreter.start ⟨1, .max⟩ [.endOfStream] {})
        [_, _] (halt 255 []).state := .step (.step .start rfl) rfl
    have sized : (⟨1, .max⟩ : Interpreter).Sized := ⟨by decide, by decide⟩
    obtain ⟨fuel, left, padded, ran⟩ :=
      ((run_pads program _ _ _ (halt 255 [])).2 _ (.ran sized trail rfl)).2 255 rfl 0
        [.data [255, 255]] rfl .unchanged
    exact ⟨fuel, left, padded, ran⟩

end Brainfuck
