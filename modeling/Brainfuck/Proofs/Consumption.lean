import Brainfuck.Proofs.Faults
import Brainfuck.Proofs.Streaming
import Brainfuck.Proofs.Streams

namespace Brainfuck

def Item.answer : Item → Except Failure (Option UInt8)
  | .byte value => .ok (some value)
  | .endOfStream => .ok none
  | .failure cause => .error cause

namespace Input

/-- What is left when calls that fail for the moment have been made again. -/
def pending (input : Input) : List Item := input.items.dropWhile Item.interrupted

def taken (input : Input) : List Item :=
  input.items.takeWhile Item.interrupted ++ input.pending.take 1

theorem pending_failure (cause : Failure) (input : Input) :
    pending (.failure cause :: input) =
      if cause.interrupted then pending input else .failure cause :: input.items := by
  rw [pending, items_cons]
  split
  · next again => exact List.dropWhile_cons_of_pos again
  · next reported => exact List.dropWhile_cons_of_neg reported

theorem readByte_eq_pending (input : Input) :
    (input.readByte.1, input.readByte.2.items) =
      match input.pending with
      | [] => (.ok none, [])
      | item :: rest => (item.answer, rest) := by
  induction input with
  | nil => rfl
  | cons event input ih =>
      cases event with
      | data bytes =>
          cases bytes with
          | nil => exact ih
          | cons byte bytes => rfl
      | endOfStream => rfl
      | failure cause =>
          rw [pending_failure, readByte]
          split
          · exact ih
          · rfl

theorem readByte_of_exhausted {input : Input} (exhausted : input.pending = []) :
    input.readByte.1 = .ok none ∧ input.readByte.2.items = [] := by
  have read := input.readByte_eq_pending
  rwa [exhausted, Prod.mk.injEq] at read

theorem readByte_of_pending {input : Input} {item : Item} {rest : List Item}
    (found : input.pending = item :: rest) :
    input.readByte.1 = item.answer ∧ input.readByte.2.items = rest := by
  have read := input.readByte_eq_pending
  rwa [found, Prod.mk.injEq] at read

theorem not_interrupted_of_pending {input : Input} {item : Item} {rest : List Item}
    (found : input.pending = item :: rest) : ¬ item.interrupted := by
  have head := List.head?_dropWhile_not Item.interrupted input.items
  rw [← pending, found] at head
  simpa using head

theorem taken_append (input : Input) : input.taken ++ input.readByte.2.items = input.items := by
  have split : input.items.takeWhile Item.interrupted ++ input.pending = input.items :=
    List.takeWhile_append_dropWhile
  cases found : input.pending with
  | nil => simpa [taken, found, (readByte_of_exhausted found).2] using split
  | cons item rest => simpa [taken, found, (readByte_of_pending found).2] using split

theorem countP_taken (input : Input) :
    input.taken.countP (!·.interrupted) + (if input.pending = [] then 1 else 0) = 1 := by
  have again : (input.items.takeWhile Item.interrupted).countP (!·.interrupted) = 0 := by
    rw [List.countP_eq_zero]
    intro item member
    simp [List.mem_takeWhile_imp member]
  rw [taken, List.countP_append, again]
  cases found : input.pending with
  | nil => simp
  | cons item rest => simp [not_interrupted_of_pending found]

theorem readByte_taken_append {input other : Input} {rest : List Item}
    (found : input.pending ≠ []) (items_eq : other.items = input.taken ++ rest) :
    other.readByte.1 = input.readByte.1 ∧ other.readByte.2.items = rest := by
  obtain ⟨item, behind, pending_eq⟩ := List.exists_cons_of_ne_nil found
  have reported := not_interrupted_of_pending pending_eq
  have other_eq : other.pending = item :: rest := by
    rw [pending, items_eq, taken, pending_eq, List.append_assoc,
      List.dropWhile_append_of_pos fun _ => List.mem_takeWhile_imp]
    exact List.dropWhile_cons_of_neg reported
  rw [(readByte_of_pending other_eq).1, (readByte_of_pending pending_eq).1]
  exact ⟨rfl, (readByte_of_pending other_eq).2⟩

end Input

variable {program : Program} {eof : EofPolicy} {start state : State} {past visited : List State}

namespace State

def consumption (program : Program) (state : State) : List Item :=
  match state.action? program with
  | some (.input, _) => state.machine.input.taken
  | _ => []

/-- The next step calls a reader that has come to its end for good. -/
def overreads (program : Program) (state : State) : Bool :=
  match state.action? program with
  | some (.input, _) => state.machine.input.pending.isEmpty
  | _ => false

theorem consumption_append (program : Program) (state : State) :
    state.consumption program ++ (state.inputAfter program).items = state.machine.input.items := by
  rw [consumption, inputAfter]
  cases state.action? program with
  | none => rfl
  | some chosen =>
      obtain ⟨action, cell⟩ := chosen
      cases action with
      | input => exact state.machine.input.taken_append
      | _ => rfl

theorem countP_consumption {cell : UInt8} (current : state.machine.tape.current? = some cell) :
    (state.consumption program).countP (!·.interrupted) +
        (if state.overreads program then 1 else 0) =
      if state.action? program = some (.input, cell) then 1 else 0 := by
  rw [consumption, overreads]
  cases chosen : state.action? program with
  | none => rfl
  | some found =>
      obtain ⟨action, byte⟩ := found
      obtain rfl : byte = cell :=
        Option.some.inj ((action?_eq_some_iff.mp chosen).2.symm.trans current)
      cases action with
      | input => simpa using state.machine.input.countP_taken
      | _ => rfl

end State

theorem step_replay {other : Input} {rest : List Item} (within : ¬ state.overreads program)
    (items_eq : other.items = state.consumption program ++ rest) (eof : EofPolicy) :
    ∃ left, left.items = rest ∧
      step program eof (state.withStreams other state.machine.output) =
        (step program eof state).withStreams left (state.outputAfter program) := by
  refine ⟨_, ?_, step_withStreams (fun cell chosen => ?_) fun _ _ => rfl⟩
  · rw [State.inputAfter, State.action?_withStreams]
    rw [State.consumption] at items_eq
    rw [State.overreads] at within
    cases chosen : state.action? program with
    | none => simpa [chosen, State.withStreams] using items_eq
    | some found =>
        obtain ⟨action, cell⟩ := found
        simp only [chosen] at within items_eq
        cases action with
        | input => exact (Input.readByte_taken_append (by simpa using within) items_eq).2
        | _ => exact items_eq
  · simp only [State.overreads, State.consumption, chosen] at within items_eq
    exact (Input.readByte_taken_append (by simpa using within) items_eq).1

def consumed (program : Program) (visited : List State) : List Item :=
  visited.flatMap (State.consumption program)

theorem consumed_concat (program : Program) (past : List State) (state : State) :
    consumed program (past ++ [state]) = consumed program past ++ state.consumption program := by
  simp [consumed]

theorem count_reads
    (current : ∀ state ∈ visited, ∃ cell, state.machine.tape.current? = some cell) :
    (consumed program visited).countP (!·.interrupted) +
        visited.countP (State.overreads program) =
      (executed program visited).count (.simple .input) := by
  induction visited using List.reverseRecOn with
  | nil => rfl
  | append_singleton past state ih =>
      rw [List.forall_mem_append, List.forall_mem_singleton] at current
      obtain ⟨earlier, cell, found⟩ := current
      rw [count_executed_concat found, ← ih earlier, ← State.countP_consumption found,
        consumed_concat, List.countP_append, List.countP_append, List.countP_singleton]
      omega

theorem Trail.items_eq (trail : Trail program eof start past state) :
    start.machine.input.items = consumed program past ++ state.machine.input.items := by
  induction trail with
  | start => rfl
  | @step past before after trail moved ih =>
      rw [ih, consumed_concat, (streams_of_next moved).1, List.append_assoc,
        State.consumption_append]

theorem Trail.exists_current (trail : Trail program eof start past state) :
    ∀ state ∈ past, ∃ cell, state.machine.tape.current? = some cell := by
  induction trail with
  | start => simp
  | step trail moved ih =>
      rw [List.forall_mem_append, List.forall_mem_singleton]
      exact ⟨ih, exists_current_of_next moved⟩

theorem Trail.replay (trail : Trail program eof start past state)
    (within : ∀ state ∈ past, ¬ state.overreads program) {other : Input} {rest : List Item}
    (items_eq : other.items = consumed program past ++ rest) :
    ∃ left, left.items = rest ∧
      Reaches program eof (start.withStreams other start.machine.output)
        (state.withStreams left state.machine.output) := by
  -- What the last step takes belongs to the rest of the steps before it.
  induction trail generalizing rest with
  | start => exact ⟨other, items_eq, .refl⟩
  | @step past before after trail moved ih =>
      rw [List.forall_mem_append, List.forall_mem_singleton] at within
      rw [consumed_concat, List.append_assoc] at items_eq
      obtain ⟨between, between_eq, reached⟩ := ih within.1 items_eq
      obtain ⟨left, left_eq, stepped⟩ := step_replay within.2 between_eq eof
      rw [moved, ← (streams_of_next moved).2] at stepped
      exact ⟨left, left_eq, reached.tail stepped⟩

theorem Interpreter.exists_taken_of_run {interpreter : Interpreter} {fuel : Nat} {input : Input}
    {output : Output} {halt : Halt}
    (ran : interpreter.run program fuel input output = some halt) :
    ∃ taken, input.items = taken ++ halt.state.machine.input.items := by
  by_cases sized : interpreter.Sized
  · obtain ⟨past, last, trail, stopped⟩ := (exists_trail_of_run sized).mp ⟨fuel, ran⟩
    refine ⟨consumed program (past ++ [last]), ?_⟩
    rw [consumed_concat, (streams_of_halt stopped).1, List.append_assoc,
      State.consumption_append, ← trail.items_eq]
    rfl
  · obtain ⟨ending, -, rfl⟩ := halt_eq_of_unsized sized ran
    exact ⟨[], rfl⟩

/-- Runs on one input, each from where the one before has stopped reading. -/
inductive InTurn : Input → List Halt → Prop
  | none {input : Input} : InTurn input []
  | run {program : Program} {interpreter : Interpreter} {fuel : Nat} {input : Input}
      {output : Output} {halt : Halt} {later : List Halt}
      (ran : interpreter.run program fuel input output = some halt)
      (rest : InTurn halt.state.machine.input later) : InTurn input (halt :: later)

theorem InTurn.exists_portions {input : Input} {halts : List Halt} (inTurn : InTurn input halts) :
    ∃ portions : List (List Item), portions.length = halts.length ∧
      ∀ (k : Nat) (halt : Halt), halts[k]? = some halt →
        input.items = (portions.take (k + 1)).flatten ++ halt.state.machine.input.items := by
  induction inTurn with
  | none => exact ⟨[], rfl, by simp⟩
  | @run _ _ _ _ _ first later ran _ ih =>
      obtain ⟨taken, items_eq⟩ := Interpreter.exists_taken_of_run ran
      obtain ⟨portions, length_eq, split⟩ := ih
      refine ⟨taken :: portions, by simp [length_eq], fun k halt found => ?_⟩
      cases k with
      | zero =>
          obtain rfl : first = halt := by simpa using found
          simpa using items_eq
      | succ k =>
          rw [items_eq, split k halt (by simpa using found)]
          simp

theorem run_consumes {source unread : Input} {program : Program}
    (loaded : Program.load source = (.ok program, unread)) (interpreter : Interpreter)
    (input : Input) (output : Output) :
    (interpreter.tapeSize = 0 → ∀ fuel, interpreter.run program fuel input output =
      some ⟨.failed .emptyTape, interpreter.start input output⟩) ∧
    (capacity < interpreter.tapeSize → ∀ fuel, interpreter.run program fuel input output =
      some ⟨.overflow, { machine := ⟨.blank 0, input, output⟩ }⟩) ∧
    (interpreter.Sized → ∀ halt,
      ((∃ fuel, interpreter.run program fuel input output = some halt) ↔
        ∃ past last, Trail program interpreter.eof (interpreter.start input output) past last ∧
          step program interpreter.eof last = .halt halt) ∧
      ∀ past last, Trail program interpreter.eof (interpreter.start input output) past last →
        step program interpreter.eof last = .halt halt →
        input.items = consumed program (past ++ [last]) ++ halt.state.machine.input.items ∧
        (consumed program (past ++ [last])).countP (!·.interrupted) +
            (past ++ [last]).countP (State.overreads program) =
          (executed program (past ++ [last])).count (.simple .input) ∧
        ((past ++ [last]).countP (State.overreads program) = 0 → ∀ other rest,
          other.items = consumed program (past ++ [last]) ++ rest →
          ∃ fuel left, left.items = rest ∧
            interpreter.run program fuel other output =
              some (halt.withStreams left halt.state.machine.output))) ∧
    ∀ halts, InTurn input halts → ∃ portions : List (List Item), portions.length = halts.length ∧
      ∀ (k : Nat) (halt : Halt), halts[k]? = some halt →
        input.items = (portions.take (k + 1)).flatten ++ halt.state.machine.input.items := by
  refine ⟨fun empty fuel => if_pos empty,
    fun oversize fuel => Interpreter.run_of_oversize oversize program fuel input output,
    fun sized halt => ?_, fun halts => InTurn.exists_portions⟩
  refine ⟨Interpreter.exists_trail_of_run sized, fun past last trail stopped => ?_⟩
  refine ⟨?_, ?_, fun within other rest items_eq => ?_⟩
  · rw [consumed_concat, (streams_of_halt stopped).1, List.append_assoc,
      State.consumption_append, ← trail.items_eq]
    rfl
  · apply count_reads
    rw [List.forall_mem_append, List.forall_mem_singleton]
    exact ⟨trail.exists_current, (Interpreter.fits_of_trail (Program.linked_of_load loaded)
      sized trail).exists_current⟩
  · rw [List.countP_eq_zero, List.forall_mem_append, List.forall_mem_singleton] at within
    rw [consumed_concat, List.append_assoc] at items_eq
    obtain ⟨between, between_eq, reached⟩ := trail.replay within.1 items_eq
    obtain ⟨left, left_eq, replayed⟩ := step_replay within.2 between_eq interpreter.eof
    rw [stopped, ← (streams_of_halt stopped).2] at replayed
    obtain ⟨fuel, ran⟩ := reached.halts replayed
    refine ⟨fuel, left, left_eq, ?_⟩
    rw [Interpreter.run_eq_runFrom sized]
    exact ran

theorem run_consumes_two_reads :
    ∃ program halt, Program.load [.data ([',', ','].map Char.toUInt8)] = (.ok program, []) ∧
      (∃ fuel, Interpreter.run ⟨1, .max⟩ program fuel
        [.failure (.ofKind .interrupted), .data [7], .endOfStream, .data [9]] {} = some halt) ∧
      ∃ fuel left, left.items = [.failure (.ofKind .other)] ∧
        Interpreter.run ⟨1, .max⟩ program fuel [.failure (.ofKind .interrupted), .data [7],
          .endOfStream, .failure (.ofKind .other)] {} = some (halt.withStreams left {}) := by
  let program : Program :=
    ⟨#[.simple .input, .simple .input], #[0, 1], #[none, none], #[none, none]⟩
  have loaded : Program.load [.data ([',', ','].map Char.toUInt8)] = (.ok program, []) := rfl
  let input : Input := [.failure (.ofKind .interrupted), .data [7], .endOfStream, .data [9]]
  let start : State := Interpreter.start ⟨1, .max⟩ input {}
  let between : State := ⟨1, ⟨⟨#[7], 0⟩, [.data [], .endOfStream, .data [9]], {}⟩, 1⟩
  let last : State := ⟨2, ⟨⟨#[255], 0⟩, [.data [9]], {}⟩, 2⟩
  have trail : Trail program .max start [start, between] last :=
    .step (.step .start rfl) rfl
  have sized : (⟨1, .max⟩ : Interpreter).Sized := ⟨by decide, by decide⟩
  have runs := (run_consumes loaded ⟨1, .max⟩ input {}).2.2.1 sized ⟨.finished, last⟩
  exact ⟨program, ⟨.finished, last⟩, loaded, runs.1.mpr ⟨_, _, trail, rfl⟩,
    (runs.2 _ _ trail rfl).2.2 rfl _ _ rfl⟩

end Brainfuck
