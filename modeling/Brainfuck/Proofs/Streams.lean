import Brainfuck.Proofs.History

/-!
A step makes one call to a stream at most, and learns no more of the streams than the answer to
that call (`step_withStreams`), and of an answer to a read no more than the byte that the policy
stores for it (`step_withPolicy`).
-/

namespace Brainfuck

variable {program : Program} {eof policy : EofPolicy}

def Action.inputAfter (action : Action) (input : Input) : Input :=
  match action with
  | .input => input.readByte.2
  | _ => input

def Action.outputAfter (action : Action) (cell : UInt8) (output : Output) : Output :=
  match action with
  | .output => (output.emit cell).2
  | _ => output

namespace State

def action? (program : Program) (state : State) : Option (Action × UInt8) :=
  match program.instruction? state.ip, state.machine.tape.current? with
  | some (.simple action), some cell => some (action, cell)
  | _, _ => none

def inputAfter (program : Program) (state : State) : Input :=
  match state.action? program with
  | some (action, _) => action.inputAfter state.machine.input
  | none => state.machine.input

def outputAfter (program : Program) (state : State) : Output :=
  match state.action? program with
  | some (action, cell) => action.outputAfter cell state.machine.output
  | none => state.machine.output

theorem action?_eq_some_iff {state : State} {action : Action} {cell : UInt8} :
    state.action? program = some (action, cell) ↔
      program.instruction? state.ip = some (.simple action) ∧
        state.machine.tape.current? = some cell := by
  rw [action?]
  split
  · next here current => simp [here, current]
  · next other =>
      simp only [reduceCtorEq, false_iff, not_and]
      exact other action cell

end State

theorem step_of_action? {state : State} {action : Action} {cell : UInt8}
    (chosen : state.action? program = some (action, cell)) (eof : EofPolicy) :
    step program eof state =
      match state.machine.act eof state.ip action cell with
      | .done after => .next ⟨state.ip + 1, after, state.steps + 1⟩
      | .failed error after => .halt ⟨.failed error, state.ip, after, state.steps⟩ := by
  obtain ⟨here, current⟩ := State.action?_eq_some_iff.mp chosen
  cases acted : state.machine.act eof state.ip action cell with
  | done after => simp only [step, here, current, acted]
  | failed error after => simp only [step, here, current, acted]

theorem exists_current_of_next {state after : State}
    (moved : step program eof state = .next after) :
    ∃ cell, state.machine.tape.current? = some cell := by
  cases transition_of_step moved with
  | simple here current acted => exact ⟨_, current⟩
  | skip here zero partner => exact ⟨_, zero⟩
  | enter here current nonzero => exact ⟨_, current⟩
  | leave here zero => exact ⟨_, zero⟩
  | again here current nonzero partner => exact ⟨_, current⟩

theorem count_executed_concat {state : State} {cell : UInt8}
    (current : state.machine.tape.current? = some cell) (action : Action) (past : List State) :
    (executed program (past ++ [state])).count (.simple action) =
      (executed program past).count (.simple action) +
        if state.action? program = some (action, cell) then 1 else 0 := by
  cases here : program.instruction? state.ip with
  | none => simp [executed, State.action?_eq_some_iff, here]
  | some instruction =>
      simp [executed_concat here, State.action?_eq_some_iff, here, current, List.count_singleton]

def State.withStreams (state : State) (input : Input) (output : Output) : State :=
  ⟨state.ip, ⟨state.machine.tape, input, output⟩, state.steps⟩

theorem State.action?_withStreams (program : Program) (state : State) (input : Input)
    (output : Output) : (state.withStreams input output).action? program = state.action? program :=
  rfl

def Halt.withStreams (halt : Halt) (input : Input) (output : Output) : Halt :=
  ⟨halt.ending, halt.state.withStreams input output⟩

def Effect.withStreams (effect : Effect) (input : Input) (output : Output) : Effect :=
  match effect with
  | .done after => .done ⟨after.tape, input, output⟩
  | .failed error after => .failed error ⟨after.tape, input, output⟩

def Step.withStreams (result : Step) (input : Input) (output : Output) : Step :=
  match result with
  | .next after => .next (after.withStreams input output)
  | .halt final => .halt (final.withStreams input output)

def EofPolicy.stored (policy : EofPolicy) (cell : UInt8) (answer : Option UInt8) : UInt8 :=
  answer.getD (policy.fill cell)

theorem Acts.stored {ip : Nat} {cell : UInt8} {tape : Tape} {input rest : Input} {output : Output}
    {answer : Option UInt8} (read : input.readByte = (.ok answer, rest)) :
    Acts eof ip cell ⟨tape, input, output⟩ .input
      (.done ⟨tape.write (eof.stored cell answer), rest, output⟩) := by
  cases answer with
  | some byte => exact .read read
  | none => exact .fill read

theorem Input.exists_answer_of_map {input : Input} {store : Option UInt8 → UInt8} {byte : UInt8}
    (stores : input.readByte.1.map store = .ok byte) :
    ∃ answer, input.readByte = (.ok answer, input.readByte.2) ∧ store answer = byte := by
  rcases answered : input.readByte with ⟨cause | answer, rest⟩
  · simp [answered, Except.map] at stores
  · rw [answered] at stores
    exact ⟨answer, rfl, Except.ok.inj stores⟩

theorem Input.readByte_of_map_error {input : Input} {store : Option UInt8 → UInt8}
    {cause : Failure} (fails : input.readByte.1.map store = .error cause) :
    input.readByte = (.error cause, input.readByte.2) := by
  rcases answered : input.readByte with ⟨first | answer, rest⟩
  · rw [answered] at fails
    rw [Except.error.inj fails]
  · simp [answered, Except.map] at fails

theorem Acts.withStreams {ip : Nat} {cell : UInt8} {machine : Machine} {action : Action}
    {effect : Effect} (acts : Acts eof ip cell machine action effect) (input : Input)
    (output : Output)
    (reads : action = .input → input.readByte.1.map (policy.stored cell) =
      machine.input.readByte.1.map (eof.stored cell))
    (writes : action = .output → (output.emit cell).1 = (machine.output.emit cell).1) :
    Acts policy ip cell ⟨machine.tape, input, output⟩ action
      (effect.withStreams (action.inputAfter input) (action.outputAfter cell output)) := by
  cases acts with
  | right moves => exact .right moves
  | rightmost blocked => exact .rightmost blocked
  | left moves => exact .left moves
  | leftmost blocked => exact .leftmost blocked
  | increment => exact .increment
  | decrement => exact .decrement
  | emit sent =>
      have answer := writes rfl
      rw [sent] at answer
      exact .emit (Prod.ext answer rfl)
  | unsent failed =>
      have answer := writes rfl
      rw [failed] at answer
      exact .unsent (Prod.ext answer rfl)
  | read got =>
      have stores := reads rfl
      rw [got] at stores
      obtain ⟨answer, answered, rfl⟩ := Input.exists_answer_of_map stores
      exact .stored answered
  | fill ended =>
      have stores := reads rfl
      rw [ended] at stores
      obtain ⟨answer, answered, same : policy.stored cell answer = eof.fill cell⟩ :=
        Input.exists_answer_of_map stores
      exact same ▸ .stored answered
  | unread failed =>
      have fails := reads rfl
      rw [failed] at fails
      exact .unread (Input.readByte_of_map_error fails)

theorem Step.withStreams_jump (partner : Option Nat) (ip : Nat) (machine : Machine) (steps : Nat)
    (input : Input) (output : Output) :
    (jump partner ip machine steps).withStreams input output =
      jump partner ip ⟨machine.tape, input, output⟩ steps := by
  cases partner <;> rfl

theorem step_withPolicy {state : State} {input : Input} {output : Output}
    (reads : ∀ cell, state.action? program = some (.input, cell) →
      input.readByte.1.map (policy.stored cell) =
        state.machine.input.readByte.1.map (eof.stored cell))
    (writes : ∀ cell, state.action? program = some (.output, cell) →
      (output.emit cell).1 = (state.machine.output.emit cell).1) :
    step program policy (state.withStreams input output) =
      (step program eof state).withStreams ((state.withStreams input output).inputAfter program)
        ((state.withStreams input output).outputAfter program) := by
  obtain ⟨ip, machine, steps⟩ := state
  simp only [State.action?, State.withStreams, State.inputAfter, State.outputAfter, step]
    at reads writes ⊢
  cases here : program.instruction? ip with
  | none => rfl
  | some instruction =>
      cases current : machine.tape.current? with
      | none => cases instruction <;> rfl
      | some cell =>
          cases instruction with
          | simple action =>
              simp only [here, current, Option.some.injEq, Prod.mk.injEq] at reads writes ⊢
              have acts : Acts policy _ _ _ _ _ :=
                (machine.acts_act eof ip action cell).withStreams input output
                  (fun isInput => reads cell ⟨isInput, rfl⟩)
                  (fun isOutput => writes cell ⟨isOutput, rfl⟩)
              rw [acts.act_eq]
              cases machine.act eof ip action cell <;> rfl
          | loopStart =>
              dsimp only
              split
              · rw [Step.withStreams_jump]
              · rfl
          | loopEnd =>
              dsimp only
              split
              · rfl
              · rw [Step.withStreams_jump]

theorem step_withStreams {state : State} {input : Input} {output : Output}
    (reads : ∀ cell, state.action? program = some (.input, cell) →
      input.readByte.1 = state.machine.input.readByte.1)
    (writes : ∀ cell, state.action? program = some (.output, cell) →
      (output.emit cell).1 = (state.machine.output.emit cell).1) :
    step program eof (state.withStreams input output) =
      (step program eof state).withStreams ((state.withStreams input output).inputAfter program)
        ((state.withStreams input output).outputAfter program) :=
  step_withPolicy (fun cell chosen => by rw [reads cell chosen]) writes

theorem step_streams (program : Program) (eof : EofPolicy) (state : State) :
    step program eof state =
      (step program eof state).withStreams (state.inputAfter program)
        (state.outputAfter program) :=
  step_withStreams (fun _ _ => rfl) (fun _ _ => rfl)

theorem streams_of_next {state after : State} (moved : step program eof state = .next after) :
    after.machine.input = state.inputAfter program ∧
      after.machine.output = state.outputAfter program := by
  have same := step_streams program eof state
  rw [moved, Step.withStreams, Step.next.injEq] at same
  rw [same]
  exact ⟨rfl, rfl⟩

theorem streams_of_halt {state : State} {halt : Halt}
    (stopped : step program eof state = .halt halt) :
    halt.state.machine.input = state.inputAfter program ∧
      halt.state.machine.output = state.outputAfter program := by
  have same := step_streams program eof state
  rw [stopped, Step.withStreams, Step.halt.injEq] at same
  rw [same]
  exact ⟨rfl, rfl⟩

theorem runFrom_withStreams {alikeIn : Input → Input → Prop} {alikeOut : Output → Output → Prop}
    (reads : ∀ input other, alikeIn input other →
      other.readByte.1 = input.readByte.1 ∧ alikeIn input.readByte.2 other.readByte.2)
    (writes : ∀ output other byte, alikeOut output other →
      (other.emit byte).1 = (output.emit byte).1 ∧
        alikeOut (output.emit byte).2 (other.emit byte).2)
    (fuel : Nat) {state : State} {input : Input} {output : Output}
    (inputs : alikeIn state.machine.input input) (outputs : alikeOut state.machine.output output) :
    Option.Rel
      (fun halt halt' => ∃ input output, halt' = halt.withStreams input output ∧
        alikeIn halt.state.machine.input input ∧ alikeOut halt.state.machine.output output)
      (runFrom program eof fuel state)
      (runFrom program eof fuel (state.withStreams input output)) := by
  induction fuel generalizing state input output with
  | zero => exact .none
  | succ fuel ih =>
      -- One step on both sides: its call gets the same answer, and leaves streams that are alike.
      have stepped := @step_withStreams program eof state input output
        (fun _ _ => (reads _ _ inputs).1) (fun cell _ => (writes _ _ cell outputs).1)
      have inputs' : alikeIn (state.inputAfter program)
          ((state.withStreams input output).inputAfter program) := by
        simp only [State.inputAfter, State.action?_withStreams]
        split
        · next action cell chosen =>
            cases action with
            | input => exact (reads _ _ inputs).2
            | _ => exact inputs
        · exact inputs
      have outputs' : alikeOut (state.outputAfter program)
          ((state.withStreams input output).outputAfter program) := by
        simp only [State.outputAfter, State.action?_withStreams]
        split
        · next action cell chosen =>
            cases action with
            | output => exact (writes _ _ cell outputs).2
            | _ => exact outputs
        · exact outputs
      rw [runFrom, runFrom, stepped]
      cases result : step program eof state with
      | next after =>
          obtain ⟨input_eq, output_eq⟩ := streams_of_next result
          exact ih (input_eq ▸ inputs') (output_eq ▸ outputs')
      | halt final =>
          obtain ⟨input_eq, output_eq⟩ := streams_of_halt result
          exact .some ⟨_, _, rfl, input_eq ▸ inputs', output_eq ▸ outputs'⟩

end Brainfuck
