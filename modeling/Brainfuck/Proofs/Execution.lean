import Brainfuck.Machine.Run
import Mathlib.Logic.Relation

namespace Brainfuck

variable {program : Program} {eof : EofPolicy}

inductive Transition (program : Program) (eof : EofPolicy) : State → State → Prop where
  | simple {ip steps : Nat} {machine after : Machine} {action : Action} {cell : UInt8}
      (here : program.instruction? ip = some (.simple action))
      (current : machine.tape.current? = some cell)
      (acted : machine.act eof ip action cell = .done after) :
      Transition program eof ⟨ip, machine, steps⟩ ⟨ip + 1, after, steps + 1⟩
  | skip {ip steps close : Nat} {machine : Machine}
      (here : program.instruction? ip = some .loopStart)
      (zero : machine.tape.current? = some 0) (partner : program.forward ip = some close) :
      Transition program eof ⟨ip, machine, steps⟩ ⟨close + 1, machine, steps + 1⟩
  | enter {ip steps : Nat} {machine : Machine} {cell : UInt8}
      (here : program.instruction? ip = some .loopStart)
      (current : machine.tape.current? = some cell) (nonzero : cell ≠ 0) :
      Transition program eof ⟨ip, machine, steps⟩ ⟨ip + 1, machine, steps + 1⟩
  | leave {ip steps : Nat} {machine : Machine}
      (here : program.instruction? ip = some .loopEnd)
      (zero : machine.tape.current? = some 0) :
      Transition program eof ⟨ip, machine, steps⟩ ⟨ip + 1, machine, steps + 1⟩
  | again {ip steps opening : Nat} {machine : Machine} {cell : UInt8}
      (here : program.instruction? ip = some .loopEnd)
      (current : machine.tape.current? = some cell) (nonzero : cell ≠ 0)
      (partner : program.backward ip = some opening) :
      Transition program eof ⟨ip, machine, steps⟩ ⟨opening + 1, machine, steps + 1⟩

inductive Stop (program : Program) (eof : EofPolicy) : State → Halt → Prop where
  | finished {ip steps : Nat} {machine : Machine} (here : program.instruction? ip = none) :
      Stop program eof ⟨ip, machine, steps⟩ ⟨.finished, ip, machine, steps⟩
  | failed {ip steps : Nat} {machine after : Machine} {action : Action} {cell : UInt8}
      {error : RunError} (here : program.instruction? ip = some (.simple action))
      (current : machine.tape.current? = some cell)
      (acted : machine.act eof ip action cell = .failed error after) :
      Stop program eof ⟨ip, machine, steps⟩ ⟨.failed error, ip, after, steps⟩
  | offTape {ip steps : Nat} {machine : Machine} {instruction : Instruction}
      (here : program.instruction? ip = some instruction)
      (current : machine.tape.current? = none) :
      Stop program eof ⟨ip, machine, steps⟩ ⟨.stuck, ip, machine, steps⟩
  | unended {ip steps : Nat} {machine : Machine}
      (here : program.instruction? ip = some .loopStart)
      (zero : machine.tape.current? = some 0) (partner : program.forward ip = none) :
      Stop program eof ⟨ip, machine, steps⟩ ⟨.stuck, ip, machine, steps⟩
  | unbegun {ip steps : Nat} {machine : Machine} {cell : UInt8}
      (here : program.instruction? ip = some .loopEnd)
      (current : machine.tape.current? = some cell) (nonzero : cell ≠ 0)
      (partner : program.backward ip = none) :
      Stop program eof ⟨ip, machine, steps⟩ ⟨.stuck, ip, machine, steps⟩

theorem Transition.step_eq {before after : State} (moved : Transition program eof before after) :
    step program eof before = .next after := by
  cases moved with
  | simple here current acted => simp only [step, here, current, acted]
  | skip here zero partner => simp only [step, here, zero, partner, Step.jump, if_pos]
  | enter here current nonzero => simp only [step, here, current, if_neg nonzero]
  | leave here zero => simp only [step, here, zero, if_pos]
  | again here current nonzero partner =>
      simp only [step, here, current, partner, Step.jump, if_neg nonzero]

theorem Stop.step_eq {state : State} {halt : Halt} (stop : Stop program eof state halt) :
    step program eof state = .halt halt := by
  cases stop with
  | finished here => simp only [step, here]
  | failed here current acted => simp only [step, here, current, acted]
  | offTape here current => simp only [step, here, current]
  | unended here zero partner => simp only [step, here, zero, partner, Step.jump, if_pos]
  | unbegun here current nonzero partner =>
      simp only [step, here, current, partner, Step.jump, if_neg nonzero]

theorem transition_or_stop (program : Program) (eof : EofPolicy) (state : State) :
    (∃ after, Transition program eof state after) ∨ ∃ halt, Stop program eof state halt := by
  obtain ⟨ip, machine, steps⟩ := state
  cases here : program.instruction? ip with
  | none => exact Or.inr ⟨_, .finished here⟩
  | some instruction =>
      cases current : machine.tape.current? with
      | none => exact Or.inr ⟨_, .offTape here current⟩
      | some cell =>
          cases instruction with
          | simple action =>
              cases acted : machine.act eof ip action cell with
              | done after => exact Or.inl ⟨_, .simple here current acted⟩
              | failed error after => exact Or.inr ⟨_, .failed here current acted⟩
          | loopStart =>
              by_cases zero : cell = 0
              · subst zero
                cases partner : program.forward ip with
                | some close => exact Or.inl ⟨_, .skip here current partner⟩
                | none => exact Or.inr ⟨_, .unended here current partner⟩
              · exact Or.inl ⟨_, .enter here current zero⟩
          | loopEnd =>
              by_cases zero : cell = 0
              · subst zero
                exact Or.inl ⟨_, .leave here current⟩
              · cases partner : program.backward ip with
                | some opening => exact Or.inl ⟨_, .again here current zero partner⟩
                | none => exact Or.inr ⟨_, .unbegun here current zero partner⟩

theorem transition_of_step {before after : State} (moved : step program eof before = .next after) :
    Transition program eof before after := by
  rcases transition_or_stop program eof before with ⟨after', transition⟩ | ⟨halt, stop⟩
  · have same := transition.step_eq.symm.trans moved
    rw [Step.next.injEq] at same
    exact same ▸ transition
  · have same := stop.step_eq.symm.trans moved
    simp at same

theorem stop_of_step {state : State} {halt : Halt} (stopped : step program eof state = .halt halt) :
    Stop program eof state halt := by
  rcases transition_or_stop program eof state with ⟨after, transition⟩ | ⟨halt', stop⟩
  · have same := transition.step_eq.symm.trans stopped
    simp at same
  · have same := stop.step_eq.symm.trans stopped
    rw [Step.halt.injEq] at same
    exact same ▸ stop

def Reaches (program : Program) (eof : EofPolicy) : State → State → Prop :=
  Relation.ReflTransGen fun before after => step program eof before = .next after

def Halts (program : Program) (eof : EofPolicy) (state : State) (halt : Halt) : Prop :=
  ∃ fuel, runFrom program eof fuel state = some halt

theorem Transition.reaches {before after : State} (moved : Transition program eof before after) :
    Reaches program eof before after :=
  .single moved.step_eq

theorem Stop.halts {state : State} {halt : Halt} (stop : Stop program eof state halt) :
    Halts program eof state halt :=
  ⟨1, by rw [runFrom, stop.step_eq]⟩

theorem runFrom_congr {first second : State}
    (same : step program eof first = step program eof second) (fuel : Nat) :
    runFrom program eof fuel first = runFrom program eof fuel second := by
  cases fuel with
  | zero => rfl
  | succ fuel => rw [runFrom, runFrom, same]

theorem Transition.exists_runFrom {before after : State} {fuel : Nat} {halt : Halt}
    (moved : Transition program eof before after)
    (ran : runFrom program eof fuel before = some halt) :
    ∃ less, less < fuel ∧ runFrom program eof less after = some halt := by
  cases fuel with
  | zero => simp [runFrom] at ran
  | succ fuel =>
      rw [runFrom, moved.step_eq] at ran
      exact ⟨fuel, Nat.lt_succ_self fuel, ran⟩

theorem Transition.halts_iff {before after : State} {halt : Halt}
    (moved : Transition program eof before after) :
    Halts program eof before halt ↔ Halts program eof after halt := by
  constructor
  · rintro ⟨fuel, ran⟩
    obtain ⟨less, _, ran⟩ := moved.exists_runFrom ran
    exact ⟨less, ran⟩
  · rintro ⟨fuel, ran⟩
    exact ⟨fuel + 1, by rw [runFrom, moved.step_eq]; exact ran⟩

theorem Stop.eq_of_runFrom {state : State} {fuel : Nat} {halt halt' : Halt}
    (stop : Stop program eof state halt) (ran : runFrom program eof fuel state = some halt') :
    halt' = halt := by
  cases fuel with
  | zero => simp [runFrom] at ran
  | succ fuel =>
      rw [runFrom, stop.step_eq, Option.some.injEq] at ran
      exact ran.symm

theorem exists_reaches_of_runFrom {fuel : Nat} {state : State} {halt : Halt}
    (ran : runFrom program eof fuel state = some halt) :
    ∃ last, Reaches program eof state last ∧ step program eof last = .halt halt := by
  induction fuel generalizing state with
  | zero => simp [runFrom] at ran
  | succ fuel ih =>
      rw [runFrom] at ran
      split at ran
      · next after moved =>
          obtain ⟨last, reached, stopped⟩ := ih ran
          exact ⟨last, reached.head moved, stopped⟩
      · next last stopped =>
          rw [Option.some.injEq] at ran
          exact ⟨state, .refl, ran ▸ stopped⟩

theorem Reaches.exists_runFrom {before after : State} {fuel : Nat} {halt : Halt}
    (reached : Reaches program eof before after)
    (ran : runFrom program eof fuel before = some halt) :
    ∃ less, less ≤ fuel ∧ runFrom program eof less after = some halt := by
  induction reached with
  | refl => exact ⟨fuel, Nat.le_refl fuel, ran⟩
  | tail _ moved ih =>
      obtain ⟨less, le, ran⟩ := ih
      obtain ⟨least, lt, ran⟩ := (transition_of_step moved).exists_runFrom ran
      exact ⟨least, Nat.le_trans (Nat.le_of_lt lt) le, ran⟩

theorem Reaches.halts_iff {before after : State} {halt : Halt}
    (reached : Reaches program eof before after) :
    Halts program eof before halt ↔ Halts program eof after halt := by
  induction reached with
  | refl => exact Iff.rfl
  | tail _ moved ih => exact ih.trans (transition_of_step moved).halts_iff

theorem Reaches.halts {state last : State} {halt : Halt}
    (reached : Reaches program eof state last) (stopped : step program eof last = .halt halt) :
    Halts program eof state halt :=
  reached.halts_iff.mpr (stop_of_step stopped).halts

theorem Halts.unique {state : State} {halt halt' : Halt} (halts : Halts program eof state halt)
    (halts' : Halts program eof state halt') : halt' = halt := by
  obtain ⟨fuel, ran⟩ := halts
  obtain ⟨last, reached, stopped⟩ := exists_reaches_of_runFrom ran
  obtain ⟨fuel', ran'⟩ := reached.halts_iff.mp halts'
  exact (stop_of_step stopped).eq_of_runFrom ran'

namespace Interpreter

variable {interpreter : Interpreter}

/-- There is a tape of the size asked for. -/
structure Sized (interpreter : Interpreter) : Prop where
  nonempty : 0 < interpreter.tapeSize
  fits : interpreter.tapeSize ≤ capacity

theorem Sized.new?_eq (sized : interpreter.Sized) :
    Tape.new? interpreter.tapeSize = some (.blank interpreter.tapeSize) :=
  if_pos sized.fits

theorem run_eq_runFrom (sized : interpreter.Sized) (program : Program) (fuel : Nat)
    (input : Input) (output : Output) :
    interpreter.run program fuel input output =
      runFrom program interpreter.eof fuel (interpreter.start input output) := by
  rw [run, if_neg (Nat.ne_of_gt sized.nonempty), sized.new?_eq]
  rfl

theorem run_of_oversize (oversize : capacity < interpreter.tapeSize) (program : Program)
    (fuel : Nat) (input : Input) (output : Output) :
    interpreter.run program fuel input output =
      some ⟨.overflow, { machine := ⟨.blank 0, input, output⟩ }⟩ := by
  have nonempty : interpreter.tapeSize ≠ 0 := Nat.ne_of_gt (Nat.zero_lt_of_lt oversize)
  have unmade : Tape.new? interpreter.tapeSize = none := if_neg (Nat.not_le.mpr oversize)
  rw [run, if_neg nonempty, unmade]

theorem run_of_empty (empty : interpreter.tapeSize = 0) (program : Program) (fuel : Nat)
    (input : Input) (output : Output) :
    interpreter.run program fuel input output =
      some ⟨.failed .emptyTape, { machine := ⟨.blank 0, input, output⟩ }⟩ := by
  rw [run, if_pos empty, start, empty]

theorem exists_refusal (unsized : ¬ interpreter.Sized) :
    ∃ ending, (ending = .failed .emptyTape ∧ interpreter.tapeSize = 0 ∨
        ending = .overflow ∧ capacity < interpreter.tapeSize) ∧
      ∀ program fuel input output, interpreter.run program fuel input output =
        some ⟨ending, { machine := ⟨.blank 0, input, output⟩ }⟩ := by
  rcases Nat.eq_zero_or_pos interpreter.tapeSize with empty | nonempty
  · exact ⟨_, Or.inl ⟨rfl, empty⟩, run_of_empty empty⟩
  · have oversize : capacity < interpreter.tapeSize :=
      Nat.lt_of_not_le fun fits => unsized ⟨nonempty, fits⟩
    exact ⟨_, Or.inr ⟨rfl, oversize⟩, run_of_oversize oversize⟩

theorem halt_eq_of_unsized (unsized : ¬ interpreter.Sized) {fuel : Nat} {input : Input}
    {output : Output} {halt : Halt}
    (ran : interpreter.run program fuel input output = some halt) :
    ∃ ending, (ending = .failed .emptyTape ∧ interpreter.tapeSize = 0 ∨
        ending = .overflow ∧ capacity < interpreter.tapeSize) ∧
      halt = ⟨ending, { machine := ⟨.blank 0, input, output⟩ }⟩ := by
  obtain ⟨ending, refused, runs⟩ := exists_refusal unsized
  exact ⟨ending, refused, Option.some.inj (ran.symm.trans (runs program fuel input output))⟩

theorem run_unique {fuel fuel' : Nat} {input : Input} {output : Output} {halt halt' : Halt}
    (ran : interpreter.run program fuel input output = some halt)
    (ran' : interpreter.run program fuel' input output = some halt') : halt = halt' := by
  by_cases sized : interpreter.Sized
  · rw [run_eq_runFrom sized] at ran ran'
    exact Halts.unique ⟨fuel', ran'⟩ ⟨fuel, ran⟩
  · obtain ⟨ending, -, runs⟩ := exists_refusal sized
    rw [runs] at ran ran'
    exact Option.some.inj (ran.symm.trans ran')

theorem run_eq_of_unsized (unsized : ¬ interpreter.Sized) (program other : Program)
    (fuel fuel' : Nat) (input : Input) (output : Output) :
    interpreter.run program fuel input output = interpreter.run other fuel' input output := by
  obtain ⟨ending, -, runs⟩ := exists_refusal unsized
  rw [runs, runs]

theorem sized_or_refused {fuel : Nat} {input : Input} {output : Output} {halt : Halt}
    (ran : interpreter.run program fuel input output = some halt) :
    interpreter.Sized ∨ halt.ending = .failed .emptyTape ∧ interpreter.tapeSize = 0 ∨
      halt.ending = .overflow ∧ capacity < interpreter.tapeSize := by
  by_cases sized : interpreter.Sized
  · exact Or.inl sized
  · obtain ⟨ending, refused, rfl⟩ := halt_eq_of_unsized sized ran
    exact Or.inr refused

theorem sized_of_finished {fuel : Nat} {input : Input} {output : Output} {halt : Halt}
    (ran : interpreter.run program fuel input output = some halt)
    (finished : halt.ending = .finished) : interpreter.Sized := by
  rcases sized_or_refused ran with sized | ⟨refused, -⟩ | ⟨overflow, -⟩
  · exact sized
  · simp [refused] at finished
  · simp [overflow] at finished

end Interpreter
end Brainfuck
