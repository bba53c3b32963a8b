import Brainfuck.Proofs.Block
import Brainfuck.Proofs.Safety

/-!
`Evaluates` runs a block without positions or jumps: a loop is repeated while its cell is not
zero. An evaluation is followed by the run (`Evaluates.endsWith`), and a run that halts is an
evaluation (`exists_evaluates`).
-/

namespace Brainfuck

inductive Evaluates (eof : EofPolicy) : Block → Machine → Effect → Prop where
  | done {machine : Machine} : Evaluates eof .done machine (.done machine)
  | simple {ip : Nat} {action : Action} {rest : Block} {machine after : Machine} {cell : UInt8}
      {effect : Effect} (current : machine.tape.current? = some cell)
      (acted : machine.act eof ip action cell = .done after)
      (later : Evaluates eof rest after effect) :
      Evaluates eof (.simple ip action rest) machine effect
  | failed {ip : Nat} {action : Action} {rest : Block} {machine after : Machine} {cell : UInt8}
      {error : RunError} (current : machine.tape.current? = some cell)
      (acted : machine.act eof ip action cell = .failed error after) :
      Evaluates eof (.simple ip action rest) machine (.failed error after)
  | skip {body rest : Block} {machine : Machine} {effect : Effect}
      (zero : machine.tape.current? = some 0) (later : Evaluates eof rest machine effect) :
      Evaluates eof (.loop body rest) machine effect
  | iterate {body rest : Block} {machine after : Machine} {cell : UInt8} {effect : Effect}
      (current : machine.tape.current? = some cell) (nonzero : cell ≠ 0)
      (once : Evaluates eof body machine (.done after))
      (again : Evaluates eof (.loop body rest) after effect) :
      Evaluates eof (.loop body rest) machine effect
  | escape {body rest : Block} {machine after : Machine} {cell : UInt8} {error : RunError}
      (current : machine.tape.current? = some cell) (nonzero : cell ≠ 0)
      (once : Evaluates eof body machine (.failed error after)) :
      Evaluates eof (.loop body rest) machine (.failed error after)

def Halt.effect? : Halt → Option Effect
  | ⟨.finished, state⟩ => some (.done state.machine)
  | ⟨.failed error, state⟩ => some (.failed error state.machine)
  | ⟨.stuck, _⟩ | ⟨.overflow, _⟩ => none

variable {program : Program} {eof : EofPolicy} {block body rest : Block}

theorem Evaluates.exists_current {machine : Machine} {effect : Effect}
    (evaluates : Evaluates eof (.loop body rest) machine effect) :
    ∃ cell, machine.tape.current? = some cell := by
  cases evaluates with
  | skip zero later => exact ⟨0, zero⟩
  | iterate current nonzero once again => exact ⟨_, current⟩
  | escape current nonzero once => exact ⟨_, current⟩

def EndsWith (program : Program) (eof : EofPolicy) (state : State) (effect : Effect) : Prop :=
  ∃ halt, Halts program eof state halt ∧ halt.effect? = some effect

theorem Transition.endsWith_iff {before after : State} {effect : Effect}
    (moved : Transition program eof before after) :
    EndsWith program eof before effect ↔ EndsWith program eof after effect := by
  simp only [EndsWith, moved.halts_iff]

/-- What is still to happen at `ip` when a block has had the given effect. -/
def Ensues (program : Program) (eof : EofPolicy) (ip : Nat) (final : Effect) : Effect → Prop
  | .done after => ∀ steps, EndsWith program eof ⟨ip, after, steps⟩ final
  | .failed error after => final = .failed error after

theorem Block.StandsAt.closing_step_eq {ip : Nat} {machine : Machine} {cell : UInt8}
    (stands : (Block.loop body rest).StandsAt program ip)
    (current : machine.tape.current? = some cell) (eof : EofPolicy) (steps : Nat) :
    step program eof ⟨ip + 1 + body.flatten.length, machine, steps⟩ =
      step program eof ⟨ip, machine, steps⟩ := by
  obtain ⟨opens, closes, forward, backward, _, _⟩ := stands
  by_cases zero : cell = 0
  · subst zero
    rw [(Transition.leave closes current).step_eq,
      (Transition.skip opens current forward).step_eq]
  · rw [(Transition.again closes current zero backward).step_eq,
      (Transition.enter opens current zero).step_eq]

theorem Evaluates.endsWith {machine : Machine} {effect final : Effect}
    (evaluates : Evaluates eof block machine effect) {ip : Nat}
    (stands : block.StandsAt program ip)
    (ensues : Ensues program eof (ip + block.flatten.length) final effect) (steps : Nat) :
    EndsWith program eof ⟨ip, machine, steps⟩ final := by
  induction evaluates generalizing ip final steps with
  | done => exact ensues steps
  | simple current acted later ih =>
      obtain ⟨rfl, here, stands⟩ := stands
      rw [(Transition.simple here current acted).endsWith_iff]
      refine ih stands ?_ _
      simpa [Block.flatten, Nat.add_assoc, Nat.add_comm] using ensues
  | failed current acted =>
      obtain ⟨rfl, here, _⟩ := stands
      refine ⟨_, (Stop.failed here current acted).halts, ?_⟩
      rw [ensues]
      rfl
  | @skip body rest machine effect zero later ih =>
      obtain ⟨opens, _, forward, _, _, stands⟩ := stands
      rw [(Transition.skip opens zero forward).endsWith_iff]
      refine ih stands ?_ _
      simpa [Block.flatten, Nat.add_assoc, Nat.add_comm, Nat.add_left_comm] using ensues
  | iterate current nonzero once again ihOnce ihAgain =>
      have whole := stands
      obtain ⟨opens, _, _, _, standsBody, _⟩ := stands
      rw [(Transition.enter opens current nonzero).endsWith_iff]
      refine ihOnce standsBody (fun steps => ?_) _
      -- The run stands at the closing bracket now, and goes on as if it stood at the opening one.
      obtain ⟨cell, found⟩ := again.exists_current
      obtain ⟨halt, ⟨fuel, ran⟩, left⟩ := ihAgain whole ensues steps
      rw [← runFrom_congr (whole.closing_step_eq found eof steps)] at ran
      exact ⟨halt, ⟨fuel, ran⟩, left⟩
  | escape current nonzero once ih =>
      obtain ⟨opens, _, _, _, stands, _⟩ := stands
      rw [(Transition.enter opens current nonzero).endsWith_iff]
      exact ih stands ensues _

def Remains (program : Program) (eof : EofPolicy) (size fuel ip : Nat) (halt : Halt) :
    Effect → Prop
  | .done after => after.tape.Fits size ∧
      ∃ less steps, less ≤ fuel ∧ runFrom program eof less ⟨ip, after, steps⟩ = some halt
  | .failed error after => halt.effect? = some (.failed error after)

theorem Remains.mono {size fuel fuel' ip : Nat} {halt : Halt} {effect : Effect} (le : fuel ≤ fuel')
    (remains : Remains program eof size fuel ip halt effect) :
    Remains program eof size fuel' ip halt effect := by
  cases effect with
  | failed error after => exact remains
  | done after =>
      obtain ⟨fits, less, steps, bound, ran⟩ := remains
      exact ⟨fits, less, steps, Nat.le_trans bound le, ran⟩

theorem exists_evaluates {size : Nat} (fuel : Nat) {ip steps : Nat} {machine : Machine}
    {halt : Halt} (stands : block.StandsAt program ip) (fits : machine.tape.Fits size)
    (ran : runFrom program eof fuel ⟨ip, machine, steps⟩ = some halt) :
    ∃ effect, Evaluates eof block machine effect ∧
      Remains program eof size fuel (ip + block.flatten.length) halt effect := by
  induction fuel using Nat.strongRec generalizing block ip steps machine with
  | ind fuel ih =>
      obtain ⟨cell, current⟩ := fits.exists_current
      cases block with
      | done => exact ⟨.done machine, .done, fits, fuel, steps, Nat.le_refl _, ran⟩
      | simple position action rest =>
          obtain ⟨rfl, here, stands⟩ := stands
          cases acted : machine.act eof position action cell with
          | failed error after =>
              rw [(Stop.failed here current acted).eq_of_runFrom ran]
              exact ⟨.failed error after, .failed current acted, rfl⟩
          | done after =>
              obtain ⟨less, lt, ran⟩ := (Transition.simple here current acted).exists_runFrom ran
              obtain ⟨effect, later, remains⟩ := ih less lt stands (fits.act acted) ran
              refine ⟨effect, .simple current acted later, ?_⟩
              simpa [Block.flatten, Nat.add_assoc, Nat.add_comm]
                using remains.mono (Nat.le_of_lt lt)
      | loop body rest =>
          have whole := stands
          obtain ⟨opens, _, forward, _, standsBody, standsRest⟩ := stands
          by_cases zero : cell = 0
          · subst zero
            obtain ⟨less, lt, ran⟩ := (Transition.skip opens current forward).exists_runFrom ran
            obtain ⟨effect, later, remains⟩ := ih less lt standsRest fits ran
            refine ⟨effect, .skip current later, ?_⟩
            simpa [Block.flatten, Nat.add_assoc, Nat.add_comm, Nat.add_left_comm]
              using remains.mono (Nat.le_of_lt lt)
          · obtain ⟨less, lt, ran⟩ := (Transition.enter opens current zero).exists_runFrom ran
            obtain ⟨effect, once, remains⟩ := ih less lt standsBody fits ran
            cases effect with
            | failed error after => exact ⟨.failed error after, .escape current zero once, remains⟩
            | done after =>
                obtain ⟨fits', least, steps', le, ran⟩ := remains
                obtain ⟨cell', current'⟩ := fits'.exists_current
                -- The body is done: what is left is a shorter run of the same loop.
                rw [runFrom_congr (whole.closing_step_eq current' eof steps')] at ran
                have lt' : least < fuel := Nat.lt_of_le_of_lt le lt
                obtain ⟨effect, again, remains⟩ := ih least lt' whole fits' ran
                exact ⟨effect, .iterate current zero once again, remains.mono (Nat.le_of_lt lt')⟩

theorem run_iff_evaluates {source unread : Input} {program : Program}
    (loaded : Program.load source = (.ok program, unread)) :
    (∃ block : Block, block.flatten = program.code ∧ block.Numbered 0) ∧
      ∀ (block : Block) (interpreter : Interpreter) (input : Input) (output : Output)
        (effect : Effect), block.flatten = program.code → block.Numbered 0 →
        interpreter.Sized →
        ((∃ fuel halt, interpreter.run program fuel input output = some halt ∧
            halt.effect? = some effect) ↔
          Evaluates interpreter.eof block ⟨.blank interpreter.tapeSize, input, output⟩ effect) := by
  have linked := Program.linked_of_load loaded
  refine ⟨linked.balanced.exists_flatten_eq 0, ?_⟩
  intro block interpreter input output effect flat numbered sized
  have split : program.code = [] ++ (block.flatten ++ []) := by simp [flat]
  have stands := Block.standsAt linked split rfl numbered
  have atEnd : program.instruction? (0 + block.flatten.length) = none := by
    rw [flat, Program.instruction?_eq]
    simp
  constructor
  · rintro ⟨fuel, halt, ran, left⟩
    rw [Interpreter.run_eq_runFrom sized] at ran
    obtain ⟨effect', evaluates, remains⟩ := exists_evaluates fuel stands (.blank sized.nonempty) ran
    have same : effect' = effect := by
      cases effect' with
      | failed error after => exact Option.some.inj (remains.symm.trans left)
      | done after =>
          obtain ⟨_, less, steps, _, ran⟩ := remains
          rw [(Stop.finished atEnd).eq_of_runFrom ran] at left
          exact Option.some.inj left
    exact same ▸ evaluates
  · intro evaluates
    have ensues : Ensues program interpreter.eof (0 + block.flatten.length) effect effect := by
      cases effect with
      | failed error after => rfl
      | done after => exact fun steps => ⟨_, (Stop.finished atEnd).halts, rfl⟩
    obtain ⟨halt, ⟨fuel, ran⟩, left⟩ := evaluates.endsWith stands ensues 0
    refine ⟨fuel, halt, ?_, left⟩
    rw [Interpreter.run_eq_runFrom sized]
    exact ran

theorem run_iff_evaluates_clear :
    ∃ program, Program.load [.data (['+', '[', '-', ']'].map Char.toUInt8)] = (.ok program, []) ∧
      Evaluates .zero (.simple 0 .increment (.loop (.simple 2 .decrement .done) .done))
        ⟨.blank 1, [], {}⟩ (.done ⟨.blank 1, [], {}⟩) := by
  let program : Program :=
    ⟨#[.simple .increment, .loopStart, .simple .decrement, .loopEnd], #[0, 1, 2, 3],
      #[none, some 3, none, none], #[none, none, none, some 1]⟩
  have loaded :
      Program.load [.data (['+', '[', '-', ']'].map Char.toUInt8)] = (.ok program, []) := rfl
  have numbered :
      (Block.simple 0 .increment (.loop (.simple 2 .decrement .done) .done)).Numbered 0 := by
    simp [Block.Numbered]
  have halts := (run_iff_evaluates loaded).2 _ ⟨1, .zero⟩ [] {} (.done ⟨.blank 1, [], {}⟩) rfl
    numbered ⟨by decide, by decide⟩
  exact ⟨program, loaded, halts.mp ⟨5, _, rfl, rfl⟩⟩

end Brainfuck
