import Brainfuck.Proofs.Embedding
import Brainfuck.Proofs.Offsets

namespace Brainfuck

def looped (body : List UInt8) : List UInt8 :=
  Instruction.loopStart.byte :: (body ++ [Instruction.loopEnd.byte])

theorem decode_looped (body : List UInt8) :
    decode (looped body) = .loopStart :: (decode body ++ [.loopEnd]) := by
  calc decode (looped body)
      = decode [] ++ .loopStart :: decode (body ++ [Instruction.loopEnd.byte]) :=
        decode_split [] _ _
    _ = .loopStart :: (decode body ++ .loopEnd :: decode []) := by rw [decode_split]; rfl

namespace Program

theorem exists_ofBytes_of_balanced {source : List UInt8} (balanced : Balanced (decode source)) :
    ∃ program, ofBytes source = .ok program := by
  rcases ofBytes_cases source with ⟨scan, loaded, -, -⟩ | ⟨front, rest, rfl, before, -⟩ |
    ⟨front, rest, -, rfl, -, behind, -⟩
  · exact ⟨scan.program, loaded⟩
  · rw [decode_split] at balanced
    exact absurd before balanced.not_before_loopEnd
  · rw [decode_split] at balanced
    exact absurd behind balanced.not_behind_loopStart

variable {source source' : List UInt8} {first second joined : Program}

theorem exists_ofBytes_iff :
    (∃ program, ofBytes source = .ok program) ↔ Balanced (decode source) := by
  refine ⟨?_, exists_ofBytes_of_balanced⟩
  rintro ⟨program, loaded⟩
  rw [← code_of_ofBytes loaded]
  exact (linked_of_ofBytes loaded).balanced

theorem exists_ofBytes_append (loaded : ofBytes source = .ok first)
    (loaded' : ofBytes source' = .ok second) :
    ∃ joined, ofBytes (source ++ source') = .ok joined ∧
      joined.code = first.code ++ second.code := by
  have balanced : Balanced (decode (source ++ source')) := by
    rw [decode_append, ← code_of_ofBytes loaded, ← code_of_ofBytes loaded']
    exact (linked_of_ofBytes loaded).balanced.append (linked_of_ofBytes loaded').balanced
  obtain ⟨joined, read⟩ := exists_ofBytes_of_balanced balanced
  refine ⟨joined, read, ?_⟩
  rw [code_of_ofBytes read, decode_append, code_of_ofBytes loaded, code_of_ofBytes loaded']

theorem exists_ofBytes_looped (balanced : Balanced (decode source)) :
    ∃ loop, ofBytes (looped source) = .ok loop ∧
      loop.code = .loopStart :: (decode source ++ [.loopEnd]) := by
  have whole := balanced.loop
  rw [← decode_looped] at whole
  obtain ⟨loop, read⟩ := exists_ofBytes_of_balanced whole
  exact ⟨loop, read, (code_of_ofBytes read).trans (decode_looped source)⟩

namespace Linked

theorem within_front (linked : first.Linked) (linked' : joined.Linked)
    (split : joined.code = first.code ++ second.code) : first.Within joined 0 := by
  have split' : joined.code = [] ++ (first.code ++ second.code) := split
  exact linked.within linked' split'

theorem within_back (linked : second.Linked) (linked' : joined.Linked)
    (split : joined.code = first.code ++ second.code) : second.Within joined first.length := by
  have split' : joined.code = first.code ++ (second.code ++ []) := by rw [split, List.append_nil]
  rw [← first.length_code]
  exact linked.within linked' split'

theorem forward_append_iff (linked : first.Linked) (linked' : second.Linked)
    (joins : joined.Linked) (split : joined.code = first.code ++ second.code) {o c : Nat} :
    joined.forward o = some c ↔
      first.forward o = some c ∨
        ∃ o' c', second.forward o' = some c' ∧ o = o' + first.length ∧ c = c' + first.length := by
  rw [joins.forward_iff, split, linked.balanced.partners_append_iff linked'.balanced,
    linked.forward_iff, first.length_code]
  simp only [linked'.forward_iff]

theorem backward_append_iff (linked : first.Linked) (linked' : second.Linked)
    (joins : joined.Linked) (split : joined.code = first.code ++ second.code) {o c : Nat} :
    joined.backward c = some o ↔
      first.backward c = some o ∨
        ∃ o' c', second.backward c' = some o' ∧ o = o' + first.length ∧ c = c' + first.length := by
  rw [joins.backward_iff, split, linked.balanced.partners_append_iff linked'.balanced,
    linked.backward_iff, first.length_code]
  simp only [linked'.backward_iff]

end Linked
end Program

namespace Interpreter

variable {interpreter : Interpreter} {program first second joined : Program} {fuel : Nat}
  {input : Input} {output : Output} {halt : Halt}

theorem ip_of_finished (linked : program.Linked)
    (ran : interpreter.run program fuel input output = some halt)
    (finished : halt.ending = .finished) : halt.state.ip = program.length := by
  have sized := sized_of_finished ran finished
  rw [run_eq_runFrom sized] at ran
  obtain ⟨last, reached, stopped⟩ := exists_reaches_of_runFrom ran
  have bounds :=
    reached.inBounds linked (interpreter.start_inBounds sized.nonempty program input output)
  have stop := stop_of_step stopped
  rw [stop.ip_eq, stop.ip_eq_length bounds finished]

theorem run_of_front (within : first.Within joined 0)
    (ran : interpreter.run first fuel input output = some halt)
    (unfinished : halt.ending ≠ .finished) :
    interpreter.run joined fuel input output = some halt := by
  by_cases sized : interpreter.Sized
  · rw [run_eq_runFrom sized] at ran ⊢
    have same := within.runFrom_eq (interpreter.start input output) 0
      fun final found => (Option.some.inj (ran.symm.trans found)) ▸ unfinished
    rwa [ran, State.shifted_zero, Option.map_some, Halt.shifted_zero] at same
  · exact (run_eq_of_unsized sized joined first fuel fuel input output).trans ran

theorem run_of_back (linked : first.Linked) (front : first.Within joined 0)
    (back : second.Within joined first.length)
    (last : joined.length = second.length + first.length)
    (ran : interpreter.run first fuel input output = some halt)
    (finished : halt.ending = .finished) (more : Nat) :
    interpreter.run joined (halt.state.steps + more) input output =
      (runFrom second interpreter.eof more { machine := halt.state.machine }).map
        (Halt.shifted first.length halt.state.steps) := by
  have ip_eq := ip_of_finished linked ran finished
  have sized := sized_of_finished ran finished
  rw [run_eq_runFrom sized] at ran ⊢
  obtain ⟨taken, steps_eq, continues⟩ := front.runFrom_finished ran finished 0
  obtain rfl : halt.state.steps = taken := steps_eq.trans (Nat.zero_add _)
  have here : halt.state =
      State.shifted first.length halt.state.steps { machine := halt.state.machine } := by
    rw [State.shifted, Nat.zero_add, Nat.zero_add, ← ip_eq]
  calc runFrom joined interpreter.eof (halt.state.steps + more) (interpreter.start input output)
      = runFrom joined interpreter.eof more halt.state := continues more
    _ = runFrom joined interpreter.eof more
        (State.shifted first.length halt.state.steps { machine := halt.state.machine }) :=
      congrArg _ here
    _ = _ := back.runFrom_eq_of_last last more _ _

end Interpreter

theorem run_concatenated {source source' : List UInt8} {first second : Program}
    (loaded : Program.ofBytes source = .ok first)
    (loaded' : Program.ofBytes source' = .ok second) :
    ∃ joined, Program.ofBytes (source ++ source') = .ok joined ∧
      joined.instructions = first.instructions ++ second.instructions ∧
      (∀ o c, joined.forward o = some c ↔ first.forward o = some c ∨
        ∃ o' c', second.forward o' = some c' ∧ o = o' + first.length ∧ c = c' + first.length) ∧
      (∀ o c, joined.backward c = some o ↔ first.backward c = some o ∨
        ∃ o' c', second.backward c' = some o' ∧ o = o' + first.length ∧ c = c' + first.length) ∧
      joined.offsets = first.offsets ++ second.offsets.map (· + source.length) ∧
      joined.loopCount = first.loopCount + second.loopCount ∧
      ∀ (interpreter : Interpreter) (input : Input) (output : Output) (fuel : Nat) (halt : Halt),
        interpreter.run first fuel input output = some halt →
        (halt.ending ≠ .finished → interpreter.run joined fuel input output = some halt) ∧
        (halt.ending = .finished → ∀ more,
          interpreter.run joined (halt.state.steps + more) input output =
            (runFrom second interpreter.eof more { machine := halt.state.machine }).map
              (Halt.shifted first.length halt.state.steps)) := by
  obtain ⟨joined, read, split⟩ := Program.exists_ofBytes_append loaded loaded'
  have linked := Program.linked_of_ofBytes loaded
  have linked' := Program.linked_of_ofBytes loaded'
  have joins := Program.linked_of_ofBytes read
  have last : joined.length = second.length + first.length := by
    rw [← joined.length_code, split, List.length_append, first.length_code, second.length_code,
      Nat.add_comm]
  have front := linked.within_front joins split
  have back := linked'.within_back joins split
  refine ⟨joined, read, ?_, fun o c => linked.forward_append_iff linked' joins split,
    fun o c => linked.backward_append_iff linked' joins split, ?_, ?_,
    fun interpreter input output fuel halt ran => ⟨Interpreter.run_of_front front ran,
      Interpreter.run_of_back linked front back last ran⟩⟩
  · apply Array.toList_inj.mp
    rw [Array.toList_append]
    exact split
  · apply Array.toList_inj.mp
    rw [Array.toList_append, Array.toList_map, Program.toList_offsets read,
      Program.toList_offsets loaded, Program.toList_offsets loaded', positions_append]
  · rw [joins.loopCount_eq, linked.loopCount_eq, linked'.loopCount_eq, split, List.count_append]

theorem run_concatenated_clear_then_left :
    ∃ joined, Program.ofBytes
        (['+', '[', '-', ']'].map Char.toUInt8 ++ ['[', ']', '<'].map Char.toUInt8) = .ok joined ∧
      joined.forward 4 = some 5 ∧ joined.loopCount = 2 ∧
      ∃ halt, Interpreter.run ⟨1, .zero⟩ joined 6 [] {} = some halt ∧
        halt.ending = .failed (.outOfBounds 6 0 '<') := by
  let first : Program :=
    ⟨#[.simple .increment, .loopStart, .simple .decrement, .loopEnd], #[0, 1, 2, 3],
      #[none, some 3, none, none], #[none, none, none, some 1]⟩
  let second : Program :=
    ⟨#[.loopStart, .loopEnd, .simple .left], #[0, 1, 2], #[some 1, none, none],
      #[none, some 0, none]⟩
  have loaded : Program.ofBytes (['+', '[', '-', ']'].map Char.toUInt8) = .ok first := rfl
  have loaded' : Program.ofBytes (['[', ']', '<'].map Char.toUInt8) = .ok second := rfl
  obtain ⟨joined, read, -, forward_iff, -, -, loops, runs⟩ := run_concatenated loaded loaded'
  have continued := (runs ⟨1, .zero⟩ [] {} 5 ⟨.finished, 4, ⟨⟨#[0], 0⟩, [], {}⟩, 4⟩ rfl).2 rfl 2
  exact ⟨joined, read, (forward_iff 4 5).mpr (Or.inr ⟨0, 1, rfl, rfl, rfl⟩), loops, _, continued,
    rfl⟩

end Brainfuck
