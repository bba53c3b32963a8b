import Brainfuck.Proofs.Replacement
import Brainfuck.Proofs.Straight

namespace Brainfuck

variable {signs signs' : List Action} {size : Nat}

def Counting (signs : List Action) : Prop :=
  ∀ action ∈ signs, action = .increment ∨ action = .decrement

def netCount (signs : List Action) : Int := signs.count .increment - signs.count .decrement

theorem netCount_cons (action : Action) (rest : List Action) :
    netCount (action :: rest) = action.gain + netCount rest := by
  unfold netCount
  cases action <;> simp [Action.gain] <;> omega

namespace Counting

theorem onTape (counting : Counting signs) : ∀ action ∈ signs, action.onTape := by
  intro action member
  rcases counting action member with rfl | rfl <;> rfl

theorem travel_eq (counting : Counting signs) : travel signs = 0 := by
  have none (action : Action) (other : ¬ (action = .increment ∨ action = .decrement)) :
      signs.count action = 0 := List.count_eq_zero.mpr fun member => other (counting action member)
  rw [travel, none .right (by simp), none .left (by simp)]
  rfl

theorem gainAt_eq (counting : Counting signs) (distance : Int) :
    gainAt signs distance = if distance = 0 then netCount signs else 0 := by
  induction signs with
  | nil => simp [gainAt, netCount]
  | cons action rest ih =>
      obtain ⟨first, others⟩ := List.forall_mem_cons.mp counting
      have stays : action.move = 0 := by rcases first with rfl | rfl <;> rfl
      rw [gainAt, stays, Int.sub_zero, ih others, netCount_cons]
      split <;> simp

theorem gainAt_congr (counting : Counting signs) (counting' : Counting signs')
    (same : netCount signs ≡ netCount signs' [ZMOD 256]) (distance : Int) :
    gainAt signs distance ≡ gainAt signs' distance [ZMOD 256] := by
  rw [counting.gainAt_eq, counting'.gainAt_eq]
  split
  · exact same
  · rfl

theorem spans (counting : Counting signs) {tape : Tape} (fits : tape.Fits size) :
    tape.Spans signs := by
  intro visited isFront
  have counted : Counting visited := fun action member => counting action (isFront.subset member)
  have lt := fits.pointer_lt
  rw [counted.travel_eq, Int.add_zero, fits.size_eq]
  omega

theorem passes (counting : Counting signs) {program : Program} {front rest : List Instruction}
    (split : program.code = front ++ (signs.map .simple ++ rest)) {machine : Machine}
    (fits : machine.tape.Fits size) (eof : EofPolicy) :
    Passes program eof front.length signs.length machine
      ⟨machine.tape.added (gainAt signs), machine.input, machine.output⟩ := by
  intro steps
  have reached := reaches_straight split counting.onTape (counting.spans fits) eof
    machine.input machine.output steps
  rw [Tape.through_of_return counting.travel_eq] at reached
  exact ⟨_, reached⟩

end Counting

theorem Program.Linked.exchange_counts {outer first second : Program} (linked : outer.Linked)
    (linked₁ : first.Linked) (linked₂ : second.Linked) {front rest : List Instruction}
    (code : outer.code = front ++ rest)
    (code₁ : first.code = front ++ (signs.map .simple ++ rest))
    (code₂ : second.code = front ++ (signs'.map .simple ++ rest))
    (counting : Counting signs) (counting' : Counting signs')
    (same : netCount signs ≡ netCount signs' [ZMOD 256]) (eof : EofPolicy) (size : Nat) :
    Exchange outer first second eof front.length signs.length signs'.length size
      fun _ => True where
  around := by
    have around := linked.around linked₁ code code₁ (Balanced.map_simple signs)
    rwa [List.length_map] at around
  around' := by
    have around := linked.around linked₂ code code₂ (Balanced.map_simple signs')
    rwa [List.length_map] at around
  arrives _ _ := trivial
  passes {machine} fits _ := by
    have passes := counting'.passes code₂ fits eof
    rw [← Tape.added_congr (counting.gainAt_congr counting' same)] at passes
    have fits' : (machine.tape.added (gainAt signs)).Fits size :=
      ⟨(Tape.size_added _ _).trans fits.size_eq, fits.pointer_lt⟩
    exact ⟨_, fits', counting.passes code₁ fits eof, passes⟩

theorem balanced_recounted (front back : List UInt8) (signs : List Action) :
    Balanced (decode (front ++ (spelled signs ++ back))) ↔ Balanced (decode (front ++ back)) := by
  rw [decode_append, decode_append, decode_append, decode_spelled,
    (Balanced.map_simple signs).insert_iff]

theorem run_recounted (front back : List UInt8)
    (counting : Counting signs) (counting' : Counting signs')
    (same : netCount signs ≡ netCount signs' [ZMOD 256]) :
    ((∃ first, Program.ofBytes (front ++ (spelled signs ++ back)) = .ok first) ↔
      ∃ second, Program.ofBytes (front ++ (spelled signs' ++ back)) = .ok second) ∧
    ∀ (first second : Program),
      Program.ofBytes (front ++ (spelled signs ++ back)) = .ok first →
      Program.ofBytes (front ++ (spelled signs' ++ back)) = .ok second →
      ∀ (interpreter : Interpreter) (input : Input) (output : Output), 0 < interpreter.tapeSize →
        ((∃ fuel halt, interpreter.run first fuel input output = some halt) ↔
          ∃ fuel halt, interpreter.run second fuel input output = some halt) ∧
        ∀ fuel halt fuel' halt', interpreter.run first fuel input output = some halt →
          interpreter.run second fuel' input output = some halt' →
          halt'.state.machine = halt.state.machine ∧
            halt.ending.Across (decode front).length signs.length signs'.length
              halt'.ending := by
  constructor
  · rw [Program.exists_ofBytes_iff, Program.exists_ofBytes_iff, balanced_recounted,
      balanced_recounted]
  · intro first second loaded loaded' interpreter input output _
    obtain ⟨outer, read⟩ := Program.exists_ofBytes_iff.mpr
      ((balanced_recounted front back signs).mp (Program.exists_ofBytes_iff.mp ⟨first, loaded⟩))
    have code := Program.code_of_ofBytes read
    have code₁ := Program.code_of_ofBytes loaded
    have code₂ := Program.code_of_ofBytes loaded'
    rw [decode_append] at code
    rw [decode_append, decode_append, decode_spelled] at code₁ code₂
    have exchange := (Program.linked_of_ofBytes read).exchange_counts
      (Program.linked_of_ofBytes loaded) (Program.linked_of_ofBytes loaded') code code₁ code₂
      counting counting' same interpreter.eof interpreter.tapeSize
    exact exchange.runs_agree fun _ => trivial

theorem run_recounted_all_the_way_round :
    ∃ first second, Program.ofBytes (['+', '[', '-', '<', ']'].map Char.toUInt8) = .ok first ∧
      Program.ofBytes (['+', '['].map Char.toUInt8 ++
        (spelled (.replicate 255 .increment) ++ ['<', ']'].map Char.toUInt8)) = .ok second ∧
      ∃ fuel fuel' halt halt', Interpreter.run ⟨1, .zero⟩ first fuel [] {} = some halt ∧
        Interpreter.run ⟨1, .zero⟩ second fuel' [] {} = some halt' ∧
        halt.ending = .failed (.outOfBounds 3 0 '<') ∧
        halt'.ending = .failed (.outOfBounds 257 0 '<') := by
  let first : Program :=
    ⟨#[.simple .increment, .loopStart, .simple .decrement, .simple .left, .loopEnd],
      #[0, 1, 2, 3, 4], #[none, some 4, none, none, none], #[none, none, none, none, some 1]⟩
  have loaded : Program.ofBytes (['+', '[', '-', '<', ']'].map Char.toUInt8) = .ok first := rfl
  have ran : Interpreter.run ⟨1, .zero⟩ first 4 [] {} =
      some ⟨.failed (.outOfBounds 3 0 '<'), 3, ⟨⟨#[0], 0⟩, [], {}⟩, 3⟩ := rfl
  have counting : Counting [.decrement] := by simp [Counting]
  have counting' : Counting (.replicate 255 .increment) :=
    fun action member => Or.inl (List.eq_of_mem_replicate member)
  have same : netCount [.decrement] ≡ netCount (.replicate 255 .increment) [ZMOD 256] := by
    rw [netCount, netCount, List.count_replicate_self, List.count_replicate]
    rfl
  obtain ⟨loads, runs⟩ := run_recounted (['+', '['].map Char.toUInt8) (['<', ']'].map Char.toUInt8)
    counting counting' same
  obtain ⟨second, loaded'⟩ := loads.mp ⟨first, loaded⟩
  obtain ⟨halts, agree⟩ := runs first second loaded loaded' ⟨1, .zero⟩ [] {} (by decide)
  obtain ⟨fuel', halt', ran'⟩ := halts.mp ⟨4, _, ran⟩
  refine ⟨first, second, loaded, loaded', 4, fuel', _, halt', ran, ran', rfl, ?_⟩
  -- The pointer leaves the tape at the same instruction of the code around the row.
  obtain ⟨-, outer, ending, ending'⟩ := agree 4 _ fuel' halt' ran ran'
  rw [ending']
  rcases outer with _ | (⟨ip, pointer, op⟩ | ⟨ip, cause⟩ | _) | _
  · simp [Ending.map] at ending
  · simp only [Ending.map, RunError.relocated, Ending.failed.injEq,
      RunError.outOfBounds.injEq] at ending ⊢
    obtain ⟨position, rfl, rfl⟩ := ending
    have seam : (decode (['+', '['].map Char.toUInt8)).length = 2 := rfl
    rw [seam, List.length_singleton] at position
    rw [seam, List.length_replicate]
    unfold spread at position ⊢
    refine ⟨?_, rfl, rfl⟩
    split at position <;> split <;> omega
  all_goals simp [Ending.map, RunError.relocated] at ending

end Brainfuck
