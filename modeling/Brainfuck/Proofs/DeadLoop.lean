import Brainfuck.Proofs.Replacement

/-!
The cell is zero wherever a loop has been left, and at the start. So a loop that begins there is
never entered.
-/

namespace Brainfuck

theorem Transition.zero_behind_loop {program : Program} {eof : EofPolicy} {before after : State}
    {close : Nat} (linked : program.Linked) (moved : Transition program eof before after)
    (closes : program.instruction? close = some .loopEnd) (arrived : after.ip = close + 1) :
    after.machine.tape.current? = some 0 := by
  -- Behind a `]` control comes only by leaving the loop or by skipping it.
  cases moved with
  | simple here current acted =>
      rw [Nat.succ.inj arrived, closes] at here
      simp at here
  | skip here zero partner => exact zero
  | enter here current nonzero =>
      rw [Nat.succ.inj arrived, closes] at here
      simp at here
  | leave here zero => exact zero
  | again here current nonzero partner =>
      rw [Nat.succ.inj arrived] at partner
      have opens := ((linked.backward_iff _ _).mp partner).opens
      rw [← program.instruction?_eq, closes] at opens
      simp at opens

theorem Transition.ip_ne_zero {program : Program} {eof : EofPolicy} {before after : State}
    (moved : Transition program eof before after) : after.ip ≠ 0 := by
  cases moved <;> exact Nat.succ_ne_zero _

theorem spread_zero (start : Nat) : spread start 0 = id := by
  funext ip
  simp [spread]

theorem Ending.map_relocated_id (ending : Ending) :
    ending.map (RunError.relocated id) = ending := by
  rcases ending with _ | (_ | _ | _) | _ <;> rfl

theorem Ending.Across.eq_map {start width : Nat} {ending ending' : Ending}
    (across : ending.Across start 0 width ending') :
    ending' = ending.map (RunError.relocated (spread start width)) := by
  obtain ⟨outer, rfl, rfl⟩ := across
  rw [spread_zero, map_relocated_id]

theorem Program.Linked.exchange_loop {plain whole : Program} (linked : plain.Linked)
    (linked' : whole.Linked) {front body rest : List Instruction}
    (code : plain.code = front ++ rest)
    (code' : whole.code = front ++ (.loopStart :: (body ++ [.loopEnd]) ++ rest))
    (balanced : Balanced body) (behind : front = [] ∨ front.getLast? = some .loopEnd)
    (eof : EofPolicy) (size : Nat) :
    Exchange plain plain whole eof front.length 0 (body.length + 2) size
      fun machine => machine.tape.current? = some 0 where
  around := linked.around linked code (code : plain.code = front ++ ([] ++ rest)) Balanced.nil
  around' := by
    have around := linked.around linked' code code' balanced.loop
    simpa using around
  arrives moved arrived := by
    rcases behind with rfl | behind
    · exact absurd arrived moved.ip_ne_zero
    · obtain ⟨ahead, rfl⟩ := List.getLast?_eq_some_iff.mp behind
      have closes : plain.instruction? ahead.length = some .loopEnd := by
        rw [plain.instruction?_eq, code]
        simp
      rw [List.length_append, List.length_singleton] at arrived
      exact moved.zero_behind_loop linked closes arrived
  passes {machine} fits zero := by
    have split : whole.code = front ++ .loopStart :: (body ++ .loopEnd :: rest) := by
      simpa using code'
    have partners : Partners whole.code front.length (front.length + (body.length + 1)) := by
      rw [split]
      exact .of_split balanced rest
    have skipped (steps : Nat) : Transition whole eof ⟨front.length, machine, steps⟩
        ⟨front.length + (body.length + 2), machine, steps + 1⟩ :=
      linked'.skips partners zero steps
    exact ⟨machine, fits, fun steps => ⟨steps, .refl⟩,
      fun steps => ⟨steps + 1, (skipped steps).reaches⟩⟩

theorem run_with_dead_loop {front body back : List UInt8} {first inner last : Program}
    (loaded : Program.ofBytes front = .ok first) (loaded' : Program.ofBytes body = .ok inner)
    (loaded'' : Program.ofBytes back = .ok last)
    (behind : first.code = [] ∨ first.code.getLast? = some .loopEnd) :
    ∃ plain whole, Program.ofBytes (front ++ back) = .ok plain ∧
      Program.ofBytes (front ++ (looped body ++ back)) = .ok whole ∧
      ∀ (interpreter : Interpreter) (input : Input) (output : Output), 0 < interpreter.tapeSize →
        ((∃ fuel halt, interpreter.run plain fuel input output = some halt) ↔
          ∃ fuel halt, interpreter.run whole fuel input output = some halt) ∧
        ∀ fuel halt fuel' halt', interpreter.run plain fuel input output = some halt →
          interpreter.run whole fuel' input output = some halt' →
          halt'.state.machine = halt.state.machine ∧
            halt'.ending =
              halt.ending.map (RunError.relocated (spread first.length (inner.length + 2))) := by
  have balanced := Program.exists_ofBytes_iff.mp ⟨inner, loaded'⟩
  obtain ⟨loop, readLoop, codeLoop⟩ := Program.exists_ofBytes_looped balanced
  obtain ⟨behindLoop, readBehind, codeBehind⟩ := Program.exists_ofBytes_append readLoop loaded''
  obtain ⟨plain, read, code⟩ := Program.exists_ofBytes_append loaded loaded''
  obtain ⟨whole, read', code'⟩ := Program.exists_ofBytes_append loaded readBehind
  rw [← Program.code_of_ofBytes loaded'] at balanced codeLoop
  rw [codeBehind, codeLoop] at code'
  refine ⟨plain, whole, read, read', fun interpreter input output nonempty => ?_⟩
  have exchange := (Program.linked_of_ofBytes read).exchange_loop (Program.linked_of_ofBytes read')
    code code' balanced behind interpreter.eof interpreter.tapeSize
  obtain ⟨halts, agree⟩ := exchange.runs_agree fun _ => Tape.current?_blank nonempty
  refine ⟨halts, fun fuel halt fuel' halt' ran ran' => ?_⟩
  obtain ⟨machine_eq, across⟩ := agree fuel halt fuel' halt' ran ran'
  rw [first.length_code, inner.length_code] at across
  exact ⟨machine_eq, across.eq_map⟩

theorem run_with_dead_loop_behind_clear :
    ∃ whole, Program.ofBytes (['+', '[', '-', ']'].map Char.toUInt8 ++
        (looped (['.'].map Char.toUInt8) ++ ['<'].map Char.toUInt8)) = .ok whole ∧
      ∃ fuel halt, Interpreter.run ⟨1, .zero⟩ whole fuel [] {} = some halt ∧
        halt.ending = .failed (.outOfBounds 7 0 '<') := by
  let first : Program :=
    ⟨#[.simple .increment, .loopStart, .simple .decrement, .loopEnd], #[0, 1, 2, 3],
      #[none, some 3, none, none], #[none, none, none, some 1]⟩
  have loaded : Program.ofBytes (['+', '[', '-', ']'].map Char.toUInt8) = .ok first := rfl
  have loaded' : Program.ofBytes (['.'].map Char.toUInt8) =
      .ok ⟨#[.simple .output], #[0], #[none], #[none]⟩ := rfl
  have loaded'' : Program.ofBytes (['<'].map Char.toUInt8) =
      .ok ⟨#[.simple .left], #[0], #[none], #[none]⟩ := rfl
  obtain ⟨plain, whole, read, read', runs⟩ :=
    run_with_dead_loop loaded loaded' loaded'' (Or.inr rfl)
  obtain ⟨halts, agree⟩ := runs ⟨1, .zero⟩ [] {} (by decide)
  let shorter : Program :=
    ⟨#[.simple .increment, .loopStart, .simple .decrement, .loopEnd, .simple .left],
      #[0, 1, 2, 3, 4], #[none, some 3, none, none, none], #[none, none, none, some 1, none]⟩
  obtain rfl : shorter = plain := Except.ok.inj read
  have ran : Interpreter.run ⟨1, .zero⟩ shorter 5 [] {} =
      some ⟨.failed (.outOfBounds 4 0 '<'), 4, ⟨⟨#[0], 0⟩, [], {}⟩, 4⟩ := rfl
  obtain ⟨fuel', halt', ran'⟩ := halts.mp ⟨5, _, ran⟩
  exact ⟨whole, read', fuel', halt', ran', (agree 5 _ fuel' halt' ran ran').2⟩

end Brainfuck
