import Brainfuck.Proofs.Concatenation
import Brainfuck.Proofs.Straight
import Mathlib.Data.List.Infix

namespace Brainfuck

variable {body : List Action} {tape : Tape} {eof : EofPolicy}

/-- A body that comes back to the cell it starts from and, modulo 256, counts it down by one. -/
structure Linear (body : List Action) : Prop where
  onTape : ∀ action ∈ body, action.onTape
  returns : body.count .right = body.count .left
  down : gainAt body 0 ≡ -1 [ZMOD 256]

theorem Linear.travel_eq (linear : Linear body) : travel body = 0 := by
  rw [travel, linear.returns, Int.sub_self]

def multiplied (passes : Nat) (body : List Action) (distance : Int) : Int :=
  passes * gainAt body distance

theorem added_multiplied (passes : Nat) (body : List Action) (tape : Tape) :
    (tape.added (gainAt body)).added (multiplied passes body) =
      tape.added (multiplied (passes + 1) body) := by
  rw [Tape.added_added]
  congr 1
  funext distance
  rw [multiplied, multiplied, Int.natCast_succ, Int.add_mul, Int.one_mul, Int.add_comm]

theorem gainAt_eq_zero {distance : Int}
    (away : ∀ visited, visited <+: body → distance ≠ travel visited) :
    gainAt body distance = 0 := by
  induction body generalizing distance with
  | nil => rfl
  | cons action rest ih =>
      have apart : distance ≠ 0 := away [] List.nil_prefix
      rw [gainAt, if_neg apart, Int.zero_add]
      apply ih
      intro visited isFront met
      refine away (action :: visited) (by simpa using isFront) ?_
      rw [travel_cons]
      omega

theorem Tape.Spans.added (spans : tape.Spans body) (gains : Int → Int) :
    (tape.added gains).Spans body := by
  intro visited isFront
  rw [Tape.size_added]
  exact spans visited isFront

structure Tape.Multiplied (body : List Action) (cell : UInt8) (before after : Tape) : Prop where
  pointer_eq : after.pointer = before.pointer
  size_eq : after.size = before.size
  current?_eq : after.current? = some 0
  others : ∀ i old, before.cell? i = some old → i ≠ before.pointer →
    ∃ new, after.cell? i = some new ∧
      (new.toNat : Int) = (old.toNat + cell.toNat * gainAt body (i - before.pointer)) % 256
  unvisited : ∀ i : Nat,
    (∀ visited, visited <+: body → (i : Int) ≠ before.pointer + travel visited) →
    after.cell? i = before.cell? i

theorem Linear.multiplied_added (linear : Linear body) {cell : UInt8}
    (current : tape.current? = some cell) :
    tape.Multiplied body cell (tape.added (multiplied cell.toNat body)) where
  pointer_eq := rfl
  size_eq := Tape.size_added _ _
  current?_eq := by
    have emptied : multiplied cell.toNat body 0 ≡ cell.toNat * -1 [ZMOD 256] :=
      linear.down.mul_left _
    rw [Tape.current?_added, current, Option.map_some, ofInt_congr emptied, Option.some.injEq]
    apply UInt8.toNat_inj.mp
    have counted := toNat_add_ofInt cell (cell.toNat * -1)
    rw [UInt8.toNat_zero]
    omega
  others i old found _ := by
    refine ⟨old + UInt8.ofInt (multiplied cell.toNat body (i - tape.pointer)), ?_, ?_⟩
    · rw [Tape.cell?_added, found, Option.map_some]
    · rw [toNat_add_ofInt, multiplied]
  unvisited i away := by
    have none : multiplied cell.toNat body (i - tape.pointer) = 0 := by
      rw [multiplied, gainAt_eq_zero, Int.mul_zero]
      intro visited isFront met
      exact away visited isFront (by omega)
    rw [Tape.cell?_added, none]
    simp [ofInt_zero]

variable {loop : Program} {ip : Nat}

structure Loops (loop : Program) (body : List Action) (ip : Nat) : Prop where
  leaves : ∀ {eof : EofPolicy} {machine : Machine} (steps : Nat),
    machine.tape.current? = some 0 →
    Transition loop eof ⟨ip, machine, steps⟩ ⟨body.length + 2, machine, steps + 1⟩
  repeats : ∀ {eof : EofPolicy} {machine : Machine} {cell : UInt8} (steps : Nat),
    machine.tape.current? = some cell → cell ≠ 0 →
    Transition loop eof ⟨ip, machine, steps⟩ ⟨1, machine, steps + 1⟩

theorem loops_of_linked (linked : loop.Linked)
    (code : loop.code = .loopStart :: (body.map .simple ++ [.loopEnd])) :
    Loops loop body 0 ∧ Loops loop body (body.length + 1) := by
  have partners : Partners loop.code 0 (body.length + 1) := by
    have found : Partners ([] ++ .loopStart :: (body.map .simple ++ .loopEnd :: [])) _ _ :=
      .of_split (Balanced.map_simple body) []
    rw [List.length_map, List.length_nil, Nat.zero_add] at found
    rwa [code]
  have loops {ip : Nat} (bracket : ip = 0 ∨ ip = body.length + 1) : Loops loop body ip :=
    ⟨fun steps zero => linked.leaves partners bracket zero steps,
      fun steps current nonzero => linked.repeats partners bracket current nonzero steps⟩
  exact ⟨loops (Or.inl rfl), loops (Or.inr rfl)⟩

theorem Linear.reaches_behind (linear : Linear body) (linked : loop.Linked)
    (code : loop.code = .loopStart :: (body.map .simple ++ [.loopEnd])) (eof : EofPolicy)
    (input : Input) (output : Output) (passes : Nat) {cell : UInt8}
    (current : tape.current? = some cell) (count : cell.toNat = passes)
    (room : cell = 0 ∨ tape.Spans body) (bracket : Loops loop body ip) (steps : Nat) :
    Reaches loop eof ⟨ip, ⟨tape, input, output⟩, steps⟩
      ⟨body.length + 2, ⟨tape.added (multiplied passes body), input, output⟩,
        steps + (1 + passes * (body.length + 1))⟩ := by
  -- After a pass control is at the closing bracket, and there are fewer to make.
  induction passes generalizing tape cell ip steps with
  | zero =>
      have zero : cell = 0 := UInt8.toNat_inj.mp count
      have same : tape.added (multiplied 0 body) = tape := by
        rw [show multiplied 0 body = fun _ => 0 by funext distance; simp [multiplied],
          Tape.added_zero]
      rw [same, Nat.zero_mul]
      exact (bracket.leaves steps (zero ▸ current)).reaches
  | succ passes ih =>
      have nonzero : cell ≠ 0 := by
        rintro rfl
        simp at count
      have spans := room.resolve_left nonzero
      have next : (tape.added (gainAt body)).current? = some (cell + UInt8.ofInt (-1)) := by
        rw [Tape.current?_added, current, Option.map_some, ofInt_congr linear.down]
      have less : (cell + UInt8.ofInt (-1)).toNat = passes := by
        have counted := toNat_add_ofInt cell (-1)
        have bound := cell.toNat_lt
        omega
      have split : loop.code = [.loopStart] ++ (body.map .simple ++ [.loopEnd]) := code
      have pass := reaches_straight split linear.onTape spans eof input output (steps + 1)
      rw [Tape.through_of_return linear.travel_eq, List.length_singleton, Nat.add_comm 1] at pass
      have later := ih next less (Or.inr (spans.added _)) (loops_of_linked linked code).2
        (steps + 1 + body.length)
      rw [added_multiplied] at later
      have total : steps + (1 + (passes + 1) * (body.length + 1)) =
          steps + 1 + body.length + (1 + passes * (body.length + 1)) := by
        rw [Nat.add_mul]
        omega
      rw [total]
      exact (bracket.repeats steps current nonzero).reaches.trans (pass.trans later)

theorem run_multiplies {source : List UInt8} {program : Program}
    (loaded : Program.ofBytes source = .ok program) {interpreter : Interpreter} {input : Input}
    {output : Output} {fuel : Nat} {halt : Halt}
    (ran : interpreter.run program fuel input output = some halt)
    (finished : halt.ending = .finished) (linear : Linear body)
    (room : halt.state.machine.tape.current? = some 0 ∨ halt.state.machine.tape.Spans body) :
    ∃ cell joined more halt', halt.state.machine.tape.current? = some cell ∧
      Program.ofBytes (source ++ looped (spelled body)) = .ok joined ∧
      interpreter.run joined more input output = some halt' ∧
      halt'.ending = .finished ∧
      halt.state.machine.tape.Multiplied body cell halt'.state.machine.tape ∧
      halt'.state.machine.input = halt.state.machine.input ∧
      halt'.state.machine.output = halt.state.machine.output ∧
      halt'.state.steps = halt.state.steps + (1 + cell.toNat * (body.length + 1)) := by
  have balanced := Balanced.map_simple body
  rw [← decode_spelled] at balanced
  obtain ⟨loop, read, code⟩ := Program.exists_ofBytes_looped balanced
  rw [decode_spelled] at code
  obtain ⟨joined, read', split⟩ := Program.exists_ofBytes_append loaded read
  have linked := Program.linked_of_ofBytes loaded
  have linked' := Program.linked_of_ofBytes read
  have joins := Program.linked_of_ofBytes read'
  obtain ⟨cell, current⟩ : ∃ cell, halt.state.machine.tape.current? = some cell :=
    room.elim (fun zero => ⟨0, zero⟩) Tape.Spans.exists_current
  have room' : cell = 0 ∨ halt.state.machine.tape.Spans body := by
    rw [current, Option.some.injEq] at room
    exact room
  have atEnd : loop.instruction? (body.length + 2) = none := by
    rw [loop.instruction?_eq, code]
    simp
  have reached := linear.reaches_behind linked' code interpreter.eof halt.state.machine.input
    halt.state.machine.output cell.toNat current rfl room' (loops_of_linked linked' code).1 0
  rw [Nat.zero_add] at reached
  obtain ⟨more, behind⟩ := reached.halts (Stop.finished atEnd).step_eq
  have last : joined.length = loop.length + program.length := by
    rw [← joined.length_code, split, List.length_append, program.length_code, loop.length_code,
      Nat.add_comm]
  have continues := Interpreter.run_of_back linked (linked.within_front joins split)
    (linked'.within_back joins split) last ran finished more
  rw [behind] at continues
  exact ⟨cell, joined, _, _, current, read', continues, rfl, linear.multiplied_added current,
    rfl, rfl, Nat.add_comm _ _⟩

theorem run_multiplies_two_by_one :
    ∃ joined more halt', Program.ofBytes
        (['+', '+'].map Char.toUInt8 ++ ['[', '-', '>', '+', '<', ']'].map Char.toUInt8) =
          .ok joined ∧
      Interpreter.run ⟨2, .zero⟩ joined more [] {} = some halt' ∧
      halt'.state.machine.tape.cell? 0 = some 0 ∧ halt'.state.machine.tape.cell? 1 = some 2 ∧
      halt'.state.steps = 13 := by
  let program : Program :=
    ⟨#[.simple .increment, .simple .increment], #[0, 1], #[none, none], #[none, none]⟩
  let body : List Action := [.decrement, .right, .increment, .left]
  have loaded : Program.ofBytes (['+', '+'].map Char.toUInt8) = .ok program := rfl
  have ran : Interpreter.run ⟨2, .zero⟩ program 3 [] {} =
      some ⟨.finished, 2, ⟨⟨#[2, 0], 0⟩, [], {}⟩, 2⟩ := rfl
  have linear : Linear body := ⟨by decide, rfl, rfl⟩
  have spans : (⟨#[2, 0], 0⟩ : Tape).Spans body := by
    intro visited isFront
    have bounds : ∀ visited ∈ body.inits, 0 ≤ travel visited ∧ travel visited < 2 := by decide
    have inside := bounds visited ((List.mem_inits _ _).mpr isFront)
    simpa [Tape.size] using inside
  obtain ⟨cell, joined, more, halt', current, read, continues, -, multiplied, -, -, steps⟩ :=
    run_multiplies loaded ran rfl linear (Or.inr spans)
  obtain rfl : 2 = cell := Option.some.inj current
  obtain ⟨new, found, counted⟩ := multiplied.others 1 0 rfl (by decide)
  obtain rfl : new = 2 := UInt8.toNat_inj.mp (Int.ofNat.inj counted)
  refine ⟨joined, more, halt', read, continues, ?_, found, steps⟩
  have emptied := multiplied.current?_eq
  rwa [Tape.current?, multiplied.pointer_eq] at emptied

end Brainfuck
