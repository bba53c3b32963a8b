import Brainfuck.Proofs.Concatenation

/-!
Balanced code can be put in anywhere without a change to which other brackets belong together
(`Partners.insert`). So two programs with different segments in the same code run alike if the
segments, entered with the same machine, leave the same machine behind (`Exchange.follow`).
-/

namespace Brainfuck

/-- The position of an instruction when so many others have been put in at `start`. -/
def spread (start width ip : Nat) : Nat := if ip < start then ip else ip + width

theorem spread_lt_spread {start width ip ip' : Nat} (lt : ip < ip') :
    spread start width ip < spread start width ip' := by
  unfold spread
  split <;> split <;> omega

section

variable {front mid rest : List Instruction} {o c : Nat}

theorem Balanced.insert_iff (balanced : Balanced mid) :
    Balanced (front ++ (mid ++ rest)) ↔ Balanced (front ++ rest) := by
  have total := balanced.2
  constructor
  · rintro ⟨bounds, whole⟩
    refine ⟨fun code isFront => ?_, ?_⟩
    · rcases exists_prefix_append isFront with shorter | ⟨more, rfl, isMore⟩
      · exact bounds code (shorter.trans (List.prefix_append _ _))
      · have counts := bounds (front ++ (mid ++ more)) (by simpa using isMore)
        simp only [List.count_append] at counts ⊢
        omega
    · simp only [List.count_append] at whole ⊢
      omega
  · rintro ⟨bounds, whole⟩
    refine ⟨fun code isFront => ?_, ?_⟩
    · rcases exists_prefix_append isFront with shorter | ⟨more, rfl, isMore⟩
      · exact bounds code (shorter.trans (List.prefix_append _ _))
      · rcases exists_prefix_append isMore with inside | ⟨behind, rfl, isBehind⟩
        · have before := bounds front (List.prefix_append _ _)
          have inner := balanced.1 more inside
          simp only [List.count_append]
          omega
        · have counts := bounds (front ++ behind) (by simpa using isBehind)
          simp only [List.count_append] at counts ⊢
          omega
    · simp only [List.count_append] at whole ⊢
      omega

theorem getElem?_spread (front mid rest : List Instruction) (ip : Nat) :
    (front ++ (mid ++ rest))[spread front.length mid.length ip]? = (front ++ rest)[ip]? := by
  unfold spread
  split
  · next ahead => rw [List.getElem?_append_left ahead, List.getElem?_append_left ahead]
  · next behind =>
      rw [List.getElem?_append_right (by omega), List.getElem?_append_right (by omega),
        List.getElem?_append_right (by omega)]
      congr 1
      omega

theorem segment_behind (mid rest : List Instruction) {i j : Nat} (behind : front.length ≤ i) :
    segment (front ++ (mid ++ rest)) (i + mid.length) (j + mid.length) =
      segment (front ++ rest) i j := by
  obtain ⟨k, rfl⟩ := Nat.exists_eq_add_of_le behind
  rw [segment, segment, Nat.add_assoc, List.drop_length_add_append, Nat.add_comm k,
    List.drop_length_add_append, List.drop_length_add_append, ← Nat.add_assoc,
    Nat.add_right_comm, Nat.add_sub_add_right]

theorem segment_around (mid rest : List Instruction) {i j : Nat} (ahead : i ≤ front.length)
    (behind : front.length ≤ j) :
    segment (front ++ (mid ++ rest)) i (j + mid.length) =
      segment front i front.length ++ (mid ++ segment (front ++ rest) front.length j) := by
  have middle :
      segment (front ++ (mid ++ rest)) front.length (front.length + mid.length) = mid := by
    rw [segment, List.drop_left, Nat.add_sub_cancel_left, List.take_left]
  rw [segment_split _ ahead (Nat.le_trans behind (Nat.le_add_right _ _)),
    segment_split _ (Nat.le_add_right front.length mid.length) (Nat.add_le_add_right behind _),
    segment_append _ (Nat.le_refl _), middle, segment_behind mid rest (Nat.le_refl _)]

theorem Partners.insert (partners : Partners (front ++ rest) o c) (balanced : Balanced mid) :
    Partners (front ++ (mid ++ rest)) (spread front.length mid.length o)
      (spread front.length mid.length c) := by
  obtain ⟨lt, opens, closes, body⟩ := partners
  refine ⟨spread_lt_spread lt, ?_, ?_, ?_⟩
  · rwa [getElem?_spread]
  · rwa [getElem?_spread]
  · unfold spread
    by_cases ahead : c < front.length
    · rw [if_pos ahead, if_pos (Nat.lt_trans lt ahead)]
      rwa [segment_append _ (Nat.le_of_lt ahead)] at body ⊢
    · have behind := Nat.le_of_not_lt ahead
      rw [if_neg ahead]
      split
      · next opened =>
          rw [segment_around mid rest opened behind, balanced.insert_iff]
          rwa [segment_split _ opened behind, segment_append _ (Nat.le_refl _)] at body
      · next opened =>
          rw [Nat.add_right_comm, segment_behind mid rest (by omega)]
          exact body

end

structure Program.Around (outer whole : Program) (start width : Nat) : Prop where
  instruction?_eq : ∀ ip, whole.instruction? (spread start width ip) = outer.instruction? ip
  forward_eq : ∀ ip, whole.forward (spread start width ip) =
    (outer.forward ip).map (spread start width)
  backward_eq : ∀ ip, whole.backward (spread start width ip) =
    (outer.backward ip).map (spread start width)

theorem Program.Linked.around {outer whole : Program} (linked : outer.Linked)
    (linked' : whole.Linked) {front mid rest : List Instruction} (code : outer.code = front ++ rest)
    (code' : whole.code = front ++ (mid ++ rest)) (balanced : Balanced mid) :
    outer.Around whole front.length mid.length := by
  have same (ip : Nat) : whole.instruction? (spread front.length mid.length ip) =
      outer.instruction? ip := by
    rw [whole.instruction?_eq, outer.instruction?_eq, code, code', getElem?_spread]
  refine ⟨same, fun ip => ?_, fun ip => ?_⟩
  · cases partner : outer.forward ip with
    | some c =>
        have partners := (linked.forward_iff ip c).mp partner
        rw [code] at partners
        rw [Option.map_some, linked'.forward_iff, code']
        exact partners.insert balanced
    | none =>
        have plain := (linked.forward_isSome_iff ip).not
        rw [← same, ← linked'.forward_isSome_iff, partner] at plain
        simpa using plain
  · cases partner : outer.backward ip with
    | some o =>
        have partners := (linked.backward_iff o ip).mp partner
        rw [code] at partners
        rw [Option.map_some, linked'.backward_iff, code']
        exact partners.insert balanced
    | none =>
        have plain := (linked.backward_isSome_iff ip).not
        rw [← same, ← linked'.backward_isSome_iff, partner] at plain
        simpa using plain

/-- Where control arrives that goes to `ip` in the code without the segment: at `start` it has still
to pass through the segment. -/
def arrival (start width ip : Nat) : Nat := if ip ≤ start then ip else ip + width

theorem arrival_succ (start width ip : Nat) :
    arrival start width (ip + 1) = spread start width ip + 1 := by
  unfold arrival spread
  split <;> split <;> omega

theorem arrival_of_ne {start width ip : Nat} (elsewhere : ip ≠ start) :
    arrival start width ip = spread start width ip := by
  unfold arrival spread
  split <;> split <;> omega

theorem Transition.around {outer whole : Program} {eof : EofPolicy} {start width : Nat}
    (around : outer.Around whole start width) {before after : State}
    (moved : Transition outer eof before after) (steps : Nat) :
    Transition whole eof ⟨spread start width before.ip, before.machine, steps⟩
      ⟨arrival start width after.ip, after.machine, steps + 1⟩ := by
  cases moved with
  | simple here current acted =>
      rw [arrival_succ]
      exact .simple ((around.instruction?_eq _).trans here) current
        ((Machine.act_eq_iff.mp acted).relocated (spread start width)).act_eq
  | skip here zero partner =>
      rw [arrival_succ]
      refine .skip ((around.instruction?_eq _).trans here) zero ?_
      rw [around.forward_eq, partner, Option.map_some]
  | enter here current nonzero =>
      rw [arrival_succ]
      exact .enter ((around.instruction?_eq _).trans here) current nonzero
  | leave here zero =>
      rw [arrival_succ]
      exact .leave ((around.instruction?_eq _).trans here) zero
  | again here current nonzero partner =>
      rw [arrival_succ]
      refine .again ((around.instruction?_eq _).trans here) current nonzero ?_
      rw [around.backward_eq, partner, Option.map_some]

theorem Stop.around {outer whole : Program} {eof : EofPolicy} {start width : Nat}
    (around : outer.Around whole start width) {state : State} {halt : Halt}
    (stop : Stop outer eof state halt) (steps : Nat) :
    Stop whole eof ⟨spread start width state.ip, state.machine, steps⟩
      ⟨halt.ending.map (RunError.relocated (spread start width)), spread start width state.ip,
        halt.state.machine, steps⟩ := by
  cases stop with
  | finished here => exact .finished ((around.instruction?_eq _).trans here)
  | failed here current acted =>
      exact .failed ((around.instruction?_eq _).trans here) current
        ((Machine.act_eq_iff.mp acted).relocated (spread start width)).act_eq
  | offTape here current => exact .offTape ((around.instruction?_eq _).trans here) current
  | unended here zero partner =>
      refine .unended ((around.instruction?_eq _).trans here) zero ?_
      rw [around.forward_eq, partner, Option.map_none]
  | unbegun here current nonzero partner =>
      refine .unbegun ((around.instruction?_eq _).trans here) current nonzero ?_
      rw [around.backward_eq, partner, Option.map_none]

def Passes (program : Program) (eof : EofPolicy) (start width : Nat) (machine after : Machine) :
    Prop :=
  ∀ steps, ∃ steps', Reaches program eof ⟨start, machine, steps⟩ ⟨start + width, after, steps'⟩

/-- Two programs with different segments at `start`, which do the same to the machines that come to
them: those that are admitted. -/
structure Exchange (outer first second : Program) (eof : EofPolicy) (start before after size : Nat)
    (admitted : Machine → Prop) : Prop where
  around : outer.Around first start before
  around' : outer.Around second start after
  arrives : ∀ {state next : State}, Transition outer eof state next → next.ip = start →
    admitted next.machine
  passes : ∀ {machine : Machine}, machine.tape.Fits size → admitted machine →
    ∃ left : Machine, left.tape.Fits size ∧ Passes first eof start before machine left ∧
      Passes second eof start after machine left

def Ending.Across (start before after : Nat) (ending ending' : Ending) : Prop :=
  ∃ outer : Ending, ending = outer.map (RunError.relocated (spread start before)) ∧
    ending' = outer.map (RunError.relocated (spread start after))

namespace Exchange

variable {outer first second : Program} {eof : EofPolicy} {start before after size : Nat}
  {admitted : Machine → Prop}

theorem symm (exchange : Exchange outer first second eof start before after size admitted) :
    Exchange outer second first eof start after before size admitted where
  around := exchange.around'
  around' := exchange.around
  arrives := exchange.arrives
  passes fits admission := by
    obtain ⟨left, fits, passes, passes'⟩ := exchange.passes fits admission
    exact ⟨left, fits, passes', passes⟩

theorem settle (exchange : Exchange outer first second eof start before after size admitted)
    {machine : Machine} (fits : machine.tape.Fits size) {ip : Nat}
    (admission : ip = start → admitted machine) (steps steps' : Nat) :
    ∃ left taken taken', left.tape.Fits size ∧
      Reaches first eof ⟨arrival start before ip, machine, steps⟩
        ⟨spread start before ip, left, taken⟩ ∧
      Reaches second eof ⟨arrival start after ip, machine, steps'⟩
        ⟨spread start after ip, left, taken'⟩ := by
  by_cases inside : ip = start
  · subst inside
    obtain ⟨left, fits, passes, passes'⟩ := exchange.passes fits (admission rfl)
    obtain ⟨taken, reached⟩ := passes steps
    obtain ⟨taken', reached'⟩ := passes' steps'
    refine ⟨left, taken, taken', fits, ?_, ?_⟩
    · simpa [arrival, spread] using reached
    · simpa [arrival, spread] using reached'
  · rw [arrival_of_ne inside, arrival_of_ne inside]
    exact ⟨machine, steps, steps', fits, .refl, .refl⟩

theorem follow (exchange : Exchange outer first second eof start before after size admitted)
    (fuel : Nat) {machine : Machine} (fits : machine.tape.Fits size) {ip : Nat}
    (admission : ip = start → admitted machine) {steps : Nat} {halt : Halt}
    (ran : runFrom first eof fuel ⟨arrival start before ip, machine, steps⟩ = some halt)
    (steps' : Nat) :
    ∃ halt', Halts second eof ⟨arrival start after ip, machine, steps'⟩ halt' ∧
      halt'.state.machine = halt.state.machine ∧
      halt.ending.Across start before after halt'.ending := by
  induction fuel using Nat.strongRec generalizing machine ip steps steps' with
  | ind fuel ih =>
      obtain ⟨left, taken, taken', fits, reached, reached'⟩ :=
        exchange.settle fits admission steps steps'
      obtain ⟨less, le, ran⟩ := reached.exists_runFrom ran
      -- Both programs stand at the same instruction of the outer code, and do what it does.
      rcases transition_or_stop outer eof ⟨ip, left, 0⟩ with ⟨next, moved⟩ | ⟨last, stop⟩
      · obtain ⟨least, lt, ran⟩ := (moved.around exchange.around taken).exists_runFrom ran
        obtain ⟨halt', halts, same⟩ := ih least (Nat.lt_of_lt_of_le lt le) (moved.fits fits)
          (exchange.arrives moved) ran (taken' + 1)
        refine ⟨halt', reached'.halts_iff.mpr ?_, same⟩
        exact (moved.around exchange.around' taken').halts_iff.mpr halts
      · obtain rfl := (stop.around exchange.around taken).eq_of_runFrom ran
        refine ⟨_, reached'.halts_iff.mpr (stop.around exchange.around' taken').halts, rfl, ?_⟩
        exact ⟨last.ending, rfl, rfl⟩

theorem exists_run {interpreter : Interpreter} {input : Input} {output : Output}
    (exchange : Exchange outer first second interpreter.eof start before after
      interpreter.tapeSize admitted)
    (admission : 0 = start → admitted ⟨.blank interpreter.tapeSize, input, output⟩) {fuel : Nat}
    {halt : Halt} (ran : interpreter.run first fuel input output = some halt) :
    ∃ fuel' halt', interpreter.run second fuel' input output = some halt' ∧
      halt'.state.machine = halt.state.machine ∧
      halt.ending.Across start before after halt'.ending := by
  by_cases sized : interpreter.Sized
  · have beginning (width : Nat) : interpreter.start input output =
        ⟨arrival start width 0, ⟨.blank interpreter.tapeSize, input, output⟩, 0⟩ := by
      rw [arrival, if_pos (Nat.zero_le _)]
      rfl
    rw [Interpreter.run_eq_runFrom sized, beginning before] at ran
    obtain ⟨halt', ⟨fuel', ran'⟩, same⟩ :=
      exchange.follow fuel (.blank sized.nonempty) admission ran 0
    rw [← beginning, ← Interpreter.run_eq_runFrom sized] at ran'
    exact ⟨fuel', halt', ran', same⟩
  · obtain ⟨ending, refused, runs⟩ := Interpreter.exists_refusal sized
    obtain rfl := Option.some.inj ((runs first fuel input output).symm.trans ran)
    refine ⟨0, _, runs second 0 input output, rfl, ending, ?_⟩
    rcases refused with ⟨rfl, -⟩ | ⟨rfl, -⟩ <;> exact ⟨rfl, rfl⟩

theorem runs_agree {interpreter : Interpreter} {input : Input} {output : Output}
    (exchange : Exchange outer first second interpreter.eof start before after
      interpreter.tapeSize admitted)
    (admission : 0 = start → admitted ⟨.blank interpreter.tapeSize, input, output⟩) :
    ((∃ fuel halt, interpreter.run first fuel input output = some halt) ↔
      ∃ fuel halt, interpreter.run second fuel input output = some halt) ∧
    ∀ fuel halt fuel' halt', interpreter.run first fuel input output = some halt →
      interpreter.run second fuel' input output = some halt' →
      halt'.state.machine = halt.state.machine ∧
        halt.ending.Across start before after halt'.ending := by
  refine ⟨⟨?_, ?_⟩, ?_⟩
  · rintro ⟨fuel, halt, ran⟩
    obtain ⟨fuel', halt', ran', -⟩ := exchange.exists_run admission ran
    exact ⟨fuel', halt', ran'⟩
  · rintro ⟨fuel, halt, ran⟩
    obtain ⟨fuel', halt', ran', -⟩ := exchange.symm.exists_run admission ran
    exact ⟨fuel', halt', ran'⟩
  · intro fuel halt fuel' halt' ran ran'
    obtain ⟨more, last, found, same⟩ := exchange.exists_run admission ran
    obtain rfl : last = halt' := Interpreter.run_unique found ran'
    exact same

end Exchange

end Brainfuck
