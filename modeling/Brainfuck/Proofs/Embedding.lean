import Brainfuck.Proofs.History
import Brainfuck.Proofs.Safety

/-!
Balanced code keeps its brackets to itself wherever it stands. So a program that stands in another
one runs there as it does alone, with its positions shifted, until it is finished
(`Within.step_eq`).
-/

namespace Brainfuck

section

variable {code front rest left right : List Instruction} {o c : Nat}

theorem getElem?_placed (inside : o < code.length) :
    (front ++ (code ++ rest))[o + front.length]? = code[o]? := by
  rw [List.getElem?_append_right (by omega), Nat.add_sub_cancel, List.getElem?_append_left inside]

theorem Balanced.exists_closing_of_placed (balanced : Balanced code) (inside : o < code.length)
    (partners : Partners (front ++ (code ++ rest)) (o + front.length) c) :
    ∃ c', Partners code o c' ∧ c = c' + front.length := by
  have opens := partners.opens
  rw [getElem?_placed inside] at opens
  obtain ⟨c', found⟩ := balanced.exists_closing opens
  exact ⟨c', found, partners.closing_unique (found.placed front rest)⟩

theorem Balanced.exists_opening_of_placed (balanced : Balanced code) (inside : c < code.length)
    (partners : Partners (front ++ (code ++ rest)) o (c + front.length)) :
    ∃ o', Partners code o' c ∧ o = o' + front.length := by
  have closes := partners.closes
  rw [getElem?_placed inside] at closes
  obtain ⟨o', found⟩ := balanced.exists_opening closes
  exact ⟨o', found, partners.opening_unique (found.placed front rest)⟩

theorem Balanced.partners_append_iff (hl : Balanced left) (hr : Balanced right) :
    Partners (left ++ right) o c ↔
      Partners left o c ∨
        ∃ o' c', Partners right o' c' ∧ o = o' + left.length ∧ c = c' + left.length := by
  constructor
  · intro partners
    have bound : o < (left ++ right).length := Nat.lt_trans partners.lt partners.closing_lt
    rcases Nat.lt_or_ge o left.length with inLeft | ge
    · have placed : Partners ([] ++ (left ++ right)) (o + ([] : List Instruction).length) c :=
        partners
      obtain ⟨c', found, rfl⟩ := hl.exists_closing_of_placed inLeft placed
      exact Or.inl found
    · obtain ⟨o', rfl⟩ := Nat.exists_eq_add_of_le' ge
      rw [← List.append_nil right] at partners
      rw [List.length_append] at bound
      obtain ⟨c', found, rfl⟩ := hr.exists_closing_of_placed (by omega) partners
      exact Or.inr ⟨o', c', found, rfl, rfl⟩
  · rintro (partners | ⟨o', c', partners, rfl, rfl⟩)
    · exact partners.placed [] right
    · have placed := partners.placed left []
      rwa [List.append_nil] at placed

end

section

variable (errors : RunError → RunError)

def Ending.map : Ending → Ending
  | .finished => .finished
  | .failed error => .failed (errors error)
  | .stuck => .stuck
  | .overflow => .overflow

def Effect.map (machines : Machine → Machine) : Effect → Effect
  | .done machine => .done (machines machine)
  | .failed error machine => .failed (errors error) (machines machine)

def Halt.map (states : State → State) (halt : Halt) : Halt :=
  ⟨halt.ending.map errors, states halt.state⟩

def Step.map (states : State → State) : Step → Step
  | .next state => .next (states state)
  | .halt final => .halt (final.map errors states)

end

/-- If steps commute with a map where `holds`, so do runs that come to an end that is `kept`. -/
theorem runFrom_map {program other : Program} {eof : EofPolicy} {errors : RunError → RunError}
    {states : State → State} (holds : State → Prop) (kept : Halt → Prop)
    (commutes : ∀ state, holds state → (∀ halt, step program eof state = .halt halt → kept halt) →
      step other eof (states state) = (step program eof state).map errors states)
    (keeps : ∀ state after, holds state → step program eof state = .next after → holds after)
    (fuel : Nat) {state : State} (start : holds state)
    (ends : ∀ halt, runFrom program eof fuel state = some halt → kept halt) :
    runFrom other eof fuel (states state) =
      (runFrom program eof fuel state).map (Halt.map errors states) := by
  induction fuel generalizing state with
  | zero => rfl
  | succ fuel ih =>
      rw [runFrom] at ends ⊢
      rw [runFrom]
      cases result : step program eof state with
      | next after =>
          rw [commutes state start (by simp [result]), result]
          rw [result] at ends
          exact ih (keeps state after start result) ends
      | halt halt =>
          rw [result] at ends
          rw [commutes state start (by simpa [result] using ends), result]
          rfl

def RunError.relocated (move : Nat → Nat) : RunError → RunError
  | .outOfBounds ip pointer op => .outOfBounds (move ip) pointer op
  | .io ip cause => .io (move ip) cause
  | .emptyTape => .emptyTape

theorem Acts.relocated {eof : EofPolicy} {ip : Nat} {cell : UInt8} {machine : Machine}
    {action : Action} {effect : Effect} (acts : Acts eof ip cell machine action effect)
    (move : Nat → Nat) :
    Acts eof (move ip) cell machine action (effect.map (RunError.relocated move) id) := by
  cases acts with
  | right moves => exact .right moves
  | rightmost blocked => exact .rightmost blocked
  | left moves => exact .left moves
  | leftmost blocked => exact .leftmost blocked
  | increment => exact .increment
  | decrement => exact .decrement
  | emit sent => exact .emit sent
  | unsent failed => exact .unsent failed
  | read got => exact .read got
  | fill ended => exact .fill ended
  | unread failed => exact .unread failed

def RunError.shifted (distance : Nat) : RunError → RunError
  | .outOfBounds ip pointer op => .outOfBounds (ip + distance) pointer op
  | .io ip cause => .io (ip + distance) cause
  | .emptyTape => .emptyTape

def State.shifted (distance steps : Nat) (state : State) : State :=
  ⟨state.ip + distance, state.machine, state.steps + steps⟩

def Halt.shifted (distance steps : Nat) (halt : Halt) : Halt :=
  halt.map (RunError.shifted distance) (State.shifted distance steps)

@[simp] theorem State.shifted_zero (state : State) : state.shifted 0 0 = state := rfl

@[simp] theorem Halt.shifted_zero (halt : Halt) : halt.shifted 0 0 = halt := by
  obtain ⟨_ | ⟨_ | _ | _⟩ | _ | _, state⟩ := halt <;> rfl

theorem RunError.shifted_eq_relocated (distance : Nat) :
    shifted distance = relocated (· + distance) := by
  funext error
  cases error <;> rfl

theorem Acts.shifted {eof : EofPolicy} {ip : Nat} {cell : UInt8} {machine : Machine}
    {action : Action} {effect : Effect} (acts : Acts eof ip cell machine action effect)
    (distance : Nat) :
    Acts eof (ip + distance) cell machine action (effect.map (RunError.shifted distance) id) := by
  rw [RunError.shifted_eq_relocated]
  exact acts.relocated (· + distance)

theorem Step.jump_shifted (partner : Option Nat) (ip : Nat) (machine : Machine)
    (n distance steps : Nat) :
    jump (partner.map (· + distance)) (ip + distance) machine (n + steps) =
      (jump partner ip machine n).map (RunError.shifted distance)
        (State.shifted distance steps) := by
  cases partner with
  | none => rfl
  | some target =>
      simp only [Option.map_some, jump, map, State.shifted, Nat.add_right_comm]

structure Program.Within (part whole : Program) (start : Nat) : Prop where
  instruction?_eq : ∀ ip, ip < part.length →
    whole.instruction? (ip + start) = part.instruction? ip
  forward_eq : ∀ ip, ip < part.length →
    whole.forward (ip + start) = (part.forward ip).map (· + start)
  backward_eq : ∀ ip, ip < part.length →
    whole.backward (ip + start) = (part.backward ip).map (· + start)

theorem Program.Linked.within {part whole : Program} (linked : part.Linked)
    (linked' : whole.Linked) {front rest : List Instruction}
    (split : whole.code = front ++ (part.code ++ rest)) : part.Within whole front.length where
  instruction?_eq ip inside := by
    rw [whole.instruction?_eq, part.instruction?_eq, split]
    exact getElem?_placed (part.length_code ▸ inside)
  forward_eq ip inside := by
    apply Option.ext
    intro c
    rw [linked'.forward_iff, split, Option.map_eq_some_iff]
    constructor
    · intro partners
      obtain ⟨c', found, rfl⟩ :=
        linked.balanced.exists_closing_of_placed (part.length_code ▸ inside) partners
      exact ⟨c', (linked.forward_iff _ _).mpr found, rfl⟩
    · rintro ⟨c', found, rfl⟩
      exact ((linked.forward_iff _ _).mp found).placed front rest
  backward_eq ip inside := by
    apply Option.ext
    intro o
    rw [linked'.backward_iff, split, Option.map_eq_some_iff]
    constructor
    · intro partners
      obtain ⟨o', found, rfl⟩ :=
        linked.balanced.exists_opening_of_placed (part.length_code ▸ inside) partners
      exact ⟨o', (linked.backward_iff _ _).mpr found, rfl⟩
    · rintro ⟨o', found, rfl⟩
      exact ((linked.backward_iff _ _).mp found).placed front rest

theorem inside_or_finished (program : Program) (eof : EofPolicy) (state : State) :
    state.ip < program.length ∨ step program eof state = .halt ⟨.finished, state⟩ := by
  rcases Nat.lt_or_ge state.ip program.length with inside | beyond
  · exact Or.inl inside
  · have atEnd : program.instruction? state.ip = none := Array.getElem?_eq_none beyond
    exact Or.inr (Stop.finished atEnd).step_eq

namespace Program.Within

variable {part whole : Program} {start : Nat} {eof : EofPolicy} {state : State}

theorem step_eq (within : part.Within whole start) (inside : state.ip < part.length)
    (eof : EofPolicy) (steps : Nat) :
    step whole eof (state.shifted start steps) =
      (step part eof state).map (RunError.shifted start) (State.shifted start steps) := by
  obtain ⟨ip, machine, n⟩ := state
  simp only [step, State.shifted, within.instruction?_eq ip inside]
  cases part.instruction? ip with
  | none => rfl
  | some instruction =>
      cases machine.tape.current? with
      | none => cases instruction <;> rfl
      | some cell =>
          cases instruction with
          | simple action =>
              dsimp only
              rw [((machine.acts_act eof ip action cell).shifted start).act_eq]
              cases machine.act eof ip action cell with
              | done after =>
                  simp only [Effect.map, id, Step.map, State.shifted, Nat.add_right_comm]
              | failed error after => rfl
          | loopStart =>
              dsimp only
              split
              · rw [within.forward_eq ip inside, Step.jump_shifted]
              · simp only [Step.map, State.shifted, Nat.add_right_comm]
          | loopEnd =>
              dsimp only
              split
              · simp only [Step.map, State.shifted, Nat.add_right_comm]
              · rw [within.backward_eq ip inside, Step.jump_shifted]

theorem step_eq_of_last (within : part.Within whole start)
    (last : whole.length = part.length + start) (state : State) (steps : Nat) :
    step whole eof (state.shifted start steps) =
      (step part eof state).map (RunError.shifted start) (State.shifted start steps) := by
  rcases inside_or_finished part eof state with inside | finished
  · exact within.step_eq inside eof steps
  · rcases inside_or_finished whole eof (state.shifted start steps) with inside | finished'
    · rw [last] at inside
      exact within.step_eq (Nat.lt_of_add_lt_add_right inside) eof steps
    · rw [finished, finished']
      rfl

theorem runFrom_eq_of_last (within : part.Within whole start)
    (last : whole.length = part.length + start) (fuel : Nat) (state : State) (steps : Nat) :
    runFrom whole eof fuel (state.shifted start steps) =
      (runFrom part eof fuel state).map (Halt.shifted start steps) :=
  runFrom_map (fun _ => True) (fun _ => True)
    (fun state _ _ => within.step_eq_of_last last state steps) (fun _ _ _ _ => trivial) fuel trivial
    fun _ _ => trivial

theorem runFrom_eq (within : part.Within whole start) {fuel : Nat} (state : State) (steps : Nat)
    (unfinished : ∀ halt, runFrom part eof fuel state = some halt → halt.ending ≠ .finished) :
    runFrom whole eof fuel (state.shifted start steps) =
      (runFrom part eof fuel state).map (Halt.shifted start steps) := by
  refine runFrom_map (fun _ => True) (fun halt => halt.ending ≠ .finished)
    (fun state _ ends => ?_) (fun _ _ _ _ => trivial) fuel trivial unfinished
  rcases inside_or_finished part eof state with inside | finished
  · exact within.step_eq inside eof steps
  · exact absurd rfl (ends _ finished)

theorem runFrom_finished (within : part.Within whole start) {fuel : Nat} {halt : Halt}
    (ran : runFrom part eof fuel state = some halt) (finished : halt.ending = .finished)
    (steps : Nat) :
    ∃ taken, halt.state.steps = state.steps + taken ∧ ∀ more,
      runFrom whole eof (taken + more) (state.shifted start steps) =
        runFrom whole eof more (halt.state.shifted start steps) := by
  induction fuel generalizing state with
  | zero => simp [runFrom] at ran
  | succ fuel ih =>
      rw [runFrom] at ran
      cases result : step part eof state with
      | halt last =>
          rw [result, Option.some.injEq] at ran
          subst ran
          cases stop_of_step result with
          | finished atEnd => exact ⟨0, rfl, fun more => by rw [Nat.zero_add]⟩
          | _ => simp at finished
      | next after =>
          have inside : state.ip < part.length := by
            rcases inside_or_finished part eof state with inside | stopped
            · exact inside
            · simp [result] at stopped
          have stepped := within.step_eq inside eof steps
          rw [result] at ran stepped
          obtain ⟨taken, steps_eq, continues⟩ := ih ran
          refine ⟨taken + 1, ?_, fun more => ?_⟩
          · rw [steps_eq, (transition_of_step result).steps_eq, Nat.add_right_comm, Nat.add_assoc]
          · rw [Nat.add_right_comm, runFrom, stepped]
            exact continues more

end Program.Within

end Brainfuck
