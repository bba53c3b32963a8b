import Brainfuck.Proofs.History
import Brainfuck.Proofs.Safety
import Mathlib.Data.Int.ModEq

namespace Brainfuck

namespace Action

def onTape : Action → Bool
  | .output | .input => false
  | _ => true

def gain : Action → Int
  | .increment => 1
  | .decrement => -1
  | _ => 0

end Action

def travel (body : List Action) : Int := body.count .right - body.count .left

/-- The increments less the decrements at the cell so far to the right of the first one. -/
def gainAt : List Action → Int → Int
  | [], _ => 0
  | action :: rest, distance =>
    (if distance = 0 then action.gain else 0) + gainAt rest (distance - action.move)

theorem travel_cons (action : Action) (rest : List Action) :
    travel (action :: rest) = action.move + travel rest := by
  unfold travel
  cases action <;> simp [Action.move] <;> omega

theorem travel_singleton (action : Action) : travel [action] = action.move := by
  rw [travel_cons]
  exact Int.add_zero _

theorem ofInt_zero : UInt8.ofInt 0 = 0 := rfl

theorem toNat_ofInt (n : Int) : ((UInt8.ofInt n).toNat : Int) = n % 256 := by
  have nonneg : 0 ≤ n % 2 ^ 8 := Int.emod_nonneg n (by decide)
  have lt : n % 2 ^ 8 < 2 ^ 8 := Int.emod_lt_of_pos n (by decide)
  rw [UInt8.ofInt, UInt8.toNat_ofNat', Nat.mod_eq_of_lt (by omega), Int.toNat_of_nonneg nonneg]
  rfl

theorem toNat_add_ofInt (byte : UInt8) (n : Int) :
    ((byte + UInt8.ofInt n).toNat : Int) = (byte.toNat + n) % 256 := by
  rw [UInt8.toNat_add, Int.natCast_mod, Int.natCast_add, toNat_ofInt]
  exact Int.add_emod_emod _ _ _

theorem ofInt_congr {n m : Int} (same : n ≡ m [ZMOD 256]) :
    UInt8.ofInt n = UInt8.ofInt m := by
  unfold UInt8.ofInt
  rw [show n % 2 ^ 8 = m % 2 ^ 8 from same]

namespace Tape

def added (gains : Int → Int) (tape : Tape) : Tape :=
  ⟨tape.cells.mapIdx fun i cell => cell + UInt8.ofInt (gains (i - tape.pointer)), tape.pointer⟩

def through (body : List Action) (tape : Tape) : Tape :=
  ⟨(tape.added (gainAt body)).cells, (tape.pointer + travel body).toNat⟩

def Spans (tape : Tape) (body : List Action) : Prop :=
  ∀ visited, visited <+: body →
    0 ≤ tape.pointer + travel visited ∧ tape.pointer + travel visited < tape.size

variable {tape : Tape} {gains more : Int → Int} {action : Action} {body later : List Action}

theorem ext_cell? {first second : Tape} (pointer : first.pointer = second.pointer)
    (cells : ∀ i, first.cell? i = second.cell? i) : first = second := by
  cases first
  cases second
  rw [mk.injEq]
  exact ⟨Array.ext_getElem? cells, pointer⟩

theorem size_added (gains : Int → Int) (tape : Tape) : (tape.added gains).size = tape.size := by
  simp [added, size]

theorem cell?_added (gains : Int → Int) (tape : Tape) (i : Nat) :
    (tape.added gains).cell? i =
      (tape.cell? i).map (· + UInt8.ofInt (gains (i - tape.pointer))) := by
  simp [added, cell?]

theorem current?_added (gains : Int → Int) (tape : Tape) :
    (tape.added gains).current? = tape.current?.map (· + UInt8.ofInt (gains 0)) := by
  have here : (tape.added gains).current? = (tape.added gains).cell? tape.pointer := rfl
  rw [here, cell?_added, Int.sub_self]
  rfl

theorem added_congr (same : ∀ distance, gains distance ≡ more distance [ZMOD 256]) :
    tape.added gains = tape.added more := by
  apply ext_cell?
  · rfl
  · intro i
    rw [cell?_added, cell?_added, ofInt_congr (same _)]

theorem added_zero (tape : Tape) : tape.added (fun _ => 0) = tape := by
  apply ext_cell?
  · rfl
  · intro i
    rw [cell?_added]
    simp [ofInt_zero]

theorem added_added (gains more : Int → Int) (tape : Tape) :
    (tape.added gains).added more = tape.added fun distance => gains distance + more distance := by
  apply ext_cell?
  · rfl
  · intro i
    rw [cell?_added, cell?_added, cell?_added, Option.map_map]
    apply Option.map_congr
    intro cell _
    rw [UInt8.ofInt_add, ← UInt8.add_assoc]
    rfl

theorem write_eq_added {cell : UInt8} (current : tape.current? = some cell) (n : Int) :
    tape.write (cell + UInt8.ofInt n) =
      tape.added fun distance => if distance = 0 then n else 0 := by
  apply ext_cell?
  · rfl
  · intro i
    rw [cell?_added, write, cell?, Array.getElem?_setIfInBounds]
    by_cases here : tape.pointer = i
    · subst here
      obtain ⟨bound, rfl⟩ := Array.getElem?_eq_some_iff.mp current
      simp [cell?, bound]
    · have apart : (i : Int) - tape.pointer ≠ 0 := by omega
      simp [here, apart, cell?, ofInt_zero]

theorem Spans.pointer_lt (spans : tape.Spans body) : tape.pointer < tape.size := by
  have bounds := spans [] List.nil_prefix
  simp [travel] at bounds
  exact bounds

theorem Spans.exists_current (spans : tape.Spans body) : ∃ cell, tape.current? = some cell :=
  ⟨_, Array.getElem?_eq_getElem spans.pointer_lt⟩

theorem Spans.first (spans : tape.Spans (action :: later)) :
    0 ≤ tape.pointer + action.move ∧ tape.pointer + action.move < tape.size := by
  have bounds := spans [action] (by simp)
  rwa [travel_singleton] at bounds

theorem pointer_through_single (inside : 0 ≤ tape.pointer + action.move) :
    ((tape.through [action]).pointer : Int) = tape.pointer + action.move := by
  unfold through
  rw [travel_singleton]
  exact Int.toNat_of_nonneg inside

theorem through_through (inside : 0 ≤ tape.pointer + action.move) :
    (tape.through [action]).through later = tape.through (action :: later) := by
  have pointer_eq := pointer_through_single inside
  apply ext_cell?
  · unfold through at pointer_eq ⊢
    rw [pointer_eq, travel_cons action later, Int.add_assoc]
  · intro i
    have cells (body : List Action) (tape : Tape) :
        (tape.through body).cell? i = (tape.added (gainAt body)).cell? i := rfl
    rw [cells, cell?_added, cells, cells, cell?_added, cell?_added, pointer_eq, Option.map_map]
    apply Option.map_congr
    intro cell _
    dsimp only [Function.comp]
    rw [gainAt, gainAt, gainAt, Int.add_zero, UInt8.ofInt_add, ← UInt8.add_assoc, Int.sub_sub]

theorem Spans.rest (spans : tape.Spans (action :: later)) :
    (tape.through [action]).Spans later := by
  intro visited isFront
  have bounds := spans (action :: visited) (by simpa using isFront)
  rw [pointer_through_single spans.first.1, Int.add_assoc, ← travel_cons]
  rwa [show (tape.through [action]).size = tape.size from size_added _ tape]

theorem through_of_return (returns : travel body = 0) :
    tape.through body = tape.added (gainAt body) := by
  unfold through
  rw [returns, Int.add_zero, Int.toNat_natCast]
  rfl

end Tape

def spelled (body : List Action) : List UInt8 :=
  body.map fun action => (Instruction.simple action).byte

theorem decode_spelled (body : List Action) : decode (spelled body) = body.map .simple := by
  unfold decode spelled
  rw [List.filterMap_map, ← List.filterMap_eq_map]
  congr 1
  funext action
  exact Instruction.ofByte?_byte _

theorem Acts.through {eof : EofPolicy} {ip : Nat} {cell : UInt8} {tape : Tape} {action : Action}
    (onTape : action.onTape) (current : tape.current? = some cell)
    (low : 0 ≤ tape.pointer + action.move) (high : tape.pointer + action.move < tape.size)
    (input : Input) (output : Output) :
    Acts eof ip cell ⟨tape, input, output⟩ action
      (.done ⟨tape.through [action], input, output⟩) := by
  have stays (none : action.move = 0) : tape.through [action] =
      tape.added fun distance => if distance = 0 then action.gain else 0 := by
    rw [Tape.through_of_return ((travel_singleton action).trans none)]
    apply Tape.added_congr
    intro distance
    simp [gainAt]
  have goes (none : action.gain = 0) : tape.through [action] =
      ⟨tape.cells, (tape.pointer + action.move).toNat⟩ := by
    have unchanged : tape.added (gainAt [action]) = tape := by
      rw [← tape.added_zero, Tape.added_added]
      apply Tape.added_congr
      intro distance
      simp [gainAt, none]
    unfold Tape.through
    rw [unchanged, travel_singleton]
  cases action with
  | right =>
      rw [goes rfl]
      have room : tape.pointer + 1 < tape.cells.size := Int.ofNat_lt.mp high
      exact .right (if_pos room)
  | left =>
      rw [goes rfl]
      refine .left ?_
      obtain ⟨cells, _ | pointer⟩ := tape
      · simp [Action.move] at low
      · simp [Tape.moveLeft?, Action.move]
  | increment =>
      rw [stays rfl, ← Tape.write_eq_added current]
      exact .increment
  | decrement =>
      rw [stays rfl, ← Tape.write_eq_added current,
        show UInt8.ofInt Action.decrement.gain = -1 from rfl, ← UInt8.sub_eq_add_neg]
      exact .decrement
  | output => simp [Action.onTape] at onTape
  | input => simp [Action.onTape] at onTape

theorem reaches_straight {program : Program} {front rest : List Instruction} {body : List Action}
    (split : program.code = front ++ (body.map .simple ++ rest))
    (onTape : ∀ action ∈ body, action.onTape) {tape : Tape} (spans : tape.Spans body)
    (eof : EofPolicy) (input : Input) (output : Output) (steps : Nat) :
    Reaches program eof ⟨front.length, ⟨tape, input, output⟩, steps⟩
      ⟨front.length + body.length, ⟨tape.through body, input, output⟩, steps + body.length⟩ := by
  induction body generalizing front tape steps with
  | nil =>
      rw [Tape.through_of_return rfl, show gainAt [] = fun _ => 0 from rfl, Tape.added_zero]
      exact .refl
  | cons action body ih =>
      rw [List.forall_mem_cons] at onTape
      obtain ⟨cell, current⟩ := spans.exists_current
      have here : program.instruction? front.length = some (.simple action) := by
        rw [program.instruction?_eq, split]
        simp
      have acts : Acts eof front.length cell _ _ _ :=
        .through onTape.1 current spans.first.1 spans.first.2 input output
      have split' : program.code = (front ++ [.simple action]) ++ (body.map .simple ++ rest) := by
        simpa using split
      have later := ih split' onTape.2 spans.rest (steps + 1)
      rw [Tape.through_through spans.first.1, List.length_append, List.length_singleton,
        Nat.add_right_comm, Nat.add_assoc, Nat.add_right_comm steps, Nat.add_assoc steps] at later
      exact later.head (Transition.simple here current acts.act_eq).step_eq

end Brainfuck
