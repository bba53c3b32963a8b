import Brainfuck.Proofs.Scan

namespace Brainfuck

inductive Block where
  | done
  | simple (ip : Nat) (action : Action) (rest : Block)
  | loop (body rest : Block)
  deriving DecidableEq

namespace Block

def flatten : Block → List Instruction
  | .done => []
  | .simple _ action rest => .simple action :: rest.flatten
  | .loop body rest => .loopStart :: (body.flatten ++ .loopEnd :: rest.flatten)

/-- The positions that the simple commands carry are their own when the block begins at `ip`. -/
def Numbered (ip : Nat) : Block → Prop
  | .done => True
  | .simple position _ rest => position = ip ∧ rest.Numbered (ip + 1)
  | .loop body rest => body.Numbered (ip + 1) ∧ rest.Numbered (ip + body.flatten.length + 2)

/-- The program has the instructions of the block from `ip` on, and its brackets are linked. -/
def StandsAt (program : Program) (ip : Nat) : Block → Prop
  | .done => True
  | .simple position action rest =>
    position = ip ∧ program.instruction? ip = some (.simple action) ∧
      rest.StandsAt program (ip + 1)
  | .loop body rest =>
    program.instruction? ip = some .loopStart ∧
      program.instruction? (ip + 1 + body.flatten.length) = some .loopEnd ∧
      program.forward ip = some (ip + 1 + body.flatten.length) ∧
      program.backward (ip + 1 + body.flatten.length) = some ip ∧
      body.StandsAt program (ip + 1) ∧ rest.StandsAt program (ip + 1 + body.flatten.length + 1)

end Block

namespace Balanced

theorem of_append {left right : List Instruction} (whole : Balanced (left ++ right))
    (balanced : Balanced left) : Balanced right := by
  have total := balanced.2
  refine ⟨fun front isFront => ?_, ?_⟩
  · have counts := whole.1 (left ++ front) ((List.prefix_append_right_inj left).mpr isFront)
    simp only [List.count_append] at counts
    omega
  · have counts := whole.2
    simp only [List.count_append] at counts
    omega

theorem uncons {first : Instruction} {rest : List Instruction}
    (balanced : Balanced (first :: rest)) :
    (∃ action, first = .simple action ∧ Balanced rest) ∨
      ∃ body after, first = .loopStart ∧ rest = body ++ .loopEnd :: after ∧ Balanced body ∧
        Balanced after := by
  cases first with
  | simple action => exact Or.inl ⟨action, rfl, of_append balanced (nil.concat_simple action)⟩
  | loopEnd =>
      have ends : Balanced ([] ++ .loopEnd :: rest) := balanced
      exact absurd nil ends.not_before_loopEnd
  | loopStart =>
      have total := balanced.2
      simp at total
      obtain ⟨body, after, rfl, inner⟩ := exists_balanced_before ⟨rest, List.prefix_rfl, by omega⟩
      refine Or.inr ⟨body, after, rfl, rfl, inner, of_append ?_ inner.loop⟩
      simpa using balanced

theorem flatten (block : Block) : Balanced block.flatten := by
  induction block with
  | done => exact nil
  | simple ip action rest ih => exact (nil.concat_simple action).append ih
  | loop body rest ihBody ihRest => simpa [Block.flatten] using ihBody.loop.append ihRest

theorem exists_flatten_eq {code : List Instruction} (balanced : Balanced code) (ip : Nat) :
    ∃ block : Block, block.flatten = code ∧ block.Numbered ip := by
  induction size : code.length using Nat.strongRec generalizing code ip with
  | ind size ih =>
      cases code with
      | nil => exact ⟨.done, rfl, trivial⟩
      | cons first rest =>
          rw [List.length_cons] at size
          rcases balanced.uncons with ⟨action, rfl, later⟩ | ⟨body, after, rfl, rfl, inner, later⟩
          · obtain ⟨block, rfl, numbered⟩ := ih rest.length (by omega) later (ip + 1) rfl
            exact ⟨.simple ip action block, rfl, rfl, numbered⟩
          · rw [List.length_append, List.length_cons] at size
            obtain ⟨block, rfl, numbered⟩ := ih body.length (by omega) inner (ip + 1) rfl
            obtain ⟨block', rfl, numbered'⟩ :=
              ih after.length (by omega) later (ip + block.flatten.length + 2) rfl
            exact ⟨.loop block block', rfl, numbered, numbered'⟩

end Balanced

theorem Block.standsAt {program : Program} (linked : program.Linked) {front rest : List Instruction}
    {ip : Nat} {block : Block} (split : program.code = front ++ (block.flatten ++ rest))
    (start : front.length = ip) (numbered : block.Numbered ip) : block.StandsAt program ip := by
  induction block generalizing front rest ip with
  | done => trivial
  | simple position action more ih =>
      obtain ⟨rfl, numbered⟩ := numbered
      have here : program.instruction? position = some (.simple action) := by
        rw [Program.instruction?_eq, split, ← start]
        simp [flatten]
      have split' : program.code = (front ++ [.simple action]) ++ (more.flatten ++ rest) := by
        simpa [flatten] using split
      exact ⟨rfl, here, ih split' (by simp [start]) numbered⟩
  | loop body more ihBody ihMore =>
      obtain ⟨numbered, numbered'⟩ := numbered
      have bodySplit : program.code = (front ++ [.loopStart]) ++
          (body.flatten ++ (.loopEnd :: (more.flatten ++ rest))) := by
        simpa [flatten] using split
      have moreSplit : program.code = (front ++ .loopStart :: (body.flatten ++ [.loopEnd])) ++
          (more.flatten ++ rest) := by
        simpa [flatten] using split
      have partners : Partners program.code ip (ip + 1 + body.flatten.length) := by
        have found : Partners (front ++ .loopStart :: (body.flatten ++ .loopEnd ::
            (more.flatten ++ rest))) front.length (front.length + (body.flatten.length + 1)) :=
          Partners.of_split (Balanced.flatten body) _
        rw [start, show ip + (body.flatten.length + 1) = ip + 1 + body.flatten.length by omega]
          at found
        simpa [bodySplit] using found
      refine ⟨?_, ?_, ?_, ?_, ?_, ?_⟩
      · rw [Program.instruction?_eq]
        exact partners.opens
      · rw [Program.instruction?_eq]
        exact partners.closes
      · exact (linked.forward_iff _ _).mpr partners
      · exact (linked.backward_iff _ _).mpr partners
      · exact ihBody bodySplit (by simp [start]) numbered
      · refine ihMore moreSplit ?_ ?_
        · simp [start]
          omega
        · rwa [show ip + 1 + body.flatten.length + 1 = ip + body.flatten.length + 2 by omega]

end Brainfuck
