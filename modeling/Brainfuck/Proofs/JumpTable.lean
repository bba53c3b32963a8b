import Brainfuck.Proofs.Scan

namespace Brainfuck

namespace Program.Linked

variable {program : Program}

theorem forward_isSome_iff (linked : program.Linked) (ip : Nat) :
    (program.forward ip).isSome ↔ program.instruction? ip = some .loopStart := by
  rw [Program.instruction?_eq, Option.isSome_iff_exists]
  constructor
  · rintro ⟨c, found⟩
    exact ((linked.forward_iff ip c).mp found).opens
  · intro opens
    obtain ⟨c, partners⟩ := linked.balanced.exists_closing opens
    exact ⟨c, (linked.forward_iff ip c).mpr partners⟩

theorem backward_isSome_iff (linked : program.Linked) (ip : Nat) :
    (program.backward ip).isSome ↔ program.instruction? ip = some .loopEnd := by
  rw [Program.instruction?_eq, Option.isSome_iff_exists]
  constructor
  · rintro ⟨o, found⟩
    exact ((linked.backward_iff o ip).mp found).closes
  · intro closes
    obtain ⟨o, partners⟩ := linked.balanced.exists_opening closes
    exact ⟨o, (linked.backward_iff o ip).mpr partners⟩

theorem loopCount_eq (linked : program.Linked) :
    program.loopCount = program.code.count .loopStart := by
  have same : program.closing.toList.map Option.isSome =
      program.code.map (· == Instruction.loopStart) := by
    apply List.ext_getElem
    · simpa using linked.closing_size
    · intro ip bound bound'
      simp only [List.length_map, Array.length_toList] at bound bound'
      have entry := linked.forward_isSome_iff ip
      rw [Program.instruction?_eq, List.getElem?_eq_getElem bound', Program.forward,
        Array.getElem?_eq_getElem bound, Option.some.injEq] at entry
      rw [List.getElem_map, List.getElem_map, Array.getElem_toList, Bool.eq_iff_iff, beq_iff_eq]
      exact entry
  calc program.loopCount
      = (program.closing.toList.map Option.isSome).countP id := by
        rw [List.countP_map, Program.loopCount, ← Array.countP_toList]
        rfl
    _ = program.code.count .loopStart := by
        rw [same, List.countP_map]
        rfl

end Program.Linked

theorem ofBytes_jumpTable (source : List UInt8) :
    ((∃ program, Program.ofBytes source = .ok program) ↔ Balanced (decode source)) ∧
    ∀ program, Program.ofBytes source = .ok program →
      program.code = decode source ∧
      (∀ o c, (program.forward o = some c ↔ program.backward c = some o) ∧
        (program.forward o = some c ↔ Partners program.code o c)) ∧
      (∀ ip, (program.forward ip).isSome ↔ program.instruction? ip = some .loopStart) ∧
      (∀ ip, (program.backward ip).isSome ↔ program.instruction? ip = some .loopEnd) ∧
      (∀ o c o' c', program.forward o = some c → program.forward o' = some c' → o < o' →
        c < o' ∨ c' < c) ∧
      program.loopCount = program.code.count .loopStart ∧
      program.loopCount = program.code.count .loopEnd := by
  constructor
  · rcases ofBytes_cases source with ⟨scan, result, _, balanced⟩ |
      ⟨front, rest, rfl, before, result⟩ | ⟨front, rest, _, rfl, _, behind, result⟩
    · exact ⟨fun _ => balanced, fun _ => ⟨scan.program, result⟩⟩
    · simp only [result, reduceCtorEq, exists_false, false_iff]
      intro balanced
      rw [decode_split] at balanced
      exact balanced.not_before_loopEnd before
    · simp only [result, reduceCtorEq, exists_false, false_iff]
      intro balanced
      rw [decode_split] at balanced
      exact balanced.not_behind_loopStart behind
  · intro program loaded
    have linked := Program.linked_of_ofBytes loaded
    obtain ⟨scan, covers, rfl, _⟩ := Program.covers_of_ofBytes loaded
    refine ⟨covers.code_eq, fun o c => ⟨?_, linked.forward_iff o c⟩, linked.forward_isSome_iff,
      linked.backward_isSome_iff, fun o c o' c' found found' => ?_, linked.loopCount_eq, ?_⟩
    · rw [linked.forward_iff, linked.backward_iff]
    · exact Partners.nested_or_disjoint ((linked.forward_iff o c).mp found)
        ((linked.forward_iff o' c').mp found')
    · rw [linked.loopCount_eq, linked.balanced.2]

end Brainfuck
