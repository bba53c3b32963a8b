import Brainfuck.Proofs.Scan

namespace Brainfuck

theorem positions_pairwise (source : List UInt8) : (positions source).Pairwise (· < ·) :=
  List.pairwise_findIdxs

theorem mem_positions_iff {source : List UInt8} {offset : Nat} :
    offset ∈ positions source ↔
      ∃ byte, source[offset]? = some byte ∧ (Instruction.ofByte? byte).isSome := by
  rw [positions, List.mem_findIdxs_iff_exists_getElem_pos]
  constructor
  · rintro ⟨bound, known⟩
    exact ⟨_, List.getElem?_eq_getElem bound, known⟩
  · rintro ⟨byte, found, known⟩
    obtain ⟨bound, rfl⟩ := List.getElem?_eq_some_iff.mp found
    exact ⟨bound, known⟩

theorem Scan.Covers.exists_offset {source : List UInt8} {scan : Scan} (covers : scan.Covers source)
    {ip : Nat} {instruction : Instruction}
    (here : scan.program.instruction? ip = some instruction) :
    ∃ offset, scan.program.offset? ip = some offset ∧ source[offset]? = some instruction.byte := by
  rw [Program.instruction?_eq, covers.code_eq] at here
  obtain ⟨front, rest, decoded, rfl⟩ := exists_split here
  obtain ⟨before, after, rfl, rfl, -⟩ := exists_byte_split decoded
  refine ⟨before.length, ?_, by simp⟩
  rw [Program.offset?, ← Array.getElem?_toList, covers.offsets_eq, positions_split]

namespace Program

variable {source : List UInt8} {program : Program}

theorem code_of_ofBytes (loaded : ofBytes source = .ok program) : program.code = decode source := by
  obtain ⟨scan, covers, rfl, -⟩ := covers_of_ofBytes loaded
  exact covers.code_eq

theorem toList_offsets (loaded : ofBytes source = .ok program) :
    program.offsets.toList = positions source := by
  obtain ⟨scan, covers, rfl, -⟩ := covers_of_ofBytes loaded
  exact covers.offsets_eq

theorem offset?_of_ofBytes (loaded : ofBytes source = .ok program) (ip : Nat) :
    program.offset? ip = (positions source)[ip]? := by
  rw [offset?, ← Array.getElem?_toList, toList_offsets loaded]

theorem exists_offset (loaded : ofBytes source = .ok program) {ip : Nat}
    {instruction : Instruction} (here : program.instruction? ip = some instruction) :
    ∃ offset, program.offset? ip = some offset ∧ source[offset]? = some instruction.byte := by
  obtain ⟨scan, covers, rfl, -⟩ := covers_of_ofBytes loaded
  exact covers.exists_offset here

theorem offset?_lt_offset? (loaded : ofBytes source = .ok program) {i j offset offset' : Nat}
    (lt : i < j) (first : program.offset? i = some offset)
    (second : program.offset? j = some offset') : offset < offset' := by
  rw [offset?_of_ofBytes loaded] at first second
  obtain ⟨bound, rfl⟩ := List.getElem?_eq_some_iff.mp first
  obtain ⟨bound', rfl⟩ := List.getElem?_eq_some_iff.mp second
  exact List.pairwise_iff_getElem.mp (positions_pairwise source) i j bound bound' lt

theorem exists_offset?_iff (loaded : ofBytes source = .ok program) {offset : Nat} :
    (∃ ip, program.offset? ip = some offset) ↔
      ∃ byte, source[offset]? = some byte ∧ (Instruction.ofByte? byte).isSome := by
  rw [← mem_positions_iff, List.mem_iff_getElem?]
  simp only [offset?_of_ofBytes loaded]

theorem size_offsets (loaded : ofBytes source = .ok program) :
    program.offsets.size = program.length := by
  rw [← Array.length_toList, toList_offsets loaded, length_positions, ← code_of_ofBytes loaded,
    length_code]

end Program
end Brainfuck
