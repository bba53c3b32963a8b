import Brainfuck.Diagnostic
import Mathlib.Algebra.Group.Nat.Defs

namespace Brainfuck.Diagnostic

inductive Shown : UInt8 → Char → Prop where
  | kept {byte : UInt8} {symbol : Char} (same : symbol.toNat = byte.toNat) (low : ' ' ≤ symbol)
      (high : symbol ≤ '~') : Shown byte symbol
  | blank {byte : UInt8} (space : byte = 9 ∨ byte = 10 ∨ byte = 13) : Shown byte ' '
  | other {byte : UInt8} (outside : byte < 32 ∨ 126 < byte)
      (visible : ¬ (byte = 9 ∨ byte = 10 ∨ byte = 13)) : Shown byte '?'

variable {byte : UInt8} {symbol : Char}

theorem Shown.bounds (shown : Shown byte symbol) : ' ' ≤ symbol ∧ symbol ≤ '~' := by
  cases shown with
  | kept same low high => exact ⟨low, high⟩
  | blank space => decide
  | other outside visible => decide

theorem toNat_ofUInt8 (byte : UInt8) : (Char.ofUInt8 byte).toNat = byte.toNat :=
  UInt8.toNat_toUInt32 byte

theorem shown_mask (byte : UInt8) : Shown byte (mask byte) := by
  rw [mask]
  split
  · next inside =>
      obtain ⟨low, high⟩ := inside
      rw [UInt8.le_iff_toNat_le, ← toNat_ofUInt8 byte] at low high
      exact .kept (toNat_ofUInt8 byte) low high
  · next outside =>
      rw [Decidable.not_and_iff_or_not, UInt8.not_le, UInt8.not_le] at outside
      split
      · next space => exact .blank space
      · next visible => exact .other outside visible

theorem Shown.eq_mask (shown : Shown byte symbol) : symbol = mask byte := by
  cases shown with
  | kept same low high =>
      have inside : 32 ≤ byte ∧ byte ≤ 126 := by
        rw [UInt8.le_iff_toNat_le, UInt8.le_iff_toNat_le, ← same]
        exact ⟨low, high⟩
      rw [mask, if_pos inside]
      exact Char.toNat_inj.mp (same.trans (toNat_ofUInt8 byte).symm)
  | blank space => rcases space with rfl | rfl | rfl <;> rfl
  | other outside visible =>
      have outside' : ¬ (32 ≤ byte ∧ byte ≤ 126) := by
        rwa [Decidable.not_and_iff_or_not, UInt8.not_le, UInt8.not_le]
      rw [mask, if_neg outside', if_neg visible]

/-- The line `row` shows the source from `start` to `stop` and `mark` points to `offset`. -/
structure Frames (source : List UInt8) (offset start stop : Nat) (row mark : List Char) :
    Prop where
  stop_eq : stop = min (offset + 33) source.length
  start_eq : (start : Int) = min (max ((offset : Int) - 32) 0) stop
  length_eq : row.length = stop - start
  shown : ∀ i < stop - start, ∃ byte symbol, source[start + i]? = some byte ∧
    row[i]? = some symbol ∧ Shown byte symbol
  mark_eq : mark = List.replicate (offset - start) ' ' ++ ['^']

variable {source : List UInt8} {offset : Nat}

namespace Frames

variable {start stop : Nat} {row mark : List Char}

theorem start_le_offset (frames : Frames source offset start stop row mark) : start ≤ offset := by
  have := frames.start_eq
  omega

theorem length_le (frames : Frames source offset start stop row mark) : row.length ≤ 65 := by
  have := frames.length_eq
  have := frames.start_eq
  have := frames.stop_eq
  omega

theorem exists_above (frames : Frames source offset start stop row mark)
    (found : source[offset]? = some byte) :
    ∃ symbol, row[offset - start]? = some symbol ∧ Shown byte symbol := by
  obtain ⟨inside, -⟩ := List.getElem?_eq_some_iff.mp found
  have before := frames.start_le_offset
  have shows : offset - start < stop - start := by
    have := frames.stop_eq
    omega
  obtain ⟨byte', symbol, found', above, shown⟩ := frames.shown _ shows
  rw [Nat.add_sub_cancel' before, found, Option.some.injEq] at found'
  exact ⟨symbol, above, found' ▸ shown⟩

theorem bounds (frames : Frames source offset start stop row mark) :
    ∀ symbol ∈ row, ' ' ≤ symbol ∧ symbol ≤ '~' := by
  intro symbol member
  obtain ⟨i, bound, rfl⟩ := List.mem_iff_getElem.mp member
  obtain ⟨byte, symbol, -, above, shown⟩ := frames.shown i (frames.length_eq ▸ bound)
  rw [List.getElem?_eq_getElem bound, Option.some.injEq] at above
  exact above ▸ shown.bounds

end Frames

theorem frames (source : List UInt8) (offset : Nat) :
    Frames source offset (windowStart source offset) (windowEnd source offset)
      (excerpt source offset) (caret source offset) where
  stop_eq := rfl
  start_eq := by
    simp only [windowStart, reach]
    omega
  length_eq := by
    simp only [excerpt, windowEnd, List.length_map, List.length_drop, List.length_take]
    omega
  shown i shows := by
    have bound : windowStart source offset + i < windowEnd source offset := by omega
    have inside : windowStart source offset + i < source.length :=
      Nat.lt_of_lt_of_le bound (Nat.min_le_right _ _)
    refine ⟨_, _, List.getElem?_eq_getElem inside, ?_, shown_mask _⟩
    rw [excerpt, List.getElem?_map, List.getElem?_drop, List.getElem?_take_of_lt bound,
      List.getElem?_eq_getElem inside]
    rfl
  mark_eq := rfl

end Brainfuck.Diagnostic
