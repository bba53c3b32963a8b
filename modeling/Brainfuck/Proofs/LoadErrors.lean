import Brainfuck.Proofs.Scan

namespace Brainfuck

/-- At `offset` a loop is ended while none is open. -/
def StrayClose (source : List UInt8) (offset : Nat) : Prop :=
  source[offset]? = some Instruction.loopEnd.byte ∧
    (decode (source.take offset)).count .loopEnd = (decode (source.take offset)).count .loopStart

/-- At `offset` a loop begins that stays open although all later ones are ended. -/
def InnermostOpen (source : List UInt8) (offset : Nat) : Prop :=
  source[offset]? = some Instruction.loopStart.byte ∧ Balanced (decode (source.drop (offset + 1)))

theorem strayClose_iff_split {source : List UInt8} {offset : Nat} :
    StrayClose source offset ↔ ∃ front rest,
      source = front ++ Instruction.loopEnd.byte :: rest ∧ front.length = offset ∧
        (decode front).count .loopEnd = (decode front).count .loopStart := by
  constructor
  · rintro ⟨found, counts⟩
    obtain ⟨front, rest, rfl, rfl⟩ := exists_split found
    rw [List.take_left] at counts
    exact ⟨front, rest, rfl, rfl, counts⟩
  · rintro ⟨front, rest, rfl, rfl, counts⟩
    refine ⟨by simp, ?_⟩
    rwa [List.take_left]

theorem innermostOpen_iff_split {source : List UInt8} {offset : Nat} :
    InnermostOpen source offset ↔ ∃ front rest,
      source = front ++ Instruction.loopStart.byte :: rest ∧ front.length = offset ∧
        Balanced (decode rest) := by
  constructor
  · rintro ⟨found, balanced⟩
    obtain ⟨front, rest, rfl, rfl⟩ := exists_split found
    rw [← List.drop_drop, List.drop_left, List.drop_one, List.tail_cons] at balanced
    exact ⟨front, rest, rfl, rfl, balanced⟩
  · rintro ⟨front, rest, rfl, rfl, balanced⟩
    refine ⟨by simp, ?_⟩
    rwa [← List.drop_drop, List.drop_left, List.drop_one, List.tail_cons]

theorem Nesting.not_strayClose {source : List UInt8} {unclosed : List Nat}
    (nesting : Nesting (decode source) unclosed) (offset : Nat) : ¬ StrayClose source offset := by
  intro stray
  obtain ⟨front, rest, rfl, rfl, counts⟩ := strayClose_iff_split.mp stray
  rw [decode_split] at nesting
  exact Nat.ne_of_lt nesting.count_lt counts

private theorem split_of_length_lt {α : Type} {front front' rest rest' : List α} {x x' : α}
    (same : front ++ x :: rest = front' ++ x' :: rest') (lt : front.length < front'.length) :
    ∃ middle, front' = front ++ x :: middle ∧ rest = middle ++ x' :: rest' := by
  rcases List.append_eq_append_iff.mp same with ⟨middle, rfl, tail⟩ | ⟨middle, rfl, -⟩
  · cases middle with
    | nil => simp at lt
    | cons y middle =>
        rw [List.cons_append, List.cons.injEq] at tail
        obtain ⟨rfl, rfl⟩ := tail
        exact ⟨middle, rfl, rfl⟩
  · rw [List.length_append] at lt
    omega

theorem strayClose_first {front rest : List UInt8} (balanced : Balanced (decode front))
    {offset : Nat} (stray : StrayClose (front ++ Instruction.loopEnd.byte :: rest) offset) :
    front.length ≤ offset := by
  obtain ⟨front', rest', same, rfl, counts⟩ := strayClose_iff_split.mp stray
  by_contra earlier
  obtain ⟨middle, rfl, -⟩ := split_of_length_lt same.symm (by omega)
  exact (Nesting.balanced balanced).not_strayClose front'.length
    (strayClose_iff_split.mpr ⟨front', middle, rfl, rfl, counts⟩)

theorem InnermostOpen.le {source : List UInt8} {offset offset' : Nat}
    (first : InnermostOpen source offset) (second : InnermostOpen source offset') :
    offset' ≤ offset := by
  obtain ⟨front, rest, rfl, rfl, balanced⟩ := innermostOpen_iff_split.mp first
  obtain ⟨front', rest', same, rfl, balanced'⟩ := innermostOpen_iff_split.mp second
  by_contra later
  obtain ⟨middle, -, rfl⟩ := split_of_length_lt same (by omega)
  rw [decode_split] at balanced
  exact balanced.not_behind_loopStart balanced'

theorem Balanced.strayClose {front : List UInt8} (balanced : Balanced (decode front))
    (rest : List UInt8) :
    StrayClose (front ++ Instruction.loopEnd.byte :: rest) front.length :=
  strayClose_iff_split.mpr ⟨front, rest, rfl, rfl, balanced.2⟩

theorem ofBytes_strayClose {front : List UInt8} (balanced : Balanced (decode front))
    (rest : List UInt8) :
    Program.ofBytes (front ++ Instruction.loopEnd.byte :: rest) =
      .error (.unmatched .closing (decode front).length front.length) := by
  have stray := balanced.strayClose rest
  rcases ofBytes_cases (front ++ Instruction.loopEnd.byte :: rest) with ⟨_, _, _, whole⟩ |
    ⟨front', rest', split, balanced', result⟩ | ⟨_, _, _, _, nesting, _, _⟩
  · exact absurd stray ((Nesting.balanced whole).not_strayClose _)
  · have le := strayClose_first balanced (split ▸ balanced'.strayClose rest')
    have le' := strayClose_first balanced' (split ▸ stray)
    obtain ⟨rfl, -⟩ := List.append_inj split (by omega)
    exact result
  · exact absurd stray (nesting.not_strayClose _)

theorem ofBytes_error (source : List UInt8) :
    ((∃ ip offset, Program.ofBytes source = .error (.unmatched .closing ip offset)) ↔
      ∃ offset, StrayClose source offset) ∧
    (∀ ip offset, Program.ofBytes source = .error (.unmatched .closing ip offset) →
      StrayClose source offset ∧ (∀ other, StrayClose source other → offset ≤ other) ∧
      ip = (decode (source.take offset)).length ∧
      ∀ more, Program.ofBytes (source ++ more) = .error (.unmatched .closing ip offset)) ∧
    ((∃ ip offset, Program.ofBytes source = .error (.unmatched .opening ip offset)) ↔
      (¬ ∃ offset, StrayClose source offset) ∧
        (decode source).count .loopEnd < (decode source).count .loopStart) ∧
    (∀ ip offset, Program.ofBytes source = .error (.unmatched .opening ip offset) →
      InnermostOpen source offset ∧ (∀ other, InnermostOpen source other → other = offset) ∧
      ip = (decode (source.take offset)).length) ∧
    ∀ cause, Program.ofBytes source ≠ .error (.io cause) := by
  rcases ofBytes_cases source with ⟨scan, result, _, balanced⟩ |
    ⟨front, rest, rfl, balanced, result⟩ | ⟨front, rest, unclosed, rfl, nesting, balanced, result⟩
  · -- The source is a program.
    have clean : ¬ ∃ offset, StrayClose source offset := fun ⟨offset, stray⟩ =>
      (Nesting.balanced balanced).not_strayClose offset stray
    simp [result, clean, balanced.2]
  · -- A bracket ends no loop, and what comes behind it does not matter.
    have stray : ∃ offset, StrayClose (front ++ Instruction.loopEnd.byte :: rest) offset :=
      ⟨_, balanced.strayClose rest⟩
    refine ⟨?_, ?_, ?_, ?_, ?_⟩
    · simp [result, stray]
    · intro ip offset failed
      rw [result, Except.error.injEq, LoadError.unmatched.injEq] at failed
      obtain ⟨-, rfl, rfl⟩ := failed
      refine ⟨balanced.strayClose rest, fun other => strayClose_first balanced, ?_, fun more => ?_⟩
      · rw [List.take_left]
      · rw [List.append_assoc, List.cons_append, ofBytes_strayClose balanced]
    · simp [result, stray]
    · simp [result]
    · simp [result]
  · -- Loops stay open, the innermost of them right before balanced code.
    have innermost : InnermostOpen (front ++ Instruction.loopStart.byte :: rest) front.length :=
      innermostOpen_iff_split.mpr ⟨front, rest, rfl, rfl, balanced⟩
    have clean : ¬ ∃ offset, StrayClose (front ++ Instruction.loopStart.byte :: rest) offset :=
      fun ⟨offset, stray⟩ => nesting.not_strayClose offset stray
    refine ⟨?_, ?_, ?_, ?_, ?_⟩
    · simp [result, clean]
    · simp [result]
    · have counts := nesting.count_eq
      simp only [List.length_cons] at counts
      have more : (decode (front ++ Instruction.loopStart.byte :: rest)).count .loopEnd <
          (decode (front ++ Instruction.loopStart.byte :: rest)).count .loopStart := by omega
      simp [result, clean, more]
    · intro ip offset failed
      rw [result, Except.error.injEq, LoadError.unmatched.injEq] at failed
      obtain ⟨-, rfl, rfl⟩ := failed
      refine ⟨innermost, fun other second => ?_, by rw [List.take_left]⟩
      exact Nat.le_antisymm (innermost.le second) (second.le innermost)
    · simp [result]

example : Program.ofBytes ([' ', '+', ']', '['].map Char.toUInt8) =
    .error (.unmatched .closing 1 2) := rfl

end Brainfuck
