import Brainfuck.Program.Load
import Brainfuck.Proofs.Brackets
import Mathlib.Data.List.Basic

/-!
`Scan.Covers` relates a scan to the bytes it has read: one byte keeps it (`Covers.feed_ok`), so a
whole source does (`Covers.feedAll`). What `Program.ofBytes` can answer follows in
`ofBytes_cases`.
-/

namespace Brainfuck

def decode (source : List UInt8) : List Instruction :=
  source.filterMap Instruction.ofByte?

def positions (source : List UInt8) : List Nat :=
  source.findIdxs fun byte => (Instruction.ofByte? byte).isSome

theorem decode_append (front rest : List UInt8) :
    decode (front ++ rest) = decode front ++ decode rest := List.filterMap_append

theorem positions_append (front rest : List UInt8) :
    positions (front ++ rest) = positions front ++ (positions rest).map (· + front.length) := by
  rw [positions, List.findIdxs_append, Nat.zero_add, List.findIdxs_start (s := front.length)]
  rfl

theorem decode_split (front rest : List UInt8) (instruction : Instruction) :
    decode (front ++ instruction.byte :: rest) = decode front ++ instruction :: decode rest := by
  rw [decode_append, decode, decode,
    List.filterMap_cons_some (Instruction.ofByte?_byte instruction)]
  rfl

theorem decode_concat_none {byte : UInt8} (comment : Instruction.ofByte? byte = none)
    (source : List UInt8) : decode (source ++ [byte]) = decode source := by
  simp [decode, comment]

theorem decode_concat_some {byte : UInt8} {instruction : Instruction}
    (known : Instruction.ofByte? byte = some instruction) (source : List UInt8) :
    decode (source ++ [byte]) = decode source ++ [instruction] := by
  simp [decode, known]

theorem positions_concat_none {byte : UInt8} (comment : Instruction.ofByte? byte = none)
    (source : List UInt8) : positions (source ++ [byte]) = positions source := by
  simp [positions, List.findIdxs_append, comment]

theorem positions_concat_some {byte : UInt8} {instruction : Instruction}
    (known : Instruction.ofByte? byte = some instruction) (source : List UInt8) :
    positions (source ++ [byte]) = positions source ++ [source.length] := by
  simp [positions, List.findIdxs_append, known]

theorem length_positions (source : List UInt8) :
    (positions source).length = (decode source).length := by
  rw [positions, decode, List.length_findIdxs, List.length_filterMap_eq_countP]

theorem positions_split (front rest : List UInt8) (instruction : Instruction) :
    (positions (front ++ instruction.byte :: rest))[(decode front).length]? =
      some front.length := by
  rw [← length_positions, positions_append, List.getElem?_append_right (Nat.le_refl _)]
  simp [positions]

theorem exists_byte_split {source : List UInt8} {front rest : List Instruction}
    {instruction : Instruction} (split : decode source = front ++ instruction :: rest) :
    ∃ before after, source = before ++ instruction.byte :: after ∧ decode before = front ∧
      decode after = rest := by
  obtain ⟨before, tail, rfl, rfl, decoded⟩ := List.filterMap_eq_append_iff.mp split
  obtain ⟨comments, byte, after, rfl, silent, known, rfl⟩ := List.filterMap_eq_cons_iff.mp decoded
  rw [Instruction.eq_byte_of_ofByte? known]
  refine ⟨before ++ comments, after, by simp, ?_, rfl⟩
  rw [decode_append, decode, decode, List.filterMap_eq_nil_iff.mpr silent, List.append_nil]

def Program.code (program : Program) : List Instruction := program.instructions.toList

theorem Program.instruction?_eq (program : Program) (ip : Nat) :
    program.instruction? ip = program.code[ip]? := by
  simp [Program.instruction?, Program.code]

theorem Program.length_code (program : Program) : program.code.length = program.length := by
  simp [Program.length, Program.code]

private theorem join_push_none (table : Array (Option Nat)) (i : Nat) :
    (table.push none)[i]?.join = table[i]?.join := by
  rw [Array.getElem?_push]
  split
  · next last => simp [last]
  · rfl

private theorem join_push_some (table : Array (Option Nat)) (value i : Nat) :
    (table.push (some value))[i]?.join = if i = table.size then some value else table[i]?.join := by
  rw [Array.getElem?_push]
  split <;> rfl

private theorem join_set_some {table : Array (Option Nat)} {i : Nat} (bound : i < table.size)
    (value j : Nat) :
    (table.setIfInBounds i (some value))[j]?.join =
      if i = j then some value else table[j]?.join := by
  rw [Array.getElem?_setIfInBounds, if_pos bound]
  split <;> rfl

namespace Scan

theorem finish_of_closed {scan : Scan} (closed : scan.unclosed = []) :
    scan.finish = .ok scan.program := by
  obtain ⟨program, unclosed, offset, aligned, located⟩ := scan
  cases closed
  rfl

theorem finish_of_open {scan : Scan} {ip offset : Nat} {rest : List Nat}
    (unfinished : scan.unclosed = ip :: rest) (found : scan.program.offset? ip = some offset) :
    scan.finish = .error (.unmatched .opening ip offset) := by
  obtain ⟨program, unclosed, last, aligned, located⟩ := scan
  cases unfinished
  obtain ⟨inside, rfl⟩ := Array.getElem?_eq_some_iff.mp found
  rfl

/-- What a scan knows when it has read `source`. -/
structure Covers (source : List UInt8) (scan : Scan) : Prop where
  offset_eq : scan.offset = source.length
  code_eq : scan.program.code = decode source
  offsets_eq : scan.program.offsets.toList = positions source
  closing_size : scan.program.closing.size = (decode source).length
  opening_size : scan.program.opening.size = (decode source).length
  forward_iff : ∀ o c, scan.program.forward o = some c ↔ Partners (decode source) o c
  backward_iff : ∀ o c, scan.program.backward c = some o ↔ Partners (decode source) o c
  nesting : Nesting (decode source) scan.unclosed

namespace Covers

variable {source : List UInt8} {scan next : Scan} {byte : UInt8}

theorem start : Covers [] {} where
  offset_eq := rfl
  code_eq := rfl
  offsets_eq := rfl
  closing_size := rfl
  opening_size := rfl
  forward_iff o c := by
    constructor
    · intro found
      simp [Program.forward] at found
    · intro partners
      have := partners.opens
      simp [decode] at this
  backward_iff o c := by
    constructor
    · intro found
      simp [Program.backward] at found
    · intro partners
      have := partners.opens
      simp [decode] at this
  nesting := .balanced .nil

theorem length_eq (covers : scan.Covers source) :
    scan.program.length = (decode source).length := by
  rw [← covers.code_eq, Program.length_code]

private theorem push {instructions : Array Instruction} {offsets : Array Nat}
    {closing opening closing' opening' : Array (Option Nat)} {unclosed unclosed' : List Nat}
    {offset : Nat} {instruction : Instruction} {aligned : instructions.size = offsets.size}
    {located : ∀ ip ∈ unclosed, ip < offsets.size}
    (covers : Covers source
      ⟨⟨instructions, offsets, closing, opening⟩, unclosed, offset, aligned, located⟩)
    (known : Instruction.ofByte? byte = some instruction)
    (closing_size : closing'.size = closing.size + 1)
    (opening_size : opening'.size = opening.size + 1)
    (forward_iff : ∀ o c, closing'[o]?.join = some c ↔
      Partners (decode source ++ [instruction]) o c)
    (backward_iff : ∀ o c, opening'[c]?.join = some o ↔
      Partners (decode source ++ [instruction]) o c)
    (nesting : Nesting (decode source ++ [instruction]) unclosed')
    (located' : ∀ ip ∈ unclosed', ip < (offsets.push offset).size) :
    Covers (source ++ [byte]) ⟨⟨instructions.push instruction, offsets.push offset, closing',
      opening'⟩, unclosed', offset + 1, size_push_aligned aligned _ _, located'⟩ := by
  have decoded := decode_concat_some known source
  have code_eq : instructions.toList = decode source := covers.code_eq
  have offset_eq : offset = source.length := covers.offset_eq
  refine ⟨?_, ?_, ?_, ?_, ?_, ?_, ?_, ?_⟩
  · simp [offset_eq]
  · simp [Program.code, decoded, code_eq]
  · rw [positions_concat_some known, ← covers.offsets_eq, Array.toList_push, offset_eq]
  · rw [decoded, List.length_append, ← covers.closing_size]
    exact closing_size
  · rw [decoded, List.length_append, ← covers.opening_size]
    exact opening_size
  · rw [decoded]
    exact forward_iff
  · rw [decoded]
    exact backward_iff
  · rwa [decoded]

theorem feed_ok (covers : scan.Covers source) (fed : scan.feed byte = .ok next) :
    next.Covers (source ++ [byte]) := by
  obtain ⟨⟨instructions, offsets, closing, opening⟩, unclosed, offset, aligned, located⟩ := scan
  have ip_eq : instructions.size = (decode source).length := covers.length_eq
  have closing_size : closing.size = (decode source).length := covers.closing_size
  have opening_size : opening.size = (decode source).length := covers.opening_size
  have forward_iff : ∀ o c, closing[o]?.join = some c ↔ Partners (decode source) o c :=
    covers.forward_iff
  have backward_iff : ∀ o c, opening[c]?.join = some o ↔ Partners (decode source) o c :=
    covers.backward_iff
  cases known : Instruction.ofByte? byte with
  | none =>
      simp only [feed, known, Except.ok.injEq] at fed
      subst fed
      obtain ⟨offset_eq, code_eq, offsets_eq, _, _, _, _, nesting⟩ := covers
      rw [← decode_concat_none known source] at *
      rw [← positions_concat_none known] at offsets_eq
      refine ⟨?_, code_eq, offsets_eq, closing_size, opening_size, forward_iff, backward_iff,
        nesting⟩
      simpa using offset_eq
  | some instruction =>
      cases instruction with
      | simple action =>
          simp only [feed, known, Except.ok.injEq] at fed
          subst fed
          refine covers.push known (by simp) (by simp) (fun o c => ?_) (fun o c => ?_)
            (covers.nesting.append (Balanced.nil.concat_simple action)) _
          · rw [join_push_none, forward_iff, Partners.concat_iff_of_ne (by simp)]
          · rw [join_push_none, backward_iff, Partners.concat_iff_of_ne (by simp)]
      | loopStart =>
          simp only [feed, known, Except.ok.injEq] at fed
          subst fed
          refine covers.push known (by simp) (by simp) (fun o c => ?_) (fun o c => ?_) ?_ _
          · rw [join_push_none, forward_iff, Partners.concat_iff_of_ne (by simp)]
          · rw [join_push_none, backward_iff, Partners.concat_iff_of_ne (by simp)]
          · rw [ip_eq]
            exact .within covers.nesting .nil
      | loopEnd =>
          cases unclosed with
          | nil => simp only [feed, known, reduceCtorEq] at fed
          | cons partner rest =>
              simp only [feed, known, Except.ok.injEq] at fed
              subst fed
              -- The innermost open bracket gets its partner, and no other entry changes.
              obtain ⟨nesting, partners⟩ := covers.nesting.concat_loopEnd
              have bound : partner < closing.size := by
                have := partners.lt
                omega
              refine covers.push known (by simp) (by simp) (fun o c => ?_) (fun o c => ?_) nesting
                _
              · rw [join_push_none, join_set_some bound, ip_eq]
                by_cases same : partner = o
                · subst same
                  rw [if_pos rfl, Option.some.injEq]
                  exact ⟨fun eq => eq ▸ partners, partners.closing_unique⟩
                · rw [if_neg same, forward_iff, Partners.concat_loopEnd_iff partners]
                  simp [Ne.symm same]
              · rw [join_push_some, opening_size]
                by_cases last : c = (decode source).length
                · subst last
                  rw [if_pos rfl, Option.some.injEq]
                  exact ⟨fun eq => eq ▸ partners, partners.opening_unique⟩
                · rw [if_neg last, backward_iff, Partners.concat_loopEnd_iff partners]
                  simp [last]

theorem feed_error {error : LoadError} (covers : scan.Covers source)
    (fed : scan.feed byte = .error error) :
    byte = Instruction.loopEnd.byte ∧ Balanced (decode source) ∧
      error = .unmatched .closing (decode source).length source.length := by
  obtain ⟨⟨instructions, offsets, closing, opening⟩, unclosed, offset, aligned, located⟩ := scan
  have offset_eq : offset = source.length := covers.offset_eq
  have ip_eq : instructions.size = (decode source).length := covers.length_eq
  cases known : Instruction.ofByte? byte with
  | none => simp only [feed, known, reduceCtorEq] at fed
  | some instruction =>
      cases instruction with
      | simple action => simp only [feed, known, reduceCtorEq] at fed
      | loopStart => simp only [feed, known, reduceCtorEq] at fed
      | loopEnd =>
          cases unclosed with
          | cons partner rest => simp only [feed, known, reduceCtorEq] at fed
          | nil =>
              simp only [feed, known, Except.error.injEq] at fed
              refine ⟨Instruction.eq_byte_of_ofByte? known, covers.nesting.balanced_of_nil, ?_⟩
              rw [← fed, ip_eq, offset_eq]

theorem feedAll (covers : scan.Covers source) (bytes : List UInt8) :
    (∃ next, scan.feedAll bytes = .ok next ∧ next.Covers (source ++ bytes)) ∨
      ∃ front rest, bytes = front ++ Instruction.loopEnd.byte :: rest ∧
        Balanced (decode (source ++ front)) ∧
        scan.feedAll bytes = .error (.unmatched .closing (decode (source ++ front)).length
          (source ++ front).length, rest) := by
  induction bytes generalizing source scan with
  | nil => exact Or.inl ⟨scan, rfl, by simpa using covers⟩
  | cons byte bytes ih =>
      cases fed : scan.feed byte with
      | error error =>
          obtain ⟨rfl, balanced, rfl⟩ := covers.feed_error fed
          refine Or.inr ⟨[], bytes, rfl, by simpa using balanced, ?_⟩
          simp only [Scan.feedAll, fed, List.append_nil]
      | ok next =>
          have later := ih (covers.feed_ok fed)
          simp only [List.append_assoc, List.singleton_append] at later
          rw [Scan.feedAll, fed]
          rcases later with done | ⟨front, rest, rfl, balanced, stopped⟩
          · exact Or.inl done
          · exact Or.inr ⟨byte :: front, rest, rfl, balanced, stopped⟩

end Covers
end Scan

/-- The three answers of the loader: a program, a bracket that ends no loop, with balanced code
before it, or a bracket whose loop is not ended, with balanced code behind it. -/
theorem ofBytes_cases (source : List UInt8) :
    (∃ scan : Scan, Program.ofBytes source = .ok scan.program ∧ scan.Covers source ∧
      Balanced (decode source)) ∨
    (∃ front rest, source = front ++ Instruction.loopEnd.byte :: rest ∧ Balanced (decode front) ∧
      Program.ofBytes source =
        .error (.unmatched .closing (decode front).length front.length)) ∨
    ∃ front rest unclosed, source = front ++ Instruction.loopStart.byte :: rest ∧
      Nesting (decode source) ((decode front).length :: unclosed) ∧ Balanced (decode rest) ∧
      Program.ofBytes source =
        .error (.unmatched .opening (decode front).length front.length) := by
  rcases Scan.Covers.start.feedAll source with ⟨scan, read, covers⟩ |
    ⟨front, rest, split, balanced, stopped⟩
  · have loaded : Program.ofBytes source = scan.finish := by rw [Program.ofBytes, read]
    rw [List.nil_append] at covers
    have nesting := covers.nesting
    cases open_eq : scan.unclosed with
    | nil =>
        rw [open_eq] at nesting
        refine Or.inl ⟨scan, ?_, covers, nesting.balanced_of_nil⟩
        rw [loaded, Scan.finish_of_closed open_eq]
    | cons ip unclosed =>
        rw [open_eq] at nesting
        obtain ⟨outer, body, decoded, rfl, _, balanced⟩ := nesting.exists_split
        obtain ⟨front, rest, rfl, rfl, rfl⟩ := exists_byte_split decoded
        refine Or.inr (Or.inr ⟨front, rest, unclosed, rfl, nesting, balanced, ?_⟩)
        have offset_eq : scan.program.offset? (decode front).length = some front.length := by
          rw [Program.offset?, ← Array.getElem?_toList, covers.offsets_eq, positions_split]
        rw [loaded, Scan.finish_of_open open_eq offset_eq]
  · refine Or.inr (Or.inl ⟨front, rest, split, balanced, ?_⟩)
    rw [Program.ofBytes, stopped]
    rfl

namespace Program

/-- The jump tables of a program hold the partners of its brackets, all of which have one. -/
structure Linked (program : Program) : Prop where
  balanced : Balanced program.code
  closing_size : program.closing.size = program.code.length
  forward_iff : ∀ o c, program.forward o = some c ↔ Partners program.code o c
  backward_iff : ∀ o c, program.backward c = some o ↔ Partners program.code o c

theorem covers_of_ofBytes {source : List UInt8} {program : Program}
    (loaded : ofBytes source = .ok program) :
    ∃ scan : Scan, scan.Covers source ∧ scan.program = program ∧ Balanced (decode source) := by
  rcases ofBytes_cases source with ⟨scan, result, covers, balanced⟩ | ⟨_, _, _, _, result⟩ |
    ⟨_, _, _, _, _, _, result⟩
  · rw [result, Except.ok.injEq] at loaded
    exact ⟨scan, covers, loaded, balanced⟩
  all_goals simp [result] at loaded

theorem linked_of_ofBytes {source : List UInt8} {program : Program}
    (loaded : ofBytes source = .ok program) : program.Linked := by
  obtain ⟨scan, covers, rfl, balanced⟩ := covers_of_ofBytes loaded
  obtain ⟨_, code_eq, _, closing_size, _, forward_iff, backward_iff, _⟩ := covers
  rw [← code_eq] at balanced closing_size forward_iff backward_iff
  exact ⟨balanced, closing_size, forward_iff, backward_iff⟩

end Program

theorem Scan.feedAll_append (scan : Scan) (front rest : List UInt8) {next : Scan}
    (read : scan.feedAll front = .ok next) : scan.feedAll (front ++ rest) = next.feedAll rest := by
  induction front generalizing scan with
  | nil =>
      simp only [feedAll, Except.ok.injEq] at read
      rw [read, List.nil_append]
  | cons byte front ih =>
      simp only [List.cons_append, feedAll] at read ⊢
      cases fed : scan.feed byte with
      | error error => simp [fed] at read
      | ok after =>
          simp only [fed] at read ⊢
          exact ih after read

theorem Scan.exists_feedAll_of_read {scan : Scan} {input unread : Input} {program : Program}
    (loaded : scan.read input = (.ok program, unread)) :
    ∃ bytes next, scan.feedAll bytes = .ok next ∧ next.finish = .ok program := by
  induction input generalizing scan with
  | nil =>
      simp only [read, Prod.mk.injEq] at loaded
      exact ⟨[], scan, rfl, loaded.1⟩
  | cons event input ih =>
      cases event with
      | endOfStream =>
          simp only [read, Prod.mk.injEq] at loaded
          exact ⟨[], scan, rfl, loaded.1⟩
      | failure cause =>
          simp only [read] at loaded
          split at loaded
          · exact ih loaded
          · simp at loaded
      | data bytes =>
          simp only [read] at loaded
          split at loaded
          · next next fed =>
              obtain ⟨more, last, fed', finished⟩ := ih loaded
              exact ⟨bytes ++ more, last, by rw [feedAll_append _ _ _ fed, fed'], finished⟩
          · simp at loaded

theorem Program.exists_ofBytes_of_load {source unread : Input} {program : Program}
    (loaded : load source = (.ok program, unread)) : ∃ bytes, ofBytes bytes = .ok program := by
  obtain ⟨bytes, next, read, finished⟩ := Scan.exists_feedAll_of_read loaded
  exact ⟨bytes, by rw [ofBytes, read]; exact finished⟩

theorem Program.linked_of_load {source unread : Input} {program : Program}
    (loaded : load source = (.ok program, unread)) : program.Linked := by
  obtain ⟨bytes, read⟩ := exists_ofBytes_of_load loaded
  exact linked_of_ofBytes read

end Brainfuck
