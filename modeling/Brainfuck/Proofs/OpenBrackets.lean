import Brainfuck.Proofs.Offsets

/-!
The stack of a scan is cut at each of its entries by `Nesting.split_at`, from which its order and
the balance between its entries follow.
-/

namespace Brainfuck

namespace Nesting

variable {code : List Instruction} {unclosed above below : List Nat} {o c : Nat}

theorem split_at (nesting : Nesting code (above ++ o :: below)) :
    ∃ front behind later, code = front ++ .loopStart :: behind ∧ front.length = o ∧
      Nesting front below ∧ Nesting behind later := by
  induction above generalizing code with
  | nil =>
      obtain ⟨front, body, rfl, rfl, outer, balanced⟩ := nesting.exists_split
      exact ⟨front, body, [], rfl, rfl, outer, .balanced balanced⟩
  | cons inner above ih =>
      obtain ⟨outer, body, rfl, -, nesting, balanced⟩ := nesting.exists_split
      obtain ⟨front, behind, later, rfl, rfl, before, nested⟩ := ih nesting
      exact ⟨front, behind ++ .loopStart :: body, _, by simp, rfl, before,
        .within nested balanced⟩

theorem split_of_mem (nesting : Nesting code unclosed) (member : o ∈ unclosed) :
    ∃ front behind later, code = front ++ .loopStart :: behind ∧ front.length = o ∧
      Nesting behind later := by
  obtain ⟨above, below, rfl⟩ := List.append_of_mem member
  obtain ⟨front, behind, later, split, start, -, nested⟩ := nesting.split_at
  exact ⟨front, behind, later, split, start, nested⟩

theorem opens (nesting : Nesting code unclosed) (member : o ∈ unclosed) :
    code[o]? = some .loopStart := by
  obtain ⟨front, behind, -, rfl, rfl, -⟩ := nesting.split_of_mem member
  simp

theorem lt (nesting : Nesting code unclosed) (member : o ∈ unclosed) : o < code.length :=
  (List.getElem?_eq_some_iff.mp (nesting.opens member)).1

theorem pairwise (nesting : Nesting code unclosed) : unclosed.Pairwise (· > ·) := by
  induction nesting with
  | balanced _ => exact .nil
  | within outer _ ih => exact .cons (fun _ member => outer.lt member) ih

theorem balanced_between {inner outer : Nat}
    (nesting : Nesting code (above ++ inner :: outer :: below)) :
    Balanced (segment code (outer + 1) inner) := by
  obtain ⟨front, behind, -, rfl, rfl, nested, -⟩ := nesting.split_at
  obtain ⟨front, body, rfl, rfl, -, balanced⟩ := nested.exists_split
  have between := segment_body front body (.loopStart :: behind) .loopStart
  rw [List.append_assoc, List.cons_append, List.length_append, List.length_cons, between]
  exact balanced

theorem balanced_behind (nesting : Nesting code (o :: below)) :
    Balanced (code.drop (o + 1)) := by
  obtain ⟨front, body, rfl, rfl, -, balanced⟩ := nesting.exists_split
  rwa [← List.drop_drop, List.drop_left, List.drop_one, List.tail_cons]

theorem not_partners (nesting : Nesting code unclosed) (member : o ∈ unclosed) :
    ¬ Partners code o c := by
  rintro ⟨lt, -, closes, balanced⟩
  obtain ⟨front, behind, later, rfl, rfl, nested⟩ := nesting.split_of_mem member
  obtain ⟨width, rfl⟩ := Nat.exists_eq_add_of_lt lt
  rw [Nat.add_assoc, List.getElem?_append_right (by omega), Nat.add_sub_cancel_left,
    List.getElem?_cons_succ] at closes
  obtain ⟨body, rest, rfl, rfl⟩ := Brainfuck.exists_split closes
  rw [Nat.add_assoc, segment_body] at balanced
  exact Nat.ne_of_lt nested.count_lt balanced.2

theorem exists_closing (nesting : Nesting code unclosed) (opens : code[o]? = some .loopStart)
    (closed : o ∉ unclosed) : ∃ c, Partners code o c := by
  induction nesting with
  | balanced balanced => exact balanced.exists_closing opens
  | @within front body _ outer balanced ih =>
      rw [List.mem_cons, not_or] at closed
      rcases Nat.lt_or_ge o front.length with before | ge
      · rw [List.getElem?_append_left before] at opens
        obtain ⟨c, partners⟩ := ih opens closed.2
        exact ⟨c, partners.placed [] (.loopStart :: body)⟩
      · obtain ⟨o, rfl⟩ : ∃ o', o = o' + (front ++ [Instruction.loopStart]).length :=
          Nat.exists_eq_add_of_le' (by have := closed.1; simp; omega)
        have split : front ++ .loopStart :: body = (front ++ [.loopStart]) ++ (body ++ []) := by
          simp
        rw [split, List.getElem?_append_right (by omega), Nat.add_sub_cancel,
          List.append_nil] at opens
        obtain ⟨c, partners⟩ := balanced.exists_closing opens
        rw [split]
        exact ⟨_, partners.placed (front ++ [.loopStart]) []⟩

theorem exists_opening (nesting : Nesting code unclosed) (closes : code[c]? = some .loopEnd) :
    ∃ o, Partners code o c :=
  Partners.exists_opening_of_counts (fun _ => nesting.prefix_le) closes

end Nesting

namespace Scan

structure Orderly (source : List UInt8) (scan : Scan) : Prop where
  code_eq : scan.program.code = decode source
  size_offsets : scan.program.offsets.size = scan.program.length
  decreasing : scan.unclosed.Pairwise (· > ·)
  mem_unclosed_iff : ∀ ip, ip ∈ scan.unclosed ↔
    scan.program.instruction? ip = some .loopStart ∧
      ¬ ∃ close, Partners scan.program.code ip close
  opening_known : ∀ ip, scan.program.instruction? ip = some .loopStart →
    (ip ∈ scan.unclosed ∧ scan.program.forward ip = none) ∨
      (ip ∉ scan.unclosed ∧ ∃ close, scan.program.forward ip = some close)
  closing_known : ∀ ip, scan.program.instruction? ip = some .loopEnd →
    ∃ opening, scan.program.backward ip = some opening
  inverse : ∀ o c, scan.program.forward o = some c ↔ scan.program.backward c = some o
  paired : ∀ o c, scan.program.forward o = some c →
    o < c ∧ c < scan.program.length ∧ Partners scan.program.code o c
  /-- The next bracket that ends a loop is entered where nothing has been entered before. -/
  vacant : ∀ ip rest, scan.unclosed = ip :: rest →
    scan.program.forward ip = none ∧ scan.program.backward scan.program.length = none
  between : ∀ above inner outer below, scan.unclosed = above ++ inner :: outer :: below →
    Balanced (segment scan.program.code (outer + 1) inner)
  behind : ∀ ip rest, scan.unclosed = ip :: rest → Balanced (scan.program.code.drop (ip + 1))
  located : ∀ ip ∈ scan.unclosed, ∃ offset, scan.program.offset? ip = some offset ∧
    source[offset]? = some Instruction.loopStart.byte

namespace Covers

variable {source more : List UInt8} {scan next : Scan} {ip o c : Nat}

theorem of_feedAll (covers : scan.Covers source) (read : scan.feedAll more = .ok next) :
    next.Covers (source ++ more) := by
  rcases covers.feedAll more with ⟨next', read', covers'⟩ | ⟨_, _, _, _, stopped⟩
  · rw [read', Except.ok.injEq] at read
    exact read ▸ covers'
  · simp [stopped] at read

theorem nesting_code (covers : scan.Covers source) :
    Nesting scan.program.code scan.unclosed :=
  covers.code_eq ▸ covers.nesting

theorem forward_eq_some_iff (covers : scan.Covers source) :
    scan.program.forward o = some c ↔ Partners scan.program.code o c :=
  covers.code_eq ▸ covers.forward_iff o c

theorem backward_eq_some_iff (covers : scan.Covers source) :
    scan.program.backward c = some o ↔ Partners scan.program.code o c :=
  covers.code_eq ▸ covers.backward_iff o c

theorem forward_eq_none (covers : scan.Covers source) (member : ip ∈ scan.unclosed) :
    scan.program.forward ip = none := by
  rw [Option.eq_none_iff_forall_ne_some]
  intro close found
  exact covers.nesting_code.not_partners member (covers.forward_eq_some_iff.mp found)

theorem backward_length_eq_none (covers : scan.Covers source) :
    scan.program.backward scan.program.length = none := by
  rw [Option.eq_none_iff_forall_ne_some]
  intro opening found
  have bound := (covers.backward_eq_some_iff.mp found).closing_lt
  rw [scan.program.length_code] at bound
  exact Nat.lt_irrefl _ bound

theorem orderly (covers : scan.Covers source) : scan.Orderly source where
  code_eq := covers.code_eq
  size_offsets := by
    rw [← Array.length_toList, covers.offsets_eq, length_positions, covers.length_eq]
  decreasing := covers.nesting_code.pairwise
  mem_unclosed_iff ip := by
    rw [Program.instruction?_eq]
    constructor
    · intro member
      exact ⟨covers.nesting_code.opens member,
        fun ⟨close, partners⟩ => covers.nesting_code.not_partners member partners⟩
    · rintro ⟨opens, alone⟩
      by_contra closed
      exact alone (covers.nesting_code.exists_closing opens closed)
  opening_known ip opens := by
    rw [Program.instruction?_eq] at opens
    by_cases member : ip ∈ scan.unclosed
    · exact Or.inl ⟨member, covers.forward_eq_none member⟩
    · obtain ⟨close, partners⟩ := covers.nesting_code.exists_closing opens member
      exact Or.inr ⟨member, close, covers.forward_eq_some_iff.mpr partners⟩
  closing_known ip closes := by
    rw [Program.instruction?_eq] at closes
    obtain ⟨opening, partners⟩ := covers.nesting_code.exists_opening closes
    exact ⟨opening, covers.backward_eq_some_iff.mpr partners⟩
  inverse o c := covers.forward_eq_some_iff.trans covers.backward_eq_some_iff.symm
  paired o c found := by
    have partners := covers.forward_eq_some_iff.mp found
    exact ⟨partners.lt, scan.program.length_code ▸ partners.closing_lt, partners⟩
  vacant ip rest top :=
    ⟨covers.forward_eq_none (by simp [top]), covers.backward_length_eq_none⟩
  between above inner outer below split := by
    have nesting := covers.nesting_code
    rw [split] at nesting
    exact nesting.balanced_between
  behind ip rest top := by
    have nesting := covers.nesting_code
    rw [top] at nesting
    exact nesting.balanced_behind
  located ip member := by
    apply covers.exists_offset
    rw [Program.instruction?_eq]
    exact covers.nesting_code.opens member

theorem partners_append (partners : Partners (decode source) o c) (more : List UInt8) :
    Partners (decode (source ++ more)) o c := by
  rw [decode_append]
  exact partners.placed [] (decode more)

theorem entries_kept (covers : scan.Covers source) (read : scan.feedAll more = .ok next) :
    (∀ o c, scan.program.forward o = some c → next.program.forward o = some c) ∧
      ∀ o c, scan.program.backward c = some o → next.program.backward c = some o := by
  have later := covers.of_feedAll read
  constructor
  · intro o c found
    rw [covers.forward_iff] at found
    rw [later.forward_iff]
    exact partners_append found more
  · intro o c found
    rw [covers.backward_iff] at found
    rw [later.backward_iff]
    exact partners_append found more

end Covers

theorem exists_offset_of_finish {scan : Scan} {error : LoadError}
    (failed : scan.finish = .error error) :
    ∃ ip offset, error = .unmatched .opening ip offset ∧
      scan.program.offset? ip = some offset := by
  obtain ⟨program, unclosed, last, aligned, located⟩ := scan
  cases unclosed with
  | nil => simp [finish] at failed
  | cons ip rest =>
      have inside := located ip List.mem_cons_self
      exact ⟨ip, program.offsets[ip], (Except.error.inj failed).symm,
        Array.getElem?_eq_getElem inside⟩

theorem feedAll_orderly {source : List UInt8} {scan : Scan}
    (read : ({} : Scan).feedAll source = .ok scan) :
    scan.Orderly source ∧
      (∀ more next, scan.feedAll more = .ok next →
        (∀ o c, scan.program.forward o = some c → next.program.forward o = some c) ∧
          ∀ o c, scan.program.backward c = some o → next.program.backward c = some o) ∧
      ∀ error, scan.finish = .error error →
        ∃ ip offset, error = .unmatched .opening ip offset ∧
          scan.program.offset? ip = some offset := by
  have covers : scan.Covers source := Covers.start.of_feedAll read
  exact ⟨covers.orderly, fun more next => covers.entries_kept,
    fun error => exists_offset_of_finish⟩

theorem feedAll_orderly_two_open :
    ∃ scan, ({} : Scan).feedAll (['[', '+', '[', ']', '-', '['].map Char.toUInt8) = .ok scan ∧
      scan.unclosed = [5, 0] ∧ scan.program.forward 2 = some 3 ∧
      Balanced (segment scan.program.code 1 5) ∧ scan.program.forward 5 = none := by
  let scan : Scan :=
    { program := ⟨#[.loopStart, .simple .increment, .loopStart, .loopEnd, .simple .decrement,
        .loopStart], #[0, 1, 2, 3, 4, 5], #[none, none, some 3, none, none, none],
        #[none, none, none, some 2, none, none]⟩
      unclosed := [5, 0]
      offset := 6
      located := by decide }
  have read :
      ({} : Scan).feedAll (['[', '+', '[', ']', '-', '['].map Char.toUInt8) = .ok scan := rfl
  obtain ⟨orderly, -, -⟩ := feedAll_orderly read
  exact ⟨scan, read, rfl, rfl, orderly.between [] 5 0 [] rfl, (orderly.vacant 5 [0] rfl).1⟩

end Scan

end Brainfuck
