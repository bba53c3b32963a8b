import Brainfuck.Proofs.Assignments

namespace Brainfuck.Settings.File

variable {above below : List (List Char)} {line : List Char} {setting : Setting}

def AssignsAt (lines : List (List Char)) (i : Nat) (setting : Setting) (value : List Char) : Prop :=
  ∃ line, lines[i]? = some line ∧ Assigns (lines.take i) line setting value

def LastAssigned (lines : List (List Char)) (setting : Setting) (value : List Char) : Prop :=
  ∃ i, AssignsAt lines i setting value ∧ ∀ j later, i < j → ¬ AssignsAt lines j setting later

theorem assignsAt_iff {lines : List (List Char)} {i : Nat} {value : List Char} :
    AssignsAt lines i setting value ↔
      (lines[i]?).bind (fun line => assigned? (lines.take i) line setting) = some value := by
  simp only [AssignsAt, Option.bind_eq_some_iff, assigned?_eq_some_iff]

instance (lines : List (List Char)) (i : Nat) (setting : Setting) (value : List Char) :
    Decidable (AssignsAt lines i setting value) :=
  decidable_of_iff' _ assignsAt_iff

theorem exists_split_of_getElem? {lines : List (List Char)} {i : Nat}
    (found : lines[i]? = some line) :
    ∃ above below, lines = above ++ line :: below ∧ above.length = i := by
  obtain ⟨bound, rfl⟩ := List.getElem?_eq_some_iff.mp found
  refine ⟨lines.take i, lines.drop (i + 1), ?_, ?_⟩
  · rw [← List.drop_eq_getElem_cons bound, List.take_append_drop]
  · rw [List.length_take, Nat.min_eq_left (Nat.le_of_lt bound)]

theorem eraseIdx_middle (above : List (List Char)) (line : List Char) (below : List (List Char)) :
    (above ++ line :: below).eraseIdx above.length = above ++ below := by
  rw [List.eraseIdx_append_of_length_le (Nat.le_refl _), Nat.sub_self, List.eraseIdx_cons_zero]

theorem assignsAt_middle_iff {value : List Char} :
    AssignsAt (above ++ line :: below) above.length setting value ↔
      Assigns above line setting value := by
  simp [AssignsAt]

theorem AssignsAt.exists_split {lines : List (List Char)} {i : Nat} {value : List Char}
    (assigns : AssignsAt lines i setting value) :
    ∃ above line below, lines = above ++ line :: below ∧ above.length = i ∧
      Assigns above line setting value := by
  have at_i := assigns
  obtain ⟨line, found, -⟩ := assigns
  obtain ⟨above, below, rfl, rfl⟩ := exists_split_of_getElem? found
  exact ⟨above, line, below, rfl, rfl, assignsAt_middle_iff.mp at_i⟩

theorem AssignsAt.lt {lines : List (List Char)} {i : Nat} {value : List Char}
    (assigns : AssignsAt lines i setting value) : i < lines.length := by
  obtain ⟨above, line, below, rfl, rfl, -⟩ := assigns.exists_split
  simp

theorem assignsAt_append_iff {i : Nat} {value : List Char} (bound : i < above.length) :
    AssignsAt (above ++ below) i setting value ↔ AssignsAt above i setting value := by
  rw [AssignsAt, AssignsAt, List.getElem?_append_left bound,
    List.take_append_of_le_length (Nat.le_of_lt bound)]

theorem assignmentsBelow_eq_nil_iff (setting : Setting) (above below : List (List Char)) :
    assignmentsBelow setting above below = [] ↔
      ∀ i value, above.length ≤ i → ¬ AssignsAt (above ++ below) i setting value := by
  induction below generalizing above with
  | nil =>
      refine iff_of_true rfl fun i value bound assigns => ?_
      have inside := assigns.lt
      rw [List.append_nil] at inside
      omega
  | cons line below ih =>
      have here : ∀ value, AssignsAt (above ++ line :: below) above.length setting value ↔
          Assigns above line setting value := fun value => assignsAt_middle_iff
      rw [assignmentsBelow, List.append_eq_nil_iff, Option.toList_eq_nil_iff,
        assigned?_eq_none_iff, ih, List.append_assoc, List.singleton_append, List.length_append,
        List.length_singleton]
      constructor
      · rintro ⟨unassigned, later⟩ i value bound
        rcases Nat.eq_or_lt_of_le bound with rfl | bound
        · exact fun assigns => unassigned value ((here value).mp assigns)
        · exact later i value bound
      · intro unassigned
        exact ⟨fun value assigns => unassigned _ value (Nat.le_refl _) ((here value).mpr assigns),
          fun i value bound => unassigned i value (by omega)⟩

theorem lastAssigned_iff {lines : List (List Char)} {value : List Char} :
    LastAssigned lines setting value ↔ (assignments setting lines).getLast? = some value := by
  constructor
  · rintro ⟨i, assigns, last⟩
    obtain ⟨above, line, below, rfl, rfl, here⟩ := assigns.exists_split
    have nothing : assignmentsBelow setting (above ++ [line]) below = [] := by
      rw [assignmentsBelow_eq_nil_iff]
      intro j later bound
      rw [List.length_append, List.length_singleton] at bound
      rw [List.append_assoc, List.singleton_append]
      exact last j later bound
    rw [assignments_append, assignmentsBelow, nothing, assigned?_eq_some_iff.mpr here]
    simp
  -- From the end of the lines: the last one assigns, or the last assignment is above it.
  · induction lines using List.reverseRecOn with
    | nil => simp [assignments, assignmentsBelow]
    | append_singleton front line ih =>
        intro isLast
        rw [assignments_append, assignmentsBelow, assignmentsBelow, List.append_nil] at isLast
        cases assigned : assigned? front line setting with
        | some final =>
            have same : final = value := by simpa [assigned] using isLast
            subst same
            refine ⟨front.length, assignsAt_middle_iff.mpr (assigned?_eq_some_iff.mp assigned), ?_⟩
            intro j later bound assigns
            have inside := assigns.lt
            rw [List.length_append, List.length_singleton] at inside
            omega
        | none =>
            obtain ⟨i, assigns, last⟩ := ih (by simpa [assigned] using isLast)
            refine ⟨i, (assignsAt_append_iff assigns.lt).mpr assigns, ?_⟩
            intro j later bound assigns'
            rcases Nat.lt_or_ge j front.length with before | behind
            · exact last j later bound ((assignsAt_append_iff before).mp assigns')
            · have inside := assigns'.lt
              rw [List.length_append, List.length_singleton] at inside
              obtain rfl : j = front.length := by omega
              exact assigned?_eq_none_iff.mp assigned later (assignsAt_middle_iff.mp assigns')

theorem value?_read_erased {text edited : String} {i : Nat} (found : (rows text)[i]? = some line)
    (unheaded : ∀ inner, ¬ IsHeader line inner)
    (unassigned : ∀ value, ¬ AssignsAt (rows text) i setting value)
    (erased : rows edited = (rows text).eraseIdx i) :
    (read edited).value? setting = (read text).value? setting := by
  obtain ⟨above, below, same, rfl⟩ := exists_split_of_getElem? found
  have absent : assigned? above line setting = none := by
    refine assigned?_eq_none_iff.mpr fun value assigns => unassigned value ?_
    rw [same]
    exact assignsAt_middle_iff.mpr assigns
  rw [same, eraseIdx_middle] at erased
  rw [value?_read, value?_read, erased, same, assignments_insert unheaded, absent,
    Option.toList_none, List.append_nil, assignments_append]

theorem read_lastAssignment :
    (∀ (text : String) (setting : Setting),
      ((∀ i value, ¬ AssignsAt (rows text) i setting value) →
        (read text).value? setting = none) ∧
      (∀ value, LastAssigned (rows text) setting value →
        (read text).value? setting = setting.ofFile? value) ∧
      ∀ (edited : String) (i : Nat) (line : List Char), (rows text)[i]? = some line →
        (∀ inner, ¬ IsHeader line inner) → (∀ value, ¬ AssignsAt (rows text) i setting value) →
        rows edited = (rows text).eraseIdx i →
        (read edited).value? setting = (read text).value? setting) ∧
    (∀ value size, Setting.ofFile? .tapeSize value = some size ↔
      Text.IsNumeral (value.filter (· ≠ '_')) size) ∧
    ∀ value policy, Setting.ofFile? .eof value = some policy ↔
      EofPolicy.ofText value = .ok policy := by
  refine ⟨fun text setting => ⟨?_, ?_, ?_⟩, fun _ _ => Setting.ofFile?_tapeSize_eq_some_iff,
    fun _ _ => toOption_eq_some_iff⟩
  · intro unassigned
    have nothing : assignments setting (rows text) = [] :=
      (assignmentsBelow_eq_nil_iff setting [] (rows text)).mpr fun i value _ => unassigned i value
    rw [value?_read, nothing]
    rfl
  · intro value last
    rw [value?_read, lastAssigned_iff.mp last]
    rfl
  · exact fun edited i line found unheaded unassigned erased =>
      value?_read_erased found unheaded unassigned erased

theorem read_lastAssignment_repeated :
    let text := "[interpreter]\ntape_size = 5\n[a]\ntape_size=x\n[ interpreter ]\ntape_size=\"+8_0\""
    let edited := "[interpreter]\ntape_size = 5\n[a]\n[ interpreter ]\ntape_size=\"+8_0\""
    LastAssigned (rows text) .tapeSize "+8_0".toList ∧
      (read text).value? .tapeSize = some 80 ∧ (read edited).value? .tapeSize = some 80 := by
  intro text edited
  have last : LastAssigned (rows text) .tapeSize "+8_0".toList :=
    lastAssigned_iff.mpr (by decide +kernel)
  have outside : ∀ value, ¬ AssignsAt (rows text) 3 .tapeSize value := by
    rintro value ⟨line, -, inSection, -⟩
    exact absurd inSection (by decide +kernel)
  have unheaded : ∀ inner, ¬ IsHeader "tape_size=x".toList inner := by
    have first : (Text.trim "tape_size=x".toList).head? ≠ some '[' := by decide +kernel
    exact fun inner heads => first (congrArg List.head? heads)
  obtain ⟨-, counts, erasable⟩ := read_lastAssignment.1 text .tapeSize
  have reads : (read text).value? .tapeSize = some 80 := (counts _ last).trans (by decide +kernel)
  exact ⟨last, reads, (erasable edited 3 "tape_size=x".toList (by decide +kernel) unheaded outside
    (by decide +kernel)).trans reads⟩

end Brainfuck.Settings.File
