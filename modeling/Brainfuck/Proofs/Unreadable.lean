import Brainfuck.Proofs.LastAssignment

namespace Brainfuck.Settings.File

variable {text edited : String} {i : Nat} {setting : Setting} {value : List Char}

theorem AssignsAt.exists_assignments (assigns : AssignsAt (rows text) i setting value)
    (erased : rows edited = (rows text).eraseIdx i) :
    ∃ later,
      assignments setting (rows text) =
        assignments setting ((rows text).take i) ++ value :: later ∧
      assignments setting (rows edited) = assignments setting ((rows text).take i) ++ later ∧
      (later = [] ↔ ∀ j value', i < j → ¬ AssignsAt (rows text) j setting value') := by
  obtain ⟨above, line, below, same, rfl, here⟩ := assigns.exists_split
  have unheaded := here.2.not_header
  rw [same, eraseIdx_middle] at erased
  rw [erased, same, assignments_insert unheaded, assigned?_eq_some_iff.mpr here,
    assignments_append, List.take_left]
  refine ⟨assignmentsBelow setting above below, by simp, rfl, ?_⟩
  rw [← assignmentsBelow_concat unheaded, assignmentsBelow_eq_nil_iff, List.length_append,
    List.length_singleton, List.append_assoc, List.singleton_append]
  rfl

theorem AssignsAt.value?_other (assigns : AssignsAt (rows text) i setting value)
    (erased : rows edited = (rows text).eraseIdx i) {other : Setting}
    (different : other ≠ setting) :
    (read edited).value? other = (read text).value? other := by
  obtain ⟨line, found, -, here⟩ := assigns
  refine value?_read_erased found here.not_header ?_ erased
  rintro value' ⟨line', found', -, here'⟩
  obtain rfl : line = line' := by simpa [found] using found'
  exact different (here'.setting_unique here)

theorem Layer.eq_iff_of_others {first second : Layer} {setting : Setting}
    (others : ∀ other, other ≠ setting → first.value? other = second.value? other) :
    first = second ↔ first.value? setting = second.value? setting := by
  refine ⟨fun same => by rw [same], fun same => Layer.ext_value? fun other => ?_⟩
  by_cases here : other = setting
  · rw [here, same]
  · exact others other here

/-- A line whose value cannot be read may be left out if and only if it hides no value that can be
read. -/
theorem read_without_unreadable (assigns : AssignsAt (rows text) i setting value)
    (unreadable : setting.ofFile? value = none)
    (erased : rows edited = (rows text).eraseIdx i) :
    (read edited = read text ↔
      (∃ j later, i < j ∧ AssignsAt (rows text) j setting later) ∨
        ∀ earlier, LastAssigned ((rows text).take i) setting earlier →
          setting.ofFile? earlier = none) ∧
    (∀ other, other ≠ setting → (read edited).value? other = (read text).value? other) ∧
    ((∀ j later, i < j → ¬ AssignsAt (rows text) j setting later) →
      (read text).value? setting = none) := by
  have others : ∀ other, other ≠ setting →
      (read edited).value? other = (read text).value? other :=
    fun other => assigns.value?_other erased
  obtain ⟨later, withLine, without, nothing⟩ := assigns.exists_assignments erased
  rw [Layer.eq_iff_of_others others, value?_read, value?_read, withLine, without]
  simp only [lastAssigned_iff]
  rcases List.eq_nil_or_concat later with rfl | ⟨between, last, rfl⟩
  -- The line is the last assignment, so without it the one above it counts.
  · have unassigned := nothing.mp rfl
    rw [List.append_nil, List.getLast?_concat, Option.bind_some, unreadable,
      Option.bind_eq_none_iff]
    refine ⟨⟨Or.inr, ?_⟩, others, fun _ => rfl⟩
    rintro (⟨j, later, below, assigns'⟩ | hides)
    · exact absurd assigns' (unassigned j later below)
    · exact hides
  -- A later assignment counts with the line and without it.
  · obtain ⟨j, later, below, assigns'⟩ :
        ∃ j later, i < j ∧ AssignsAt (rows text) j setting later := by
      by_contra unassigned
      have empty := nothing.mpr fun j later below assigns' =>
        unassigned ⟨j, later, below, assigns'⟩
      simp at empty
    refine ⟨iff_of_true ?_ (Or.inl ⟨j, later, below, assigns'⟩), others, ?_⟩
    · rw [List.concat_eq_append, ← List.cons_append, ← List.append_assoc, ← List.append_assoc,
        List.getLast?_concat, List.getLast?_concat]
    · exact fun unassigned => absurd assigns' (unassigned j later below)

theorem read_without_unreadable_above :
    let text := "[interpreter]\ntape_size = big\n[interpreter]\n tape_size=\"5\""
    let edited := "[interpreter]\n[interpreter]\n tape_size=\"5\""
    AssignsAt (rows text) 1 .tapeSize "big".toList ∧ read edited = read text := by
  intro text edited
  have assigns : AssignsAt (rows text) 1 .tapeSize "big".toList := by decide +kernel
  have assigns' : AssignsAt (rows text) 3 .tapeSize "5".toList := by decide +kernel
  have unreadable : Setting.ofFile? .tapeSize "big".toList = none := by decide +kernel
  have erased : rows edited = (rows text).eraseIdx 1 := by decide +kernel
  exact ⟨assigns, (read_without_unreadable assigns unreadable erased).1.mpr
    (Or.inl ⟨3, _, by decide, assigns'⟩)⟩

theorem unreadable_hides_readable :
    let text := "[interpreter]\ntape_size = 5\ntape_size = big\n"
    let edited := "[interpreter]\ntape_size = 5\n"
    AssignsAt (rows text) 2 .tapeSize "big".toList ∧
      Setting.ofFile? .tapeSize "big".toList = none ∧
      rows edited = (rows text).eraseIdx 2 ∧
      read text = {} ∧ read edited = { tapeSize := some 5 } := by
  decide +kernel

end Brainfuck.Settings.File
