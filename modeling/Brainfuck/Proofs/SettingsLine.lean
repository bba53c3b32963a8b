import Brainfuck.Proofs.SettingValues
import Mathlib.Data.List.TakeWhile

namespace Brainfuck.Settings.File

def IsHeader (line inner : List Char) : Prop := Text.trim line = '[' :: (inner ++ [']'])

/-- The value that a trimmed text denotes, which is not in the quotes around it. -/
inductive Denotes : List Char → List Char → Prop where
  | quoted (value : List Char) : Denotes ('"' :: (value ++ ['"'])) value
  | bare {text : List Char} (unquoted : ∀ value, text ≠ '"' :: (value ++ ['"'])) :
      Denotes text text

structure IsAssignment (line key value : List Char) : Prop where
  not_header : ∀ inner, ¬ IsHeader line inner
  not_comment : ∀ rest, Text.trim line ≠ '#' :: rest
  parts : ∃ before behind, Text.trim line = before ++ '=' :: behind ∧ '=' ∉ before ∧
    Text.trim before = key ∧ Denotes (Text.trim behind) value

theorem IsHeader.unique {line inner inner' : List Char} (heads : IsHeader line inner)
    (heads' : IsHeader line inner') : inner = inner' :=
  List.append_cancel_right (List.cons.inj (heads.symm.trans heads')).2

theorem denotes_iff {text value : List Char} : Denotes text value ↔ unquote text = value := by
  constructor
  · rintro (_ | unquoted)
    · simp [unquote]
    · unfold unquote
      split
      · next rest =>
          rw [if_neg]
          intro last
          obtain ⟨inner, rfl⟩ := List.getLast?_eq_some_iff.mp last
          exact unquoted inner rfl
      · rfl
  · rintro rfl
    unfold unquote
    split
    · next rest =>
        split
        · next last =>
            obtain ⟨inner, rfl⟩ := List.getLast?_eq_some_iff.mp last
            rw [List.dropLast_concat]
            exact .quoted inner
        · next last =>
            refine .bare fun value same => last ?_
            rw [(List.cons.inj same).2, List.getLast?_concat]
    · next unopened => exact .bare fun value same => unopened _ same

namespace Line

theorem ofAssignment_of_notMem {text : List Char} (unassigned : '=' ∉ text) :
    ofAssignment text = .other := by
  have dropped : text.dropWhile (· ≠ '=') = [] := by
    rw [List.dropWhile_eq_nil_iff]
    intro character mem
    simp only [decide_eq_true_eq]
    rintro rfl
    exact unassigned mem
  rw [ofAssignment, dropped]

theorem ofAssignment_split {before : List Char} (first : '=' ∉ before) (behind : List Char) :
    ofAssignment (before ++ '=' :: behind) =
      .assignment (Text.trim before) (unquote (Text.trim behind)) := by
  have passed : ∀ character ∈ before, decide (character ≠ '=') = true := by
    intro character mem
    simp only [decide_eq_true_eq]
    rintro rfl
    exact first mem
  rw [ofAssignment, List.dropWhile_append_of_pos passed, List.takeWhile_append_of_pos passed]
  simp

theorem ofAssignment_eq_assignment_iff {text key value : List Char} :
    ofAssignment text = .assignment key value ↔
      ∃ before behind, text = before ++ '=' :: behind ∧ '=' ∉ before ∧ Text.trim before = key ∧
        Denotes (Text.trim behind) value := by
  constructor
  · intro assigned
    by_cases mem : '=' ∈ text
    · obtain ⟨before, behind, rfl, first⟩ := List.eq_append_cons_of_mem mem
      rw [ofAssignment_split first, assignment.injEq] at assigned
      exact ⟨before, behind, rfl, first, assigned.1, denotes_iff.mpr assigned.2⟩
    · rw [ofAssignment_of_notMem mem] at assigned
      simp at assigned
  · rintro ⟨before, behind, rfl, first, rfl, denotes⟩
    rw [ofAssignment_split first, denotes_iff.mp denotes]

theorem ofAssignment_ne_header (text name : List Char) : ofAssignment text ≠ .header name := by
  unfold ofAssignment
  split <;> simp

theorem ofText_eq_header_iff {line name : List Char} :
    ofText line = .header name ↔ ∃ inner, IsHeader line inner ∧ Text.trim inner = name := by
  unfold ofText IsHeader
  generalize Text.trim line = text
  unfold ofTrimmed
  split
  · simp
  · simp
  · next rest =>
      split
      · next last =>
          obtain ⟨inner, rfl⟩ := List.getLast?_eq_some_iff.mp last
          simp
      · next last =>
          simp only [ofAssignment_ne_header, false_iff]
          rintro ⟨inner, same, -⟩
          rw [(List.cons.inj same).2, List.getLast?_concat] at last
          exact last rfl
  · next unopened =>
      simp only [ofAssignment_ne_header, false_iff]
      rintro ⟨inner, rfl, -⟩
      exact unopened _ rfl

theorem ofText_eq_assignment_iff {line key value : List Char} :
    ofText line = .assignment key value ↔ IsAssignment line key value := by
  have fields : IsAssignment line key value ↔
      (∀ inner, ¬ IsHeader line inner) ∧ (∀ rest, Text.trim line ≠ '#' :: rest) ∧
        ofAssignment (Text.trim line) = .assignment key value := by
    rw [ofAssignment_eq_assignment_iff]
    exact ⟨fun assigns => ⟨assigns.not_header, assigns.not_comment, assigns.parts⟩,
      fun ⟨unheaded, uncommented, parts⟩ => ⟨unheaded, uncommented, parts⟩⟩
  rw [fields]
  unfold ofText IsHeader
  generalize Text.trim line = text
  unfold ofTrimmed
  split
  · simp [ofAssignment]
  · simp
  · next rest =>
      split
      · next last =>
          obtain ⟨inner, rfl⟩ := List.getLast?_eq_some_iff.mp last
          simp
      · next last =>
          have unclosed : ∀ inner, '[' :: rest ≠ '[' :: (inner ++ [']']) := by
            intro inner same
            rw [(List.cons.inj same).2, List.getLast?_concat] at last
            exact last rfl
          simp [unclosed]
  · next uncommented unopened =>
      constructor
      · exact fun assigned => ⟨fun inner same => unopened _ same,
          fun tail same => uncommented _ same, assigned⟩
      · exact fun ⟨_, _, assigned⟩ => assigned

end Line

theorem IsAssignment.unique {line key key' value value' : List Char}
    (assigns : IsAssignment line key value) (assigns' : IsAssignment line key' value') :
    key = key' ∧ value = value' := by
  rw [← Line.ofText_eq_assignment_iff] at assigns assigns'
  exact Line.assignment.inj (assigns.symm.trans assigns')

theorem IsAssignment.setting_unique {line value value' : List Char} {setting setting' : Setting}
    (assigns : IsAssignment line setting.key.toList value)
    (assigns' : IsAssignment line setting'.key.toList value') : setting = setting' :=
  Setting.key_injective (String.toList_inj.mp (assigns.unique assigns').1)

theorem setting?_eq_some_iff {key : List Char} {setting : Setting} :
    setting? key = some setting ↔ setting.key.toList = key := by
  constructor
  · intro found
    simpa using List.find?_some found
  · rintro rfl
    cases setting <;> decide +kernel

end Brainfuck.Settings.File
