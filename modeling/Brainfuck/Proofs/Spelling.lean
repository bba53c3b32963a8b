import Brainfuck.Proofs.Assignments
import Brainfuck.Proofs.Trimming

namespace Brainfuck

/-- The text spells the value: a number with zeros before it and underscores anywhere, a policy by
its name in any case. -/
def Setting.Spells : (setting : Setting) → setting.Value → List Char → Prop
  | .tapeSize, size, spelling => ∃ zeros,
    spelling.filter (· ≠ '_') = List.replicate zeros '0' ++ Nat.toDigits 10 size
  | .eof, policy, spelling => spelling.map Char.toLower = policy.name.toList

namespace Text

theorem isDigit_of_mem_digits {zeros size : Nat} {character : Char}
    (mem : character ∈ List.replicate zeros '0' ++ Nat.toDigits 10 size) :
    character.isDigit := by
  rcases List.mem_append.mp mem with mem | mem
  · rw [List.eq_of_mem_replicate mem]
    rfl
  · exact Nat.isDigit_of_mem_toDigits (by decide) (by decide) mem

theorem isNumeral_digits_iff {zeros size number : Nat} :
    IsNumeral (List.replicate zeros '0' ++ Nat.toDigits 10 size) number ↔
      size = number ∧ number < 2 ^ 64 := by
  have value : Nat.ofDigitChars 10 (List.replicate zeros '0' ++ Nat.toDigits 10 size) 0 = size := by
    rw [Nat.ofDigitChars_append, Nat.ofDigitChars_replicate_zero, Nat.mul_zero,
      Nat.ofDigitChars_toDigits (by decide) (by decide)]
  constructor
  · rintro ⟨digits, rfl | signed, -, -, same, bound⟩
    · exact ⟨value.symm.trans same, bound⟩
    · have sign : '+'.isDigit := isDigit_of_mem_digits (by rw [signed]; exact List.mem_cons_self)
      exact absurd sign (by decide)
  · rintro ⟨rfl, bound⟩
    exact ⟨_, Or.inl rfl, by simp [Nat.toDigits_ne_nil], fun _ => isDigit_of_mem_digits, value,
      bound⟩

theorem IsNumeral.filter_eq {text : List Char} {number : Nat} (numeral : IsNumeral text number) :
    text.filter (· ≠ '_') = text := by
  obtain ⟨digits, same, -, digital, -⟩ := numeral
  have kept : ∀ character ∈ digits, character ≠ '_' := by
    rintro _ mem rfl
    exact absurd (digital '_' mem) (by decide)
  rw [List.filter_eq_self]
  rcases same with rfl | rfl
  · simpa using kept
  · simpa using kept

end Text

theorem Setting.ofFile?_of_spellsSize {size : Nat} {spelling : List Char}
    (spells : Setting.tapeSize.Spells size spelling) :
    ofFile? .tapeSize spelling = if size < 2 ^ 64 then some size else none := by
  obtain ⟨zeros, digits⟩ := spells
  apply Option.ext
  intro number
  rw [ofFile?_tapeSize_eq_some_iff, digits, Text.isNumeral_digits_iff]
  split
  · next bound =>
      rw [Option.some.injEq]
      exact and_iff_left_of_imp fun same => same ▸ bound
  · next unbounded =>
      simp only [reduceCtorEq, iff_false]
      rintro ⟨rfl, bound⟩
      exact unbounded bound

theorem Setting.ofVariable?_of_spellsSize {size : Nat} {text : String} (tooLarge : 2 ^ 64 ≤ size)
    (spells : Setting.tapeSize.Spells size (Text.trim text.toList)) :
    ofVariable? .tapeSize text = none := by
  obtain ⟨zeros, digits⟩ := spells
  refine Option.eq_none_iff_forall_ne_some.mpr fun number reads => ?_
  have numeral := Text.readNumeral_eq_ok_iff.mp (toOption_eq_some_iff.mp reads)
  rw [← numeral.filter_eq, digits, Text.isNumeral_digits_iff] at numeral
  omega

def Solid (character : Char) : Prop := Text.isBlank character = false ∧ character ≠ '"'

theorem solid_of_visible {character : Char} (low : 0x22 < character.toNat)
    (high : character.toNat < 0x7F) : Solid character := by
  refine ⟨Text.not_isBlank_of_visible (by omega) high, ?_⟩
  rintro rfl
  exact absurd low (by decide)

theorem Setting.Spells.solid {setting : Setting} {value : setting.Value} {spelling : List Char}
    (spells : setting.Spells value spelling) {character : Char} (mem : character ∈ spelling) :
    Solid character := by
  cases setting with
  | tapeSize =>
      obtain ⟨zeros, digits⟩ := spells
      by_cases underscore : character = '_'
      · exact underscore ▸ solid_of_visible (by decide) (by decide)
      · have kept : character ∈ spelling.filter (· ≠ '_') := by simp [mem, underscore]
        rw [digits] at kept
        have digit := Char.isDigit_iff_toNat.mp (Text.isDigit_of_mem_digits kept)
        have bounds : '0'.toNat = 0x30 ∧ '9'.toNat = 0x39 := ⟨rfl, rfl⟩
        exact solid_of_visible (by omega) (by omega)
  | eof =>
      have lower : character.toLower ∈ (EofPolicy.name value).toList := by
        rw [← spells]
        exact List.mem_map_of_mem mem
      have letters : ∀ policy : EofPolicy, ∀ letter ∈ policy.name.toList,
          0x22 < letter.toNat ∧ letter.toNat < 0x7F := by
        intro policy
        cases policy <;> simp [EofPolicy.name]
      unfold Char.toLower at lower
      split at lower
      · next upper =>
          have range : 0x41 ≤ character.toNat ∧ character.toNat ≤ 0x5A := by
            simpa [UInt32.le_iff_toNat_le] using upper
          exact solid_of_visible (by omega) (by omega)
      · obtain ⟨low, high⟩ := letters value character lower
        exact solid_of_visible low high

theorem Setting.ofFile?_of_spellsPolicy {policy : EofPolicy} {spelling : List Char}
    (spells : Setting.eof.Spells policy spelling) : ofFile? .eof spelling = some policy := by
  have same : spelling.map Char.toLower = policy.name.toList := spells
  have trimmed : Text.trim spelling = spelling :=
    Text.trim_eq_self fun character mem => (spells.solid mem).1
  rw [ofFile?, EofPolicy.ofText, trimmed, same, String.ofList_toList]
  cases policy <;> rfl

namespace Settings.File

def Blank (text : List Char) : Prop := ∀ character ∈ text, Text.isBlank character

theorem blank_nil : Blank [] := fun _ mem => absurd mem List.not_mem_nil

theorem blank_singleton {character : Char} (blank : Text.isBlank character) :
    Blank [character] := by
  intro other mem
  rwa [List.mem_singleton.mp mem]

/-- The line gives the setting the spelling as its value, with or without quotes around it, and with
blanks anywhere but inside of the quotes. -/
inductive Written (setting : Setting) (spelling : List Char) : List Char → Prop where
  | bare {front gap lead back : List Char} (blankFront : Blank front) (blankGap : Blank gap)
      (blankLead : Blank lead) (blankBack : Blank back) :
      Written setting spelling
        (front ++ (setting.key.toList ++ (gap ++ '=' :: (lead ++ (spelling ++ back)))))
  | quoted {front gap lead back : List Char} (blankFront : Blank front) (blankGap : Blank gap)
      (blankLead : Blank lead) (blankBack : Blank back) :
      Written setting spelling
        (front ++ (setting.key.toList ++
          (gap ++ '=' :: (lead ++ ('"' :: (spelling ++ ['"']) ++ back)))))

theorem exists_key_eq (setting : Setting) : ∃ first rest, setting.key.toList = first :: rest ∧
    Text.isBlank first = false ∧ first ≠ '[' ∧ first ≠ '#' := by
  cases setting
  · exact ⟨'t', _, rfl, rfl, by decide, by decide⟩
  · exact ⟨'e', _, rfl, rfl, by decide, by decide⟩

theorem isAssignment_of_parts {setting : Setting} {front gap behind value : List Char}
    (blankFront : Blank front) (blankGap : Blank gap) (denotes : Denotes (Text.trim behind) value) :
    IsAssignment (front ++ (setting.key.toList ++ (gap ++ '=' :: behind))) setting.key.toList
      value := by
  obtain ⟨first, rest, key, unblank, unopened, uncommented⟩ := exists_key_eq setting
  have trimmed :
      Text.trim (front ++ (setting.key.toList ++ (gap ++ '=' :: behind))) =
        setting.key.toList ++ gap ++ '=' :: behind.rdropWhile Text.isBlank := by
    rw [Text.trim_blank_append blankFront, Text.trim_eq, key, List.cons_append,
      List.dropWhile_cons_of_neg (by simp [unblank]), ← List.cons_append, ← List.append_assoc,
      Text.rdropWhile_append_cons rfl]
  refine ⟨fun inner heads => ?_, fun tail comment => ?_, _, _, trimmed, ?_, ?_, ?_⟩
  · rw [IsHeader, trimmed, key] at heads
    exact unopened (List.cons.inj heads).1
  · rw [trimmed, key] at comment
    exact uncommented (List.cons.inj comment).1
  · rw [List.mem_append, not_or]
    refine ⟨by cases setting <;> decide, fun mem => ?_⟩
    exact absurd (blankGap '=' mem) (by decide)
  · rw [Text.trim_append_blank blankGap]
    cases setting <;> decide +kernel
  · rwa [Text.trim_rdropWhile]

theorem Written.isAssignment {setting : Setting} {value : setting.Value} {spelling line : List Char}
    (spells : setting.Spells value spelling) (written : Written setting spelling line) :
    IsAssignment line setting.key.toList spelling := by
  have solid : ∀ character ∈ spelling, Solid character := fun _ => spells.solid
  cases written with
  | bare blankFront blankGap blankLead blankBack =>
      refine isAssignment_of_parts blankFront blankGap ?_
      rw [Text.trim_blank_append blankLead, Text.trim_append_blank blankBack,
        Text.trim_eq_self fun character mem => (solid character mem).1]
      refine .bare fun value same => (solid '"' ?_).2 rfl
      rw [same]
      exact List.mem_cons_self
  | quoted blankFront blankGap blankLead blankBack =>
      refine isAssignment_of_parts blankFront blankGap ?_
      have kept : Text.trim ('"' :: (spelling ++ ['"'])) = '"' :: (spelling ++ ['"']) := by
        refine Text.trim_eq_self fun character mem => ?_
        rw [List.mem_cons, List.mem_append, List.mem_singleton] at mem
        rcases mem with rfl | mem | rfl
        · rfl
        · exact (solid character mem).1
        · rfl
      rw [Text.trim_blank_append blankLead, Text.trim_append_blank blankBack, kept]
      exact .quoted spelling

variable {setting : Setting}

theorem lines_append_break {first : List Char} (unbroken : '\n' ∉ first) (rest : List Char) :
    lines (first ++ '\n' :: rest) = first :: lines rest := by
  induction first with
  | nil => rfl
  | cons character first ih =>
      rw [List.mem_cons, not_or] at unbroken
      simp [lines, ih unbroken.2, Ne.symm unbroken.1]

theorem lines_of_notMem {text : List Char} (unbroken : '\n' ∉ text) : lines text = [text] := by
  induction text with
  | nil => rfl
  | cons character text ih =>
      rw [List.mem_cons, not_or] at unbroken
      simp [lines, ih unbroken.2, Ne.symm unbroken.1]

def single (setting : Setting) (text : String) : String :=
  "[interpreter]\n" ++ setting.key ++ " = " ++ text

theorem rows_single (setting : Setting) {text : String} (unbroken : '\n' ∉ text.toList) :
    rows (single setting text) =
      ["[interpreter]".toList, setting.key.toList ++ ' ' :: '=' :: ' ' :: text.toList] := by
  have content : (single setting text).toList =
      "[interpreter]".toList ++ '\n' ::
        (setting.key.toList ++ ' ' :: '=' :: ' ' :: text.toList) := by
    have above : "[interpreter]\n".toList = "[interpreter]".toList ++ ['\n'] := by decide +kernel
    have between : " = ".toList = [' ', '=', ' '] := by decide +kernel
    unfold single
    simp only [String.toList_append, above, between, List.append_assoc, List.cons_append,
      List.nil_append]
  have header : '\n' ∉ "[interpreter]".toList := by decide
  have line : '\n' ∉ setting.key.toList ++ ' ' :: '=' :: ' ' :: text.toList := by
    have key : '\n' ∉ setting.key.toList := by cases setting <;> decide
    simp [key, unbroken]
  have pieces := (congrArg lines content).trans (lines_append_break header _)
  simp [rows, pieces, lines_of_notMem line]

theorem isHeader_interpreter : IsHeader "[interpreter]".toList "interpreter".toList := by
  unfold IsHeader
  decide +kernel

theorem trim_interpreter : Text.trim "interpreter".toList = sectionName := by decide +kernel

theorem isAssignment_single (setting : Setting) {text : String} (unquoted : '"' ∉ text.toList) :
    IsAssignment (setting.key.toList ++ ' ' :: '=' :: ' ' :: text.toList) setting.key.toList
      (Text.trim text.toList) := by
  have space : Blank [' '] := blank_singleton rfl
  have denotes : Denotes (Text.trim ([' '] ++ text.toList)) (Text.trim text.toList) := by
    rw [Text.trim_blank_append space]
    refine .bare fun value same => unquoted (Text.mem_of_mem_trim ?_)
    rw [same]
    exact List.mem_cons_self
  exact isAssignment_of_parts blank_nil space denotes

theorem value?_read_single {text : String} (unbroken : '\n' ∉ text.toList)
    (unquoted : '"' ∉ text.toList) :
    (read (single setting text)).value? setting = setting.ofFile? (Text.trim text.toList) := by
  have split : rows (single setting text) =
      ([] ++ ["[interpreter]".toList]) ++
        [setting.key.toList ++ ' ' :: '=' :: ' ' :: text.toList] :=
    rows_single setting unbroken
  exact value?_read_of_rows isHeader_interpreter trim_interpreter (by simp)
    (isAssignment_single setting unquoted) (by simp) split

theorem value?_read_single_other {text : String} (unbroken : '\n' ∉ text.toList)
    (unquoted : '"' ∉ text.toList) {other : Setting} (different : other ≠ setting) :
    (read (single setting text)).value? other = none := by
  have nothing : assignments other (rows (single setting text)) = [] := by
    refine assignmentsBelow_eq_nil_of_forall ?_ []
    rw [rows_single setting unbroken]
    simp only [List.mem_cons, List.not_mem_nil, or_false]
    rintro line (rfl | rfl) value assigns
    · exact assigns.not_header _ isHeader_interpreter
    · exact different (assigns.setting_unique (isAssignment_single setting unquoted))
  rw [value?_read, nothing]
  rfl

end Settings.File

theorem Setting.ofFile?_trim {setting : Setting} {text : String}
    (plain : setting = .tapeSize → '_' ∉ text.toList) :
    setting.ofFile? (Text.trim text.toList) = setting.ofVariable? text := by
  cases setting with
  | tapeSize =>
      have kept : (Text.trim text.toList).filter (· ≠ '_') = Text.trim text.toList := by
        rw [List.filter_eq_self]
        rintro character mem
        simp only [decide_eq_true_eq]
        rintro rfl
        exact plain rfl (Text.mem_of_mem_trim mem)
      rw [ofFile?, ofVariable?, Settings.File.readSize, kept]
  | eof => rw [ofFile?, ofVariable?, EofPolicy.ofText, EofPolicy.ofText, Text.trim_trim]

namespace Settings
open File

theorem resolve_single {setting : Setting} {text : String} (unbroken : '\n' ∉ text.toList)
    (unquoted : '"' ∉ text.toList) (plain : setting = .tapeSize → '_' ∉ text.toList) :
    resolve {} (Function.update (fun _ => none) setting.variableName (some text)) {} =
      resolve {} (fun _ => none) (read (single setting text)) := by
  refine Settings.ext_value fun other => ?_
  rw [value_resolve, value_resolve]
  have nothing : Layer.value? {} other = none := by cases other <;> rfl
  by_cases same : other = setting
  · subst same
    have line := (value?_read_single unbroken unquoted).trans (Setting.ofFile?_trim plain)
    rw [nothing, line, Function.update_self]
    simp
  · have line := value?_read_single_other unbroken unquoted same
    rw [nothing, line, Setting.update_of_ne same]

theorem read_written {size : Nat} {policy : EofPolicy}
    {digits name sizeLine policyLine header inner : List Char} {above : List (List Char)}
    {text : String} (spellsSize : Setting.tapeSize.Spells size digits)
    (spellsPolicy : Setting.eof.Spells policy name)
    (writtenSize : Written .tapeSize digits sizeLine) (writtenPolicy : Written .eof name policyLine)
    (heads : IsHeader header inner) (named : Text.trim inner = sectionName)
    (split : rows text = above ++ [header, sizeLine, policyLine] ∨
      rows text = above ++ [header, policyLine, sizeLine]) :
    read text = ⟨if size < 2 ^ 64 then some size else none, some policy⟩ := by
  have assigns := writtenSize.isAssignment spellsSize
  have assigns' := writtenPolicy.isAssignment spellsPolicy
  have both : (read text).value? .tapeSize = Setting.ofFile? .tapeSize digits ∧
      (read text).value? .eof = Setting.ofFile? .eof name := by
    rcases split with split | split
    · exact value?_read_of_two (by decide) heads named assigns assigns' split
    · exact (value?_read_of_two (by decide) heads named assigns' assigns split).symm
  rw [Setting.ofFile?_of_spellsSize spellsSize,
    Setting.ofFile?_of_spellsPolicy spellsPolicy] at both
  exact Layer.ext_value? fun setting => by
    cases setting
    · exact both.1
    · exact both.2

theorem resolve_spelled :
    (∀ (setting : Setting) (text : String), '\n' ∉ text.toList → '"' ∉ text.toList →
      (setting = .tapeSize → '_' ∉ text.toList) →
      resolve {} (Function.update (fun _ => none) setting.variableName (some text)) {} =
        resolve {} (fun _ => none) (read (single setting text))) ∧
    (∀ (size : Nat) (policy : EofPolicy) (digits name sizeLine policyLine : List Char),
      Setting.tapeSize.Spells size digits → Setting.eof.Spells policy name →
      Written .tapeSize digits sizeLine → Written .eof name policyLine →
      ∀ (text : String) (above : List (List Char)) (header inner : List Char),
        IsHeader header inner → Text.trim inner = sectionName →
        (rows text = above ++ [header, sizeLine, policyLine] ∨
          rows text = above ++ [header, policyLine, sizeLine]) →
        read text = ⟨if size < 2 ^ 64 then some size else none, some policy⟩ ∧
        (size < 2 ^ 64 → resolve {} (fun _ => none) (read text) = ⟨size, policy⟩)) ∧
    ∀ (flags file : Layer) (environment : String → Option String) (size : Nat) (text : String),
      2 ^ 64 ≤ size → Setting.tapeSize.Spells size (Text.trim text.toList) →
      resolve flags
          (Function.update environment Setting.tapeSize.variableName (some text)) file =
        resolve flags (Function.update environment Setting.tapeSize.variableName none) file := by
  refine ⟨fun setting text => resolve_single, ?_, ?_⟩
  · intro size policy digits name sizeLine policyLine spellsSize spellsPolicy writtenSize
      writtenPolicy text above header inner heads named split
    have isRead := read_written spellsSize spellsPolicy writtenSize writtenPolicy heads named split
    refine ⟨isRead, fun bound => ?_⟩
    rw [isRead, if_pos bound]
    rfl
  · intro flags file environment size text tooLarge spells
    exact resolve_of_unreadable (Setting.ofVariable?_of_spellsSize tooLarge spells) flags file
      environment

theorem resolve_spelled_largest :
    let text := "[ interpreter ]\n eof\t=\"uNCHANGED\"\ntape_size=0_18446744073709551615 \n"
    resolve {} (fun _ => none) (read text) = ⟨2 ^ 64 - 1, .unchanged⟩ := by
  intro text
  let digits := "0_18446744073709551615".toList
  let name := "uNCHANGED".toList
  have writtenSize : Written .tapeSize digits
      ([] ++ (Setting.tapeSize.key.toList ++ ([] ++ '=' :: ([] ++ (digits ++ [' ']))))) :=
    .bare blank_nil blank_nil blank_nil (blank_singleton rfl)
  have writtenPolicy : Written .eof name
      ([' '] ++ (Setting.eof.key.toList ++
        (['\t'] ++ '=' :: ([] ++ ('"' :: (name ++ ['"']) ++ []))))) :=
    .quoted (blank_singleton rfl) (blank_singleton rfl) blank_nil blank_nil
  have spellsSize : Setting.tapeSize.Spells (2 ^ 64 - 1 : Nat) digits := ⟨1, by decide +kernel⟩
  have spellsPolicy : Setting.eof.Spells EofPolicy.unchanged name := by
    unfold Setting.Spells
    decide +kernel
  have heads : IsHeader "[ interpreter ]".toList " interpreter ".toList := by
    unfold IsHeader
    decide +kernel
  exact (resolve_spelled.2.1 _ _ digits name _ _ spellsSize spellsPolicy writtenSize writtenPolicy
    text [] _ _ heads (by decide +kernel) (Or.inr (by decide +kernel))).2 (by decide)

end Settings
end Brainfuck
