import Brainfuck.Proofs.SettingsLine
import Mathlib.Data.List.Induction

/-!
Reading line by line keeps, for each setting, the value of the last assignment so far
(`Draft.Follows.values_foldl`), and so the value that the whole text gives it (`value?_read`).
-/

namespace Brainfuck.Settings.File

/-- Of the lines `above`, the last header names the section of the settings. -/
def InSection (above : List (List Char)) : Prop :=
  ∃ front line inner rest, above = front ++ line :: rest ∧ IsHeader line inner ∧
    Text.trim inner = sectionName ∧ ∀ other ∈ rest, ∀ inner, ¬ IsHeader other inner

theorem not_inSection_nil : ¬ InSection [] := by
  rintro ⟨front, line, inner, rest, same, -⟩
  simp at same

theorem inSection_concat_iff {above : List (List Char)} {line : List Char} :
    InSection (above ++ [line]) ↔
      (∃ inner, IsHeader line inner ∧ Text.trim inner = sectionName) ∨
        (∀ inner, ¬ IsHeader line inner) ∧ InSection above := by
  constructor
  · rintro ⟨front, header, inner, rest, same, heads, named, headless⟩
    rcases List.eq_nil_or_concat rest with rfl | ⟨rest, last, rfl⟩
    · obtain ⟨-, rfl⟩ := List.concat_inj.mp (by simpa using same)
      exact Or.inl ⟨inner, heads, named⟩
    · rw [List.concat_eq_append] at same headless
      rw [← List.cons_append, ← List.append_assoc] at same
      obtain ⟨rfl, rfl⟩ := List.append_singleton_inj.mp same
      refine Or.inr ⟨headless line (by simp), front, header, inner, rest, rfl, heads, named, ?_⟩
      exact fun other mem => headless other (by simp [mem])
  · rintro (⟨inner, heads, named⟩ |
      ⟨unheaded, front, header, inner, rest, rfl, heads, named, headless⟩)
    · exact ⟨above, line, inner, [], rfl, heads, named, by simp⟩
    · refine ⟨front, header, inner, rest ++ [line], by simp, heads, named, ?_⟩
      intro other mem
      rcases List.mem_append.mp mem with mem | mem
      · exact headless other mem
      · rwa [List.mem_singleton.mp mem]

/-- The line, with the lines `above` above it, assigns the value to the setting. -/
def Assigns (above : List (List Char)) (line : List Char) (setting : Setting)
    (value : List Char) : Prop :=
  InSection above ∧ IsAssignment line setting.key.toList value

inductive Reading (line : List Char) (draft : Draft) : Draft → Prop where
  | header {inner : List Char} (heads : IsHeader line inner) :
      Reading line draft { draft with inSection := Text.trim inner = sectionName }
  | assignment {setting : Setting} {value : List Char} (inSection : draft.inSection = true)
      (assigns : IsAssignment line setting.key.toList value) :
      Reading line draft (draft.assign setting value)
  | nothing (unheaded : ∀ inner, ¬ IsHeader line inner)
      (unassigned : draft.inSection = true →
        ∀ (setting : Setting) value, ¬ IsAssignment line setting.key.toList value) :
      Reading line draft draft

theorem reading_readLine (line : List Char) (draft : Draft) :
    Reading line draft (draft.readLine line) := by
  unfold Draft.readLine
  split
  · next name read =>
      obtain ⟨inner, heads, rfl⟩ := Line.ofText_eq_header_iff.mp read
      exact .header heads
  · next key value read =>
      have assigns := Line.ofText_eq_assignment_iff.mp read
      split
      · next setting inSection found =>
          rw [← setting?_eq_some_iff.mp found] at assigns
          exact .assignment inSection assigns
      · next unset =>
          refine .nothing assigns.not_header fun inSection setting value' assigns' => ?_
          have same := Line.ofText_eq_assignment_iff.mpr assigns'
          rw [read, Line.assignment.injEq] at same
          exact unset setting inSection (setting?_eq_some_iff.mpr same.1.symm)
  · next read =>
      refine .nothing (fun inner heads => ?_) fun _ setting value assigns => ?_
      · rw [Line.ofText_eq_header_iff.mpr ⟨inner, heads, rfl⟩] at read
        simp at read
      · rw [Line.ofText_eq_assignment_iff.mpr assigns] at read
        simp at read

namespace Draft

def Follows (draft : Draft) (above : List (List Char)) : Prop :=
  draft.inSection = true ↔ InSection above

theorem follows_start : Follows {} [] := by simp [Follows, not_inSection_nil]

theorem Follows.readLine {draft : Draft} {above : List (List Char)} (follows : draft.Follows above)
    (line : List Char) : (draft.readLine line).Follows (above ++ [line]) := by
  have read := reading_readLine line draft
  generalize draft.readLine line = after at read ⊢
  unfold Follows at follows ⊢
  rw [inSection_concat_iff, ← follows]
  cases read with
  | header heads =>
      simp only [decide_eq_true_eq]
      constructor
      · exact fun named => Or.inl ⟨_, heads, named⟩
      · rintro (⟨inner, heads', named⟩ | ⟨unheaded, -⟩)
        · rwa [heads.unique heads']
        · exact absurd heads (unheaded _)
  | assignment inSection assigns =>
      exact iff_of_true inSection (Or.inr ⟨assigns.not_header, inSection⟩)
  | nothing unheaded unassigned => simp [unheaded]

theorem Follows.foldl {draft : Draft} {above : List (List Char)} (follows : draft.Follows above)
    (below : List (List Char)) : (below.foldl Draft.readLine draft).Follows (above ++ below) := by
  induction below generalizing draft above with
  | nil => simpa using follows
  | cons line below ih => simpa using ih (follows.readLine line)

end Draft

instance (above : List (List Char)) : Decidable (InSection above) :=
  decidable_of_iff _ (Draft.follows_start.foldl above)

def assigned? (above : List (List Char)) (line : List Char) (setting : Setting) :
    Option (List Char) :=
  match Line.ofText line with
  | .assignment key value =>
    if InSection above ∧ key = setting.key.toList then some value else none
  | _ => none

variable {above below : List (List Char)} {line : List Char} {setting : Setting}

theorem assigned?_eq_some_iff {value : List Char} :
    assigned? above line setting = some value ↔ Assigns above line setting value := by
  unfold assigned? Assigns
  rw [← Line.ofText_eq_assignment_iff]
  split
  · next key value' read =>
      simp only [read, Option.ite_none_right_eq_some, Option.some.injEq, Line.assignment.injEq]
      exact and_assoc
  · next unassigned =>
      simp only [reduceCtorEq, false_iff, not_and]
      exact fun _ read => unassigned _ _ read

theorem assigned?_eq_none_iff :
    assigned? above line setting = none ↔ ∀ value, ¬ Assigns above line setting value := by
  rw [Option.eq_none_iff_forall_ne_some]
  exact forall_congr' fun value => not_congr assigned?_eq_some_iff

theorem Draft.Follows.values_readLine {draft : Draft} (follows : draft.Follows above)
    (line : List Char) (setting : Setting) :
    (draft.readLine line).values setting =
      (assigned? above line setting).or (draft.values setting) := by
  have read := reading_readLine line draft
  generalize draft.readLine line = after at read ⊢
  cases read with
  | header heads =>
      rw [assigned?_eq_none_iff.mpr fun value assigns => assigns.2.not_header _ heads]
      rfl
  | @assignment other value inSection assigns =>
      by_cases same : setting = other
      · subst same
        rw [assigned?_eq_some_iff.mpr ⟨follows.mp inSection, assigns⟩]
        simp [Draft.assign]
      · have unassigned : assigned? above line setting = none :=
          assigned?_eq_none_iff.mpr fun value' assigns' =>
            same (assigns'.2.setting_unique assigns)
        simp [Draft.assign, same, unassigned]
  | nothing unheaded unassigned =>
      rw [assigned?_eq_none_iff.mpr fun value assigns =>
        unassigned (follows.mpr assigns.1) _ _ assigns.2]
      rfl

/-- The values assigned to a setting by lines with the lines `above` above them, in order. -/
def assignmentsBelow (setting : Setting) (above : List (List Char)) :
    List (List Char) → List (List Char)
  | [] => []
  | line :: rest =>
    (assigned? above line setting).toList ++ assignmentsBelow setting (above ++ [line]) rest

def assignments (setting : Setting) (lines : List (List Char)) : List (List Char) :=
  assignmentsBelow setting [] lines

theorem assignmentsBelow_append (setting : Setting) (above front back : List (List Char)) :
    assignmentsBelow setting above (front ++ back) =
      assignmentsBelow setting above front ++ assignmentsBelow setting (above ++ front) back := by
  induction front generalizing above with
  | nil => simp [assignmentsBelow]
  | cons line front ih => simp [assignmentsBelow, ih]

theorem assignmentsBelow_congr {above' : List (List Char)}
    (same : InSection above ↔ InSection above') (setting : Setting) (below : List (List Char)) :
    assignmentsBelow setting above below = assignmentsBelow setting above' below := by
  induction below generalizing above above' with
  | nil => rfl
  | cons line below ih =>
      have same' : InSection (above ++ [line]) ↔ InSection (above' ++ [line]) := by
        rw [inSection_concat_iff, inSection_concat_iff, same]
      simp only [assignmentsBelow, assigned?, same, ih same']

theorem assignments_append (setting : Setting) (above below : List (List Char)) :
    assignments setting (above ++ below) =
      assignments setting above ++ assignmentsBelow setting above below := by
  rw [assignments, assignmentsBelow_append, List.nil_append, assignments]

theorem assignmentsBelow_concat (unheaded : ∀ inner, ¬ IsHeader line inner) (setting : Setting)
    (above below : List (List Char)) :
    assignmentsBelow setting (above ++ [line]) below = assignmentsBelow setting above below := by
  refine assignmentsBelow_congr ?_ setting below
  rw [inSection_concat_iff]
  simp [unheaded]

theorem assignments_insert (unheaded : ∀ inner, ¬ IsHeader line inner) (setting : Setting)
    (above below : List (List Char)) :
    assignments setting (above ++ line :: below) =
      assignments setting above ++ (assigned? above line setting).toList ++
        assignmentsBelow setting above below := by
  rw [assignments_append, assignmentsBelow, assignmentsBelow_concat unheaded, List.append_assoc]

theorem Draft.Follows.values_foldl {draft : Draft} (follows : draft.Follows above)
    (below : List (List Char)) (setting : Setting) :
    (below.foldl Draft.readLine draft).values setting =
      (assignmentsBelow setting above below).getLast?.or (draft.values setting) := by
  -- The draft has to be in the section at each line just as the lines above that line are.
  induction below generalizing draft above with
  | nil => rfl
  | cons line below ih =>
      rw [List.foldl_cons, ih (follows.readLine line), follows.values_readLine,
        assignmentsBelow, List.getLast?_append]
      cases assigned? above line setting <;> simp

/-- The lines of a text. A line break at its end begins no further line. -/
def rows (text : String) : List (List Char) :=
  if (lines text.toList).getLast? = some [] then (lines text.toList).dropLast
  else lines text.toList

theorem Draft.ofText_eq (text : String) :
    ofText text.toList = (rows text).foldl readLine {} := by
  unfold ofText rows
  split
  · next last =>
      obtain ⟨front, same⟩ := List.getLast?_eq_some_iff.mp last
      rw [same, List.dropLast_concat, List.foldl_append]
      rfl
  · rfl

theorem value?_read (text : String) (setting : Setting) :
    (read text).value? setting =
      (assignments setting (rows text)).getLast?.bind setting.ofFile? := by
  have counts : (Draft.ofText text.toList).values setting =
      (assignments setting (rows text)).getLast? := by
    rw [Draft.ofText_eq, Draft.follows_start.values_foldl]
    exact Option.or_none
  rw [← counts]
  cases setting <;> rfl

variable {front back : List (List Char)} {header inner : List Char}

theorem assignmentsBelow_eq_nil_of_forall
    (unassigned : ∀ line ∈ back, ∀ value, ¬ IsAssignment line setting.key.toList value)
    (above : List (List Char)) : assignmentsBelow setting above back = [] := by
  induction back generalizing above with
  | nil => rfl
  | cons line back ih =>
      have absent : assigned? above line setting = none := by
        refine assigned?_eq_none_iff.mpr fun value assigns => ?_
        exact unassigned line List.mem_cons_self value assigns.2
      rw [assignmentsBelow, absent,
        ih fun other mem => unassigned other (List.mem_cons_of_mem line mem)]
      rfl

theorem value?_read_of_rows {text : String} {value : List Char} (heads : IsHeader header inner)
    (named : Text.trim inner = sectionName)
    (headless : ∀ other ∈ front, ∀ inner, ¬ IsHeader other inner)
    (assigns : IsAssignment line setting.key.toList value)
    (unassigned : ∀ other ∈ back, ∀ value, ¬ IsAssignment other setting.key.toList value)
    (split : rows text = (above ++ header :: front) ++ line :: back) :
    (read text).value? setting = setting.ofFile? value := by
  have inSection : InSection (above ++ header :: front) :=
    ⟨above, header, inner, front, rfl, heads, named, headless⟩
  rw [value?_read, split, assignments_insert assigns.not_header,
    assigned?_eq_some_iff.mpr ⟨inSection, assigns⟩,
    assignmentsBelow_eq_nil_of_forall unassigned]
  simp

theorem value?_read_of_two {text : String} {first second value value' : List Char}
    {setting' : Setting} (different : setting ≠ setting') (heads : IsHeader header inner)
    (named : Text.trim inner = sectionName)
    (assigns : IsAssignment first setting.key.toList value)
    (assigns' : IsAssignment second setting'.key.toList value')
    (split : rows text = above ++ [header, first, second]) :
    (read text).value? setting = setting.ofFile? value ∧
      (read text).value? setting' = setting'.ofFile? value' := by
  constructor
  · have unassigned : ∀ other ∈ [second], ∀ value,
        ¬ IsAssignment other setting.key.toList value := by
      intro other mem value assigns''
      rw [List.mem_singleton.mp mem] at assigns''
      exact different (assigns''.setting_unique assigns')
    have split' : rows text = (above ++ [header]) ++ first :: [second] := by simp [split]
    exact value?_read_of_rows heads named (by simp) assigns unassigned split'
  · have headless : ∀ other ∈ [first], ∀ inner, ¬ IsHeader other inner := by
      intro other mem
      rw [List.mem_singleton.mp mem]
      exact assigns.not_header
    have split' : rows text = (above ++ [header, first]) ++ second :: [] := by simp [split]
    exact value?_read_of_rows heads named headless assigns' (by simp) split'

end Brainfuck.Settings.File
