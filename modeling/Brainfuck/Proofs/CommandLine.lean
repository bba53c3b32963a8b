import Brainfuck.Command
import Brainfuck.Proofs.SettingValues

namespace Brainfuck

def Setting.ofFlag? : (setting : Setting) → String → Option setting.Value
  | .tapeSize, text => (Text.readNumeral text.toList).toOption
  | .eof, text => (EofPolicy.ofText text.toList).toOption

namespace Command

inductive Form where
  | help
  | option (setting : Setting) (text : Option String)
  | plain
  | stop
  deriving DecidableEq

def Form.Spells : Form → String → Prop
  | .help, word => word = "-h" ∨ word = "--help"
  | .option setting none, word => word = setting.option
  | .option setting (some text), word =>
    word.toList = setting.option.toList ++ '=' :: text.toList
  | .plain, word => word.toList.head? ≠ some '-' ∨ word = "-"
  | .stop, word => word = "--"

instance : (form : Form) → (word : String) → Decidable (form.Spells word)
  | .help, word => inferInstanceAs (Decidable (word = "-h" ∨ word = "--help"))
  | .option setting none, word => inferInstanceAs (Decidable (word = setting.option))
  | .option setting (some text), word =>
    inferInstanceAs (Decidable (word.toList = setting.option.toList ++ '=' :: text.toList))
  | .plain, word => inferInstanceAs (Decidable (word.toList.head? ≠ some '-' ∨ word = "-"))
  | .stop, word => inferInstanceAs (Decidable (word = "--"))

inductive Mention where
  | help
  | setting (setting : Setting) (text : String)
  | path (path : String)
  deriving DecidableEq

/-- What the words of a line mention, in their order. An option has its value attached or takes the
next word; behind `--` there are only paths. -/
inductive Mentions : List String → List Mention → Prop where
  | nil : Mentions [] []
  | help {word : String} {words : List String} {mentions : List Mention}
      (spells : Form.help.Spells word) (later : Mentions words mentions) :
      Mentions (word :: words) (.help :: mentions)
  | attached {setting : Setting} {text word : String} {words : List String}
      {mentions : List Mention} (spells : (Form.option setting (some text)).Spells word)
      (later : Mentions words mentions) :
      Mentions (word :: words) (.setting setting text :: mentions)
  | separate {setting : Setting} {text word : String} {words : List String}
      {mentions : List Mention} (spells : (Form.option setting none).Spells word)
      (plain : Form.plain.Spells text) (later : Mentions words mentions) :
      Mentions (word :: text :: words) (.setting setting text :: mentions)
  | path {word : String} {words : List String} {mentions : List Mention}
      (spells : Form.plain.Spells word) (later : Mentions words mentions) :
      Mentions (word :: words) (.path word :: mentions)
  | stop {word : String} {paths : List String} (spells : Form.stop.Spells word) :
      Mentions (word :: paths) (paths.map .path)

inductive Mention.Kind where
  | help
  | setting (setting : Setting)
  | path
  deriving DecidableEq

def Mention.kind : Mention → Kind
  | .help => .help
  | .setting named _ => .setting named
  | .path _ => .path

/-- Nothing is said twice, and each value that is given can be read. -/
structure Reads (mentions : List Mention) (arguments : Arguments) : Prop where
  once : (mentions.map Mention.kind).Nodup
  help_iff : arguments.help = true ↔ .help ∈ mentions
  path_iff : ∀ path, arguments.path = some path ↔ .path path ∈ mentions
  given : ∀ setting text, .setting setting text ∈ mentions → ∃ value,
    setting.ofFlag? text = some value ∧ arguments.layer.value? setting = some value
  omitted : ∀ setting, (∀ text, .setting setting text ∉ mentions) →
    arguments.layer.value? setting = none

def Line (words : List String) (arguments : Arguments) : Prop :=
  ∃ mentions, Mentions words.tail mentions ∧ Reads mentions arguments

def Form.ofWord? (word : String) : Option Form :=
  if word = "-h" ∨ word = "--help" then some .help
  else if word = "--" then some .stop
  else if word.toList.head? ≠ some '-' ∨ word = "-" then some .plain
  else
    (Setting.all.find? fun setting =>
      setting.option.toList = word.toList.takeWhile (· ≠ '=')).map fun setting =>
        .option setting ((word.toList.dropWhile (· ≠ '=')).tail? |>.map String.ofList)

theorem Form.ofWord?_of_option {setting : Setting} {rest : List Char} {word : String}
    (begins : word.toList = setting.option.toList ++ rest) :
    ofWord? word =
      (Setting.all.find? fun setting =>
        setting.option.toList = word.toList.takeWhile (· ≠ '=')).map fun setting =>
          .option setting ((word.toList.dropWhile (· ≠ '=')).tail? |>.map String.ofList) := by
  have unhelped : ¬ (word = "-h" ∨ word = "--help") := by
    rintro (rfl | rfl) <;> cases setting <;> simp [Setting.option] at begins
  have unstopped : word ≠ "--" := by
    rintro rfl
    cases setting <;> simp [Setting.option] at begins
  have dashed : ¬ (word.toList.head? ≠ some '-' ∨ word = "-") := by
    rintro (head | rfl)
    · cases setting <;> simp [begins, Setting.option] at head
    · cases setting <;> simp [Setting.option] at begins
  rw [ofWord?, if_neg unhelped, if_neg unstopped, if_neg dashed]

theorem find?_option (setting : Setting) :
    (Setting.all.find? fun other => other.option.toList = setting.option.toList) =
      some setting := by
  cases setting <;> decide

theorem Form.Spells.ofWord?_eq {form : Form} {word : String} (spells : form.Spells word) :
    ofWord? word = some form := by
  match form, spells with
  | .help, spells => exact if_pos spells
  | .stop, spells =>
      obtain rfl : word = "--" := spells
      decide
  | .plain, spells =>
      have unhelped : ¬ (word = "-h" ∨ word = "--help") := by
        rintro (rfl | rfl) <;> exact absurd spells (by decide)
      have unstopped : word ≠ "--" := by
        rintro rfl
        exact absurd spells (by decide)
      exact (if_neg unhelped).trans ((if_neg unstopped).trans (if_pos spells))
  | .option setting none, spells =>
      obtain rfl : word = setting.option := spells
      cases setting <;> decide
  | .option setting (some text), spells =>
      have spells : word.toList = setting.option.toList ++ '=' :: text.toList := spells
      have letters : ∀ character ∈ setting.option.toList, decide (character ≠ '=') = true := by
        cases setting <;> simp [Setting.option]
      rw [ofWord?_of_option spells, spells, List.takeWhile_append_of_pos letters,
        List.dropWhile_append_of_pos letters, List.takeWhile_cons_of_neg (by simp),
        List.dropWhile_cons_of_neg (by simp), List.append_nil, find?_option]
      simp

theorem Form.Spells.unique {form other : Form} {word : String} (spells : form.Spells word)
    (spells' : other.Spells word) : form = other :=
  Option.some.inj (spells.ofWord?_eq.symm.trans spells'.ofWord?_eq)

theorem Mentions.unique {words : List String} {mentions others : List Mention}
    (line : Mentions words mentions) (line' : Mentions words others) : mentions = others := by
  induction line generalizing others with
  | nil =>
      cases line'
      rfl
  | help spells later ih =>
      cases line' with
      | help _ later' => rw [ih later']
      | attached spells' | separate spells' | path spells' | stop spells' =>
          cases spells.unique spells'
  | attached spells later ih =>
      cases line' with
      | attached spells' later' =>
          cases spells.unique spells'
          rw [ih later']
      | help spells' | separate spells' | path spells' | stop spells' =>
          cases spells.unique spells'
  | separate spells plain later ih =>
      cases line' with
      | separate spells' plain' later' =>
          cases spells.unique spells'
          rw [ih later']
      | help spells' | attached spells' | path spells' | stop spells' =>
          cases spells.unique spells'
  | path spells later ih =>
      cases line' with
      | path spells' later' => rw [ih later']
      | help spells' | attached spells' | separate spells' | stop spells' =>
          cases spells.unique spells'
  | stop spells =>
      cases line' with
      | stop spells' => rfl
      | help spells' | attached spells' | separate spells' | path spells' =>
          cases spells.unique spells'

theorem Reads.value?_unique {mentions : List Mention} {arguments others : Arguments}
    (reads : Reads mentions arguments) (reads' : Reads mentions others) (setting : Setting) :
    arguments.layer.value? setting = others.layer.value? setting := by
  by_cases given : ∃ text, .setting setting text ∈ mentions
  · obtain ⟨text, mentioned⟩ := given
    obtain ⟨value, read, holds⟩ := reads.given setting text mentioned
    obtain ⟨value', read', holds'⟩ := reads'.given setting text mentioned
    rw [holds, holds', ← read, ← read']
  · have omitted : ∀ text, .setting setting text ∉ mentions :=
      fun text mentioned => given ⟨text, mentioned⟩
    rw [reads.omitted setting omitted, reads'.omitted setting omitted]

theorem Reads.unique {mentions : List Mention} {arguments others : Arguments}
    (reads : Reads mentions arguments) (reads' : Reads mentions others) : arguments = others := by
  have help : arguments.help = others.help :=
    Bool.eq_iff_iff.mpr (reads.help_iff.trans reads'.help_iff.symm)
  have path : arguments.path = others.path :=
    Option.ext fun path => (reads.path_iff path).trans (reads'.path_iff path).symm
  have size := reads.value?_unique reads' .tapeSize
  have policy := reads.value?_unique reads' .eof
  obtain ⟨_, _, _, _⟩ := arguments
  obtain ⟨_, _, _, _⟩ := others
  simp only [Layer.value?, Arguments.layer] at size policy
  simp_all

theorem Line.unique {words : List String} {arguments others : Arguments}
    (line : Line words arguments) (line' : Line words others) : arguments = others := by
  obtain ⟨mentions, mentioned, reads⟩ := line
  obtain ⟨mentions', mentioned', reads'⟩ := line'
  obtain rfl := mentioned.unique mentioned'
  exact reads.unique reads'

end Command
end Brainfuck
