import Brainfuck.Settings.File
import Mathlib.Algebra.Group.Nat.Defs
import Mathlib.Logic.Function.Basic

namespace Brainfuck

namespace Text

def IsNumeral (text : List Char) (number : Nat) : Prop :=
  ∃ digits, (text = digits ∨ text = '+' :: digits) ∧ digits ≠ [] ∧
    (∀ character ∈ digits, character.isDigit) ∧ Nat.ofDigitChars 10 digits 0 = number ∧
    number < 2 ^ 64

theorem le_ofDigitChars (digits : List Char) (number : Nat) :
    number ≤ Nat.ofDigitChars 10 digits number := by
  induction digits generalizing number with
  | nil => exact Nat.le_refl number
  | cons character rest ih =>
      rw [Nat.ofDigitChars_cons]
      exact Nat.le_trans (by omega) (ih _)

theorem readDigits_eq_ok_iff {digits : List Char} {start number : Nat} (bound : start < 2 ^ 64) :
    readDigits start digits = .ok number ↔
      (∀ character ∈ digits, character.isDigit) ∧ Nat.ofDigitChars 10 digits start = number ∧
        number < 2 ^ 64 := by
  have limit : sizeLimit = 2 ^ 64 := rfl
  induction digits generalizing start with
  | nil =>
      rw [readDigits, Except.ok.injEq, Nat.ofDigitChars_nil]
      constructor
      · rintro rfl
        exact ⟨by simp, rfl, bound⟩
      · exact fun ⟨_, same, _⟩ => same
  | cons character rest ih =>
      rw [readDigits, Nat.ofDigitChars_cons, List.forall_mem_cons]
      by_cases isDigit : character.isDigit
      · simp only [digit?, isDigit, if_true, true_and, limit]
        split
        · next fits => exact ih fits
        · next tooLarge =>
            -- More digits do not make the number smaller.
            have grown := le_ofDigitChars rest (10 * start + (character.toNat - '0'.toNat))
            simp only [reduceCtorEq, false_iff]
            omega
      · simp [digit?, isDigit]

theorem readNumeral_eq_ok_iff {text : List Char} {number : Nat} :
    readNumeral text = .ok number ↔ IsNumeral text number := by
  have positive : 0 < 2 ^ 64 := Nat.two_pow_pos 64
  have sign : '+'.isDigit = false := rfl
  unfold readNumeral
  split
  · simp [IsNumeral]
  · simp [IsNumeral, sign]
  · next digits signOnly =>
      have nonempty : digits ≠ [] := fun empty => signOnly (by rw [empty])
      rw [readDigits_eq_ok_iff positive]
      constructor
      · exact fun reads => ⟨digits, Or.inr rfl, nonempty, reads⟩
      · rintro ⟨_, rfl | same, -, reads⟩
        · simp [sign] at reads
        · rwa [(List.cons.inj same).2]
  · next nonempty _ unsigned =>
      rw [readDigits_eq_ok_iff positive]
      constructor
      · exact fun reads => ⟨text, Or.inl rfl, nonempty, reads⟩
      · rintro ⟨digits, rfl | rfl, -, reads⟩
        · exact reads
        · exact absurd rfl (unsigned digits)

end Text

abbrev Setting.Value : Setting → Type
  | .tapeSize => Nat
  | .eof => EofPolicy

def Setting.default : (setting : Setting) → setting.Value
  | .tapeSize => defaultTapeSize
  | .eof => .zero

def Layer.value? (layer : Layer) : (setting : Setting) → Option setting.Value
  | .tapeSize => layer.tapeSize
  | .eof => layer.eof

def Settings.value (settings : Settings) : (setting : Setting) → setting.Value
  | .tapeSize => settings.tapeSize
  | .eof => settings.eof

def Setting.ofVariable? : (setting : Setting) → String → Option setting.Value
  | .tapeSize, text => (Text.readNumeral (Text.trim text.toList)).toOption
  | .eof, text => (EofPolicy.ofText text.toList).toOption

def Setting.ofFile? : (setting : Setting) → List Char → Option setting.Value
  | .tapeSize, value => (Settings.File.readSize value).toOption
  | .eof, value => (EofPolicy.ofText value).toOption

theorem Layer.ext_value? {first second : Layer}
    (same : ∀ setting, first.value? setting = second.value? setting) : first = second := by
  cases first
  cases second
  rw [Layer.mk.injEq]
  exact ⟨same .tapeSize, same .eof⟩

theorem Settings.ext_value {first second : Settings}
    (same : ∀ setting, first.value setting = second.value setting) : first = second := by
  cases first
  cases second
  rw [Settings.mk.injEq]
  exact ⟨same .tapeSize, same .eof⟩

theorem Layer.value?_above (upper lower : Layer) (setting : Setting) :
    (upper.above lower).value? setting = (upper.value? setting).or (lower.value? setting) := by
  cases setting <;> rfl

theorem Layer.value_settings (layer : Layer) (setting : Setting) :
    layer.settings.value setting = (layer.value? setting).getD setting.default := by
  cases setting <;> rfl

theorem Layer.value?_ofEnvironment (environment : String → Option String) (setting : Setting) :
    (ofEnvironment environment).value? setting =
      (environment setting.variableName).bind setting.ofVariable? := by
  cases setting <;> rfl

theorem Settings.value_resolve (flags : Layer) (environment : String → Option String)
    (file : Layer) (setting : Setting) :
    (resolve flags environment file).value setting =
      (((flags.value? setting).or ((environment setting.variableName).bind
        setting.ofVariable?)).or (file.value? setting)).getD setting.default := by
  rw [resolve, Layer.value_settings, Layer.value?_above, Layer.value?_above,
    Layer.value?_ofEnvironment]

theorem Setting.variableName_injective {first second : Setting}
    (same : first.variableName = second.variableName) : first = second := by
  cases first <;> cases second <;> simp_all [variableName]

theorem Setting.update_of_ne {setting other : Setting} (different : other ≠ setting)
    (environment : String → Option String) (text : Option String) :
    Function.update environment setting.variableName text other.variableName =
      environment other.variableName :=
  Function.update_of_ne (fun same => different (variableName_injective same)) _ _

theorem Settings.resolve_of_unreadable {setting : Setting} {text : String}
    (unreadable : setting.ofVariable? text = none) (flags file : Layer)
    (environment : String → Option String) :
    resolve flags (Function.update environment setting.variableName (some text)) file =
      resolve flags (Function.update environment setting.variableName none) file := by
  refine Settings.ext_value fun other => ?_
  rw [value_resolve, value_resolve]
  by_cases same : other = setting
  · subst same
    rw [Function.update_self, Function.update_self, Option.bind_some, unreadable,
      Option.bind_none]
  · rw [Setting.update_of_ne same, Setting.update_of_ne same]

theorem toOption_eq_some_iff {Error Value : Type} {result : Except Error Value} {value : Value} :
    result.toOption = some value ↔ result = .ok value := by
  cases result <;> simp [Except.toOption]

theorem Setting.ofFile?_tapeSize_eq_some_iff {value : List Char} {size : Nat} :
    ofFile? .tapeSize value = some size ↔ Text.IsNumeral (value.filter (· ≠ '_')) size :=
  toOption_eq_some_iff.trans Text.readNumeral_eq_ok_iff

end Brainfuck
