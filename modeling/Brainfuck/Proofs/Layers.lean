import Brainfuck.Proofs.Assignments

namespace Brainfuck.Settings
open File

variable {flags flags' file : Layer} {environment environment' : String → Option String}
  {setting : Setting} {value : setting.Value}

theorem value_resolve_of_flag (given : flags.value? setting = some value)
    (environment : String → Option String) (file : Layer) :
    (resolve flags environment file).value setting = value := by
  rw [value_resolve, given]
  rfl

theorem value_resolve_of_variable {text : String} (open_ : flags.value? setting = none)
    (set : environment setting.variableName = some text)
    (reads : setting.ofVariable? text = some value) (file : Layer) :
    (resolve flags environment file).value setting = value := by
  rw [value_resolve, open_, set, Option.bind_some, reads]
  rfl

theorem value_resolve_congr {text text' : String}
    (sameFlag : flags.value? setting = flags'.value? setting)
    (sameVariable : environment setting.variableName = environment' setting.variableName)
    (sameLines : assignments setting (rows text) = assignments setting (rows text')) :
    (resolve flags environment (read text)).value setting =
      (resolve flags' environment' (read text')).value setting := by
  rw [value_resolve, value_resolve, value?_read, value?_read, sameFlag, sameVariable, sameLines]

theorem resolve_layers (setting : Setting) :
    (∀ (flags flags' : Layer) (environment environment' : String → Option String)
      (text text' : String), flags.value? setting = flags'.value? setting →
      environment setting.variableName = environment' setting.variableName →
      assignments setting (rows text) = assignments setting (rows text') →
      (resolve flags environment (read text)).value setting =
        (resolve flags' environment' (read text')).value setting) ∧
    (∀ (flags : Layer) (value : setting.Value), flags.value? setting = some value →
      ∀ (environment : String → Option String) (file : Layer),
        (resolve flags environment file).value setting = value) ∧
    (∀ (flags : Layer) (environment : String → Option String) (text : String)
      (value : setting.Value), flags.value? setting = none →
      environment setting.variableName = some text → setting.ofVariable? text = some value →
      ∀ file : Layer, (resolve flags environment file).value setting = value) ∧
    (∀ (flags file : Layer) (environment : String → Option String) (text : String),
      setting.ofVariable? text = none →
      resolve flags (Function.update environment setting.variableName (some text)) file =
        resolve flags (Function.update environment setting.variableName none) file) ∧
    ∀ settings : Settings,
      settings.interpreter = ⟨settings.value .tapeSize, settings.value .eof⟩ := by
  refine ⟨fun flags flags' environment environment' text text' => value_resolve_congr,
    fun flags value => value_resolve_of_flag,
    fun flags environment text value => value_resolve_of_variable,
    fun flags file environment text unreadable => ?_, fun settings => rfl⟩
  exact resolve_of_unreadable unreadable flags file environment

theorem resolve_layers_overlaid :
    let flags : Layer := ⟨some 7, none⟩
    let environment := fun name => if name = "BF_EOF" then some "Max" else none
    let text := "[interpreter]\ntape_size = 8\neof = never\neof = unchanged\n"
    let text' := "[interpreter]\neof = never\n[other]\neof = max\n[interpreter]\neof = unchanged"
    resolve flags environment (read text) = ⟨7, .max⟩ ∧
      (resolve {} (fun _ => none) (read text)).value .eof =
        (resolve flags (fun _ => none) (read text')).value .eof ∧
      resolve flags (Function.update environment "BF_EOF" (some "never")) (read text) =
        resolve flags (Function.update environment "BF_EOF" none) (read text) := by
  intro flags environment text text'
  obtain ⟨-, byFlag, -⟩ := resolve_layers .tapeSize
  obtain ⟨alone, -, byVariable, unreadable, -⟩ := resolve_layers .eof
  have size : (resolve flags environment (read text)).value .tapeSize = 7 :=
    byFlag flags 7 rfl environment (read text)
  have policy : (resolve flags environment (read text)).value .eof = .max :=
    byVariable flags environment "Max" .max rfl rfl (by decide +kernel) (read text)
  refine ⟨Settings.ext_value fun setting => ?_, ?_, ?_⟩
  · cases setting
    · exact size
    · exact policy
  · exact alone {} flags _ _ text text' rfl rfl (by decide +kernel)
  · exact unreadable flags (read text) environment "never" (by decide +kernel)

end Brainfuck.Settings
