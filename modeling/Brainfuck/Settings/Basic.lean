import Brainfuck.EofPolicy
import Brainfuck.Machine.Run
import Brainfuck.Settings.Setting
import Brainfuck.Text.Numeral

namespace Brainfuck

structure Settings where
  tapeSize : Nat := defaultTapeSize
  eof : EofPolicy := .zero
  deriving DecidableEq, Inhabited

structure Layer where
  tapeSize : Option Nat := none
  eof : Option EofPolicy := none
  deriving DecidableEq, Inhabited

namespace Layer

def above (upper lower : Layer) : Layer :=
  ⟨upper.tapeSize.or lower.tapeSize, upper.eof.or lower.eof⟩

def settings (layer : Layer) : Settings :=
  ⟨layer.tapeSize.getD defaultTapeSize, layer.eof.getD .zero⟩

/-- A value that cannot be read counts as not set. -/
def ofEnvironment (environment : String → Option String) : Layer where
  tapeSize := (environment Setting.tapeSize.variableName).bind fun text =>
    (Text.readNumeral (Text.trim text.toList)).toOption
  eof := (environment Setting.eof.variableName).bind fun text =>
    (EofPolicy.ofText text.toList).toOption

end Layer

namespace Settings

def resolve (flags : Layer) (environment : String → Option String) (file : Layer) : Settings :=
  ((flags.above (.ofEnvironment environment)).above file).settings

def overridden (settings : Settings) : Bool := settings.tapeSize ≠ defaultTapeSize

def interpreter (settings : Settings) : Interpreter := ⟨settings.tapeSize, settings.eof⟩

def records (settings : Settings) : List Record :=
  (if settings.overridden then
    [⟨.debug, .config,
      s!"tape size {settings.tapeSize} overrides the default of {defaultTapeSize} cells"⟩]
  else []) ++
  [⟨.debug, .config,
    s!"resolved settings: tape_size={settings.tapeSize} eof={settings.eof.name}"⟩]

end Settings
end Brainfuck
