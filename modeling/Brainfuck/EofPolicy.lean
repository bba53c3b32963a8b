import Brainfuck.Text.Blank

namespace Brainfuck

inductive EofPolicy where
  | zero
  | unchanged
  | max
  deriving DecidableEq

namespace EofPolicy

instance : Inhabited EofPolicy := ⟨.zero⟩

def name : EofPolicy → String
  | .zero => "zero"
  | .unchanged => "unchanged"
  | .max => "max"

def fill (policy : EofPolicy) (cell : UInt8) : UInt8 :=
  match policy with
  | .zero => 0
  | .unchanged => cell
  | .max => 255

structure Unknown where
  text : String
  deriving DecidableEq

def Unknown.message (unknown : Unknown) : String :=
  s!"unknown EOF policy '{unknown.text}' (expected zero, unchanged or max)"

def ofText (text : List Char) : Except Unknown EofPolicy :=
  match String.ofList ((Text.trim text).map Char.toLower) with
  | "zero" | "0" => .ok .zero
  | "unchanged" | "keep" => .ok .unchanged
  | "max" | "255" => .ok .max
  | other => .error ⟨other⟩

end EofPolicy
end Brainfuck
