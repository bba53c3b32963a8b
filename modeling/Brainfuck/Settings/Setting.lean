namespace Brainfuck

inductive Setting where
  | tapeSize
  | eof
  deriving DecidableEq, Inhabited

namespace Setting

def all : List Setting := [.tapeSize, .eof]

def option : Setting → String
  | .tapeSize => "--tape-size"
  | .eof => "--eof"

def variableName : Setting → String
  | .tapeSize => "BF_TAPE_SIZE"
  | .eof => "BF_EOF"

def key : Setting → String
  | .tapeSize => "tape_size"
  | .eof => "eof"

theorem key_injective {left right : Setting} (h : left.key = right.key) : left = right := by
  cases left <;> cases right <;> simp_all [key]

end Setting
end Brainfuck
