namespace Brainfuck.Text

inductive NumeralError where
  | empty
  | invalidDigit
  | tooLarge
  deriving DecidableEq

def sizeLimit : Nat := UInt64.size

def digit? (character : Char) : Option Nat :=
  if character.isDigit then some (character.toNat - '0'.toNat) else none

/-- Appends digits to a number. The first character that is no digit, or that takes the number
to the limit, decides the error. -/
def readDigits (number : Nat) : List Char → Except NumeralError Nat
  | [] => .ok number
  | character :: rest =>
    match digit? character with
    | none => .error .invalidDigit
    | some digit =>
      if 10 * number + digit < sizeLimit then readDigits (10 * number + digit) rest
      else .error .tooLarge

def readNumeral : List Char → Except NumeralError Nat
  | [] => .error .empty
  | ['+'] => .error .invalidDigit
  | '+' :: digits => readDigits 0 digits
  | digits => readDigits 0 digits

end Brainfuck.Text
