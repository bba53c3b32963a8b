import Brainfuck.Program.Load
import Brainfuck.Machine.Basic

namespace Brainfuck.Diagnostic

def reach : Nat := 32

/-- A byte as it is shown. Each takes one column, so that the caret stays aligned. -/
def mask (byte : UInt8) : Char :=
  if 32 ≤ byte ∧ byte ≤ 126 then Char.ofUInt8 byte
  else if byte = 9 ∨ byte = 10 ∨ byte = 13 then ' '
  else '?'

def windowEnd (source : List UInt8) (offset : Nat) : Nat := min (offset + reach + 1) source.length

def windowStart (source : List UInt8) (offset : Nat) : Nat :=
  min (offset - reach) (windowEnd source offset)

def excerpt (source : List UInt8) (offset : Nat) : List Char :=
  ((source.take (windowEnd source offset)).drop (windowStart source offset)).map mask

def caret (source : List UInt8) (offset : Nat) : List Char :=
  List.replicate (offset - windowStart source offset) ' ' ++ ['^']

def sum? (left right : Nat) : Option Nat :=
  if left + right < UInt64.size then some (left + right) else none

def slice? (source : List UInt8) (start stop : Nat) : Option (List UInt8) :=
  if start ≤ stop ∧ stop ≤ source.length then some ((source.take stop).drop start) else none

def mark? (column : Nat) : Option (List Char) :=
  if column < capacity then some (List.replicate column ' ' ++ ['^']) else none

/-- The excerpt and the line below it, unless an operation on the way to them fails. -/
def window? (source : List UInt8) (offset : Nat) : Option (List Char × List Char) := do
  let last ← sum? offset reach
  let behind ← sum? last 1
  let stop := min behind source.length
  let start := min (offset - reach) stop
  let bytes ← slice? source start stop
  let mark ← mark? (offset - start)
  return (bytes.map mask, mark)

def withContext (headline : String) (source : List UInt8) (offset : Nat) : String :=
  let row := String.ofList (excerpt source offset)
  let mark := String.ofList (caret source offset)
  s!"{headline}\n  {row}\n  {mark}\n"

structure Style where
  speaker : Option String := none
  paint : Option (List Char → List Char) := none

def highlight (paint : List Char → List Char) (message : List Char) : List Char :=
  match message.dropWhile (· ≠ ':') with
  | [] => message
  | rest => paint (message.takeWhile (· ≠ ':')) ++ rest

def Style.headline (style : Style) (message : String) : String :=
  let shown := match style.paint with
    | some paint => String.ofList (highlight paint message.toList)
    | none => message
  match style.speaker with
  | some speaker => s!"{speaker}: {shown}"
  | none => shown

def loadError (style : Style) (source : List UInt8) : LoadError → String
  | .unmatched bracket ip offset =>
    withContext
      (style.headline s!"Load error: unmatched bracket {bracket.quoted} at instruction {ip}")
      source offset
  | .io cause => style.headline s!"Load error: {cause.text}" ++ "\n"

def runErrorMessage : RunError → String
  | .outOfBounds ip pointer op =>
    s!"Runtime error: pointer out of bounds (ptr={pointer}, op={op}) at instruction {ip}"
  | .io ip cause => s!"Runtime error: I/O failure: {cause.text} at instruction {ip}"
  | .emptyTape => "Runtime error: tape size must be at least 1"

def runErrorPosition? : RunError → Option Nat
  | .outOfBounds ip .. => some ip
  | .io ip _ => some ip
  | .emptyTape => none

def runError (style : Style) (source : List UInt8) (program : Program) (error : RunError) :
    String :=
  let headline := style.headline (runErrorMessage error)
  match (runErrorPosition? error).bind program.offset? with
  | some offset => withContext headline source offset
  | none => headline ++ "\n"

end Brainfuck.Diagnostic
