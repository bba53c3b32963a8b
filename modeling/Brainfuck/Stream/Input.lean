import Brainfuck.Failure

/-!
An input stream as the list of what its read calls will find. Reading goes on after an end of the
stream, as it does on a terminal.
-/

namespace Brainfuck

inductive Event where
  | data (bytes : List UInt8)
  | endOfStream
  | failure (cause : Failure)
  deriving DecidableEq, Inhabited

abbrev Input := List Event

inductive Item where
  | byte (value : UInt8)
  | endOfStream
  | failure (cause : Failure)
  deriving DecidableEq, Inhabited

def Event.items : Event → List Item
  | .data bytes => bytes.map .byte
  | .endOfStream => [.endOfStream]
  | .failure cause => [.failure cause]

namespace Input

/-- The input without its division into chunks. -/
def items (input : Input) : List Item := input.flatMap Event.items

/-- Takes one byte, `none` at an end of the stream. Interrupted calls are made again. -/
def readByte : Input → Except Failure (Option UInt8) × Input
  | [] => (.ok none, [])
  | .data [] :: rest => readByte rest
  | .data (byte :: bytes) :: rest => (.ok (some byte), .data bytes :: rest)
  | .endOfStream :: rest => (.ok none, rest)
  | .failure cause :: rest =>
      if cause.interrupted then readByte rest else (.error cause, rest)

def bytesLeft (input : Input) : Nat :=
  (input.flatMap fun | .data bytes => bytes | _ => []).length

end Input
end Brainfuck
