import Brainfuck.Failure

/-!
An output stream: what its next calls will answer, and what it has received. Calls beyond the
announced answers succeed.
-/

namespace Brainfuck

inductive WriteReply where
  | accepted
  | refused
  | failed (cause : Failure)
  deriving DecidableEq, Inhabited

inductive FlushReply where
  | flushed
  | failed (cause : Failure)
  deriving DecidableEq, Inhabited

structure Output where
  writes : List WriteReply := []
  flushes : List FlushReply := []
  written : Array UInt8 := #[]
  flushCount : Nat := 0
  /-- Bytes written since the last of them. -/
  unflushed : Nat := 0
  deriving DecidableEq, Inhabited

namespace Output

def nothingWritten : Failure := ⟨.writeZero, "failed to write whole buffer"⟩

/-- The answer to writing one byte, where interrupted calls are made again, and the later
answers. -/
def writeReply : List WriteReply → Except Failure Unit × List WriteReply
  | [] => (.ok (), [])
  | .accepted :: rest => (.ok (), rest)
  | .refused :: rest => (.error nothingWritten, rest)
  | .failed cause :: rest =>
      if cause.interrupted then writeReply rest else (.error cause, rest)

def writeByte (output : Output) (byte : UInt8) : Except Failure Unit × Output :=
  match output with
  | ⟨writes, flushes, written, flushCount, unflushed⟩ =>
    match writeReply writes with
    | (.ok _, rest) => (.ok (), ⟨rest, flushes, written.push byte, flushCount, unflushed + 1⟩)
    | (.error cause, rest) => (.error cause, ⟨rest, flushes, written, flushCount, unflushed⟩)

/-- One flush call, which is not made again when it is interrupted. -/
def flush (output : Output) : Except Failure Unit × Output :=
  match output.flushes with
  | .failed cause :: rest => (.error cause, { output with flushes := rest })
  | replies =>
    (.ok (), { output with
      flushes := replies.tail, flushCount := output.flushCount + 1, unflushed := 0 })

def emit (output : Output) (byte : UInt8) : Except Failure Unit × Output :=
  match output.writeByte byte with
  | (.ok _, written) => written.flush
  | (.error cause, unwritten) => (.error cause, unwritten)

/-- What has come out at the other end: all but what waits to be flushed. -/
def delivered (output : Output) : Array UInt8 :=
  output.written.take (output.written.size - output.unflushed)

end Output
end Brainfuck
