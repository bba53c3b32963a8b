import Brainfuck.Program.Basic
import Brainfuck.Stream.Input
import Brainfuck.Log

namespace Brainfuck

inductive Bracket where
  | opening
  | closing
  deriving DecidableEq, Inhabited

def Bracket.symbol : Bracket → Char
  | .opening => '['
  | .closing => ']'

def Bracket.quoted (bracket : Bracket) : String := s!"'{bracket.symbol}'"

inductive LoadError where
  | unmatched (bracket : Bracket) (ip offset : Nat)
  | io (cause : Failure)
  deriving DecidableEq

def LoadError.message : LoadError → String
  | .unmatched bracket ip offset =>
    s!"Unmatched bracket {bracket.quoted} at instruction {ip} (byte offset {offset})"
  | .io cause => s!"I/O error while reading program: {cause.text}"

def LoadError.cause? : LoadError → Option Failure
  | .unmatched .. => none
  | .io cause => some cause

structure Scan where
  program : Program := {}
  /-- Positions of the brackets still open, innermost first. -/
  unclosed : List Nat := []
  offset : Nat := 0
  aligned : program.instructions.size = program.offsets.size := by rfl
  located : ∀ ip ∈ unclosed, ip < program.offsets.size := by exact List.forall_mem_nil _

namespace Scan

instance : Inhabited Scan := ⟨{}⟩

theorem lt_size_push {offsets : Array Nat} {unclosed : List Nat}
    (located : ∀ ip ∈ unclosed, ip < offsets.size) (offset : Nat) :
    ∀ ip ∈ unclosed, ip < (offsets.push offset).size := by
  intro ip member
  rw [Array.size_push]
  exact Nat.lt_succ_of_lt (located ip member)

theorem size_push_aligned {instructions : Array Instruction} {offsets : Array Nat}
    (aligned : instructions.size = offsets.size) (instruction : Instruction) (offset : Nat) :
    (instructions.push instruction).size = (offsets.push offset).size := by
  rw [Array.size_push, Array.size_push, aligned]

def feed (scan : Scan) (byte : UInt8) : Except LoadError Scan :=
  match scan with
  | ⟨⟨instructions, offsets, closing, opening⟩, unclosed, offset, aligned, located⟩ =>
    let ip := instructions.size
    match Instruction.ofByte? byte with
    | none =>
      .ok ⟨⟨instructions, offsets, closing, opening⟩, unclosed, offset + 1, aligned, located⟩
    | some .loopStart =>
      .ok ⟨⟨instructions.push .loopStart, offsets.push offset, closing.push none,
        opening.push none⟩, ip :: unclosed, offset + 1, size_push_aligned aligned _ _,
        List.forall_mem_cons.mpr ⟨by simp [ip, aligned], lt_size_push located offset⟩⟩
    | some .loopEnd =>
      match unclosed, located with
      | [], _ => .error (.unmatched .closing ip offset)
      | partner :: rest, located =>
        .ok ⟨⟨instructions.push .loopEnd, offsets.push offset,
          (closing.setIfInBounds partner (some ip)).push none, opening.push (some partner)⟩,
          rest, offset + 1, size_push_aligned aligned _ _,
          lt_size_push (List.forall_mem_cons.mp located).2 offset⟩
    | some (.simple action) =>
      .ok ⟨⟨instructions.push (.simple action), offsets.push offset, closing.push none,
        opening.push none⟩, unclosed, offset + 1, size_push_aligned aligned _ _,
        lt_size_push located offset⟩

def feedAll (scan : Scan) : List UInt8 → Except (LoadError × List UInt8) Scan
  | [] => .ok scan
  | byte :: rest =>
    match scan.feed byte with
    | .ok next => next.feedAll rest
    | .error error => .error (error, rest)

def finish (scan : Scan) : Except LoadError Program :=
  match scan with
  | ⟨program, [], _, _, _⟩ => .ok program
  | ⟨program, ip :: _, _, _, located⟩ =>
    have inside := located ip List.mem_cons_self
    .error (.unmatched .opening ip program.offsets[ip])

def read (scan : Scan) : Input → Except LoadError Program × Input
  | [] => (scan.finish, [])
  | .data bytes :: rest =>
    match scan.feedAll bytes with
    | .ok next => next.read rest
    | .error (error, unread) => (.error error, .data unread :: rest)
  | .endOfStream :: rest => (scan.finish, rest)
  | .failure cause :: rest =>
    if cause.interrupted then scan.read rest else (.error (.io cause), rest)

end Scan

namespace Program

def load (source : Input) : Except LoadError Program × Input := ({} : Scan).read source

def ofBytes (source : List UInt8) : Except LoadError Program :=
  match ({} : Scan).feedAll source with
  | .ok scan => scan.finish
  | .error (error, _) => .error error

def loadedRecord (program : Program) : Record :=
  ⟨.debug, .program,
    s!"loaded {program.length} instructions with {program.loopCount} loops"⟩

end Program
end Brainfuck
