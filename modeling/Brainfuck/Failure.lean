namespace Brainfuck

inductive Failure.Kind where
  | notFound
  | permissionDenied
  | connectionReset
  | brokenPipe
  | wouldBlock
  | invalidInput
  | invalidData
  | timedOut
  | writeZero
  | interrupted
  | unexpectedEof
  | notADirectory
  | isADirectory
  | storageFull
  | invalidFilename
  | inputOutput
  | uncategorized
  | other
  deriving DecidableEq, Inhabited

structure Failure where
  kind : Failure.Kind
  text : String
  deriving DecidableEq, Inhabited

namespace Failure

def Kind.description : Kind → String
  | .notFound => "entity not found"
  | .permissionDenied => "permission denied"
  | .connectionReset => "connection reset"
  | .brokenPipe => "broken pipe"
  | .wouldBlock => "operation would block"
  | .invalidInput => "invalid input parameter"
  | .invalidData => "invalid data"
  | .timedOut => "timed out"
  | .writeZero => "write zero"
  | .interrupted => "operation interrupted"
  | .unexpectedEof => "unexpected end of file"
  | .notADirectory => "not a directory"
  | .isADirectory => "is a directory"
  | .storageFull => "no storage space"
  | .invalidFilename => "invalid filename"
  | .inputOutput => "input/output error"
  | .uncategorized => "uncategorized error"
  | .other => "other error"

def ofKind (kind : Kind) : Failure := ⟨kind, kind.description⟩

def interrupted (failure : Failure) : Bool := failure.kind == .interrupted

end Failure
end Brainfuck
