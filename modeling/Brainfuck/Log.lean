namespace Brainfuck

inductive Level where
  | error
  | warn
  | info
  | debug
  | trace
  deriving DecidableEq, Inhabited

/-- Smaller is more severe. -/
def Level.rank : Level → Nat
  | .error => 1
  | .warn => 2
  | .info => 3
  | .debug => 4
  | .trace => 5

inductive Target where
  | program
  | machine
  | config
  | command
  deriving DecidableEq, Inhabited

structure Record where
  level : Level
  target : Target
  message : String
  deriving DecidableEq, Inhabited

structure Logger where
  /-- What is said of a request for records that cannot be read. -/
  complaints : String
  shows : Target → Level → Bool
  line : Record → String

def Logger.lines (logger : Logger) (records : List Record) : String :=
  String.join ((records.filter fun record => logger.shows record.target record.level).map
    logger.line)

end Brainfuck
