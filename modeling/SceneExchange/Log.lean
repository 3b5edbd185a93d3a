/-!
# Log lines
-/

namespace SceneExchange

inductive LogLevel where
  | debug | info | warning | error
  deriving Repr, DecidableEq, Inhabited

namespace LogLevel

def rank : LogLevel → Nat
  | debug => 0
  | info => 1
  | warning => 2
  | error => 3

def name : LogLevel → String
  | debug => "DEBUG"
  | info => "INFO"
  | warning => "WARNING"
  | error => "ERROR"

end LogLevel

structure LogLine where
  level : LogLevel
  message : String
  deriving Repr, DecidableEq, Inhabited

def logFrom (least : LogLevel) (lines : List LogLine) : List LogLine :=
  lines.filter fun l => least.rank ≤ l.level.rank

end SceneExchange
