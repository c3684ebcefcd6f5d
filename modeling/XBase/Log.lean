/-!
# Records of what a run does

Every stage reports what it does by records of five levels. Who runs a program chooses which
levels to see.
-/

namespace XBase

/-- How much a record matters, from an error down to a detail. -/
inductive Level where
  | error | warn | info | debug | trace
deriving DecidableEq, Repr

/-- A record is seen by those who ask for its level or a larger one. -/
def Level.rank : Level → Nat
  | error => 0
  | warn => 1
  | info => 2
  | debug => 3
  | trace => 4

def Level.name : Level → String
  | error => "ERROR"
  | warn => "WARN"
  | info => "INFO"
  | debug => "DEBUG"
  | trace => "TRACE"

/-- One thing that a run reports. -/
structure Record where
  level : Level
  text : String
deriving DecidableEq, Repr

end XBase
