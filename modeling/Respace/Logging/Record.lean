/-! Severity levels, and records of what happened. -/

namespace Respace.Logging

/-- How severe a record is. -/
inductive Level where
  | debug | info | warning | error | critical
  deriving DecidableEq

namespace Level

def all : List Level := [debug, info, warning, error, critical]

def name : Level → String
  | debug => "DEBUG"
  | info => "INFO"
  | warning => "WARNING"
  | error => "ERROR"
  | critical => "CRITICAL"

/-- The rank of a level among numeric severities. -/
def rank : Level → Nat
  | debug => 10
  | info => 20
  | warning => 30
  | error => 40
  | critical => 50

def ofName? (name : String) : Option Level := all.find? (·.name == name)

end Level

/-- A record: its level and its text. -/
structure Record where
  level : Level
  message : String
  deriving DecidableEq

end Respace.Logging
