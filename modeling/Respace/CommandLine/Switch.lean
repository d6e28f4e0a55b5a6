import Respace.Format.Mode

/-! The options of the command line: their names, and the values they take. -/

namespace Respace.CommandLine

open Format

/-- The options. -/
inductive Switch where
  | help | input | output | mode | minify | indent | stats | json | model | useDefaults | saveConfig
  | dumpConfig | debug
  deriving DecidableEq

namespace Switch

/-- All options, in the order in which they are listed. -/
def all : List Switch :=
  [help, input, output, mode, minify, indent, stats, json, model, useDefaults, saveConfig, dumpConfig,
    debug]

/-- The names of an option, the short one first. -/
def names : Switch → List String
  | help => ["-h", "--help"]
  | input => ["-i", "--input"]
  | output => ["-o", "--output"]
  | mode => ["-m", "--mode"]
  | minify => ["--minify"]
  | indent => ["--indent"]
  | stats => ["--stats"]
  | json => ["--json"]
  | model => ["--model"]
  | useDefaults => ["--use-defaults"]
  | saveConfig => ["--save-config"]
  | dumpConfig => ["--dump-config"]
  | debug => ["--debug"]

/-- What stands for the value of an option that takes one. -/
def placeholder? : Switch → Option String
  | input | output => some "PATH"
  | mode => some ("\x7b" ++ ",".intercalate (Mode.all.map Mode.name) ++ "\x7d")
  | indent => some "N"
  | model => some "NAME"
  | _ => none

/-- Whether an option takes a value. -/
def takesValue (s : Switch) : Bool := s.placeholder?.isSome

def table : List (String × Switch) := all.flatMap fun s => s.names.map (·, s)

/-- The option of the given name. -/
def ofName? (name : String) : Option Switch := table.lookup name

end Switch

/-- Why a command line is not understood. -/
inductive ArgumentError where
  | ambiguous (word : String) (names : List String)
  | missingValue (switch : Switch)
  | ignoredValue (switch : Switch) (value : String)
  | invalidInteger (switch : Switch) (value : String)
  | invalidChoice (switch : Switch) (value : String)
  | unrecognized (words : List String)
  deriving DecidableEq

/-- A complaint about an option. -/
def Switch.complaint (s : Switch) (text : String) : String :=
  "argument " ++ "/".intercalate s.names ++ ": " ++ text

def ArgumentError.message : ArgumentError → String
  | ambiguous word names =>
    "ambiguous option: " ++ word ++ " could match " ++ ", ".intercalate names
  | missingValue s => s.complaint "expected one argument"
  | ignoredValue s v => s.complaint ("ignored explicit argument " ++ quote v)
  | invalidInteger s v => s.complaint ("invalid int value: " ++ quote v)
  | invalidChoice s v =>
    s.complaint ("invalid choice: " ++ quote v ++ " (choose from " ++
      ", ".intercalate (Mode.all.map fun m => quote m.name) ++ ")")
  | unrecognized words => "unrecognized arguments: " ++ " ".intercalate words

end Respace.CommandLine
