import Respace.Format.Statistics
import Respace.Script.Reformat

/-! Formatting on request. A script that cannot be formatted safely is handed back as it is, with a
    warning. -/

namespace Respace.Format

open Logging

/-- A request. The mode and the size may be any values; they are checked. -/
structure Request where
  source : String
  mode : Json
  indentSize : Json
  withStatistics : Bool
  model : Json

/-- The default size of an indentation. -/
def defaultIndentSize : Nat := 2

/-- The default model of the token count. -/
def defaultModel : String := "gpt-4o"

/-- The answer to a request. -/
structure Result where
  ok : Bool
  mode : Mode
  output : String
  changed : Bool
  fallback : Bool
  error : String
  statistics : Option Statistics

/-- The warning of a fault in making one of the two forms. -/
def faultWarning (mode : Mode) : Script.Fault → Record
  | .literalsDiffer => ⟨.warning, match mode with
    | .beautify => "Beautify self-check failed: literal spans differ. Returning input unchanged."
    | .minify => "Minify self-check failed. Returning input unchanged."⟩
  | e =>
    let form := match mode with
      | .beautify => "Beautify"
      | .minify => "Minify"
    ⟨.warning, form ++ " aborted, returning input unchanged: " ++ e.message⟩

/-- A form of a script. The size counts for the indented form only. -/
def reform (mode : Mode) (size : Json) (text : String) : Except Script.Fault String :=
  match mode with
  | .beautify => Script.beautify size text
  | .minify => Script.minify text

/-- Formats a script, and says what was found wrong on the way. -/
def formatSource (load : Loader) (r : Request) : Result × List Record :=
  match Mode.parse r.mode with
  | .error e => (⟨false, .beautify, r.source, false, false, e.message, none⟩, [⟨.error, e.message⟩])
  | .ok mode =>
    let (output, fallback, records) := match reform mode r.indentSize r.source with
      | .ok output => (output, false, [])
      | .error e => (r.source, true, [faultWarning mode e,
          ⟨.warning, "Could not " ++ mode.name ++ " the input safely; keeping it unchanged."⟩])
    let (stats, counted) :=
      if r.withStatistics then statistics load mode r.source output r.model else (none, [])
    (⟨true, mode, output, output != r.source, fallback, "", stats⟩, records ++ counted)

end Respace.Format
