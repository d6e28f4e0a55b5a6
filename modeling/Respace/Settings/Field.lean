import Respace.Format.Result

/-! The settings of a run: where to read and write, and how to format. -/

namespace Respace

open Format

/-- The settings, by what they decide. -/
inductive Field where
  | inputPath | outputPath | mode | indentSize | showStatistics | targetModel
  deriving DecidableEq

namespace Field

/-- All fields, in the order in which they are written. -/
def all : List Field := [inputPath, outputPath, mode, indentSize, showStatistics, targetModel]

/-- The fields that are kept between runs. -/
def saved : List Field := [mode, indentSize, showStatistics, targetModel]

/-- The key of a field in a document. -/
def key : Field → String
  | inputPath => "input_path"
  | outputPath => "output_path"
  | mode => "mode"
  | indentSize => "indent_size"
  | showStatistics => "show_stats"
  | targetModel => "target_model"

/-- The value of a field that is not set. -/
def default : Field → Json
  | inputPath => .text ""
  | outputPath => .text ""
  | mode => .text Mode.beautify.name
  | indentSize => .integer defaultIndentSize
  | showStatistics => .bool false
  | targetModel => .text defaultModel

end Field

/-- Settings that a run can use. An empty path stands for standard input or output. -/
structure Settings where
  inputPath : String
  outputPath : String
  mode : Mode
  indentSize : Nat
  showStatistics : Bool
  targetModel : String
  deriving DecidableEq

namespace Settings

/-- The settings of a run that asks for nothing. -/
def default : Settings := ⟨"", "", .beautify, defaultIndentSize, false, defaultModel⟩

/-- The value of a field. -/
def get (s : Settings) : Field → Json
  | .inputPath => .text s.inputPath
  | .outputPath => .text s.outputPath
  | .mode => .text s.mode.name
  | .indentSize => .integer s.indentSize
  | .showStatistics => .bool s.showStatistics
  | .targetModel => .text s.targetModel

/-- Settings as the fields of a document. -/
def toFields (s : Settings) : List (String × Json) := Field.all.map fun f => (f.key, s.get f)

end Settings

/-- Settings as they come, before they are checked: a value for each field. -/
abbrev RawSettings := Field → Json

namespace RawSettings

/-- The settings of a run that asks for nothing. -/
def default : RawSettings := Field.default

/-- Raw settings as the fields of a document. -/
def toFields (r : RawSettings) : List (String × Json) := Field.all.map fun f => (f.key, r f)

/-- The settings with the fields of a document in place of their own. -/
def withFields (r : RawSettings) (fields : List (String × Json)) : RawSettings :=
  fun f => (fields.lookup f.key).getD (r f)

end RawSettings

/-- Fields with those values of other fields in place of their own that are not null. New keys are left
    out. -/
def mergeFields (base overrides : List (String × Json)) : List (String × Json) :=
  base.map fun (key, value) => (key, match overrides.lookup key with
    | none | some .null => value
    | some v => v)

end Respace
