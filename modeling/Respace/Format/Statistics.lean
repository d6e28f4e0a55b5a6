import Respace.Format.Mode
import Respace.Format.Tokens
import Respace.Text.Utf8

/-! Sizes of a script and of its formatted text, side by side. -/

namespace Respace.Format

open Logging Number

/-- The quotient of two whole numbers is beyond the range of floating-point numbers. -/
structure RatioError where
  deriving DecidableEq

def RatioError.message (_ : RatioError) : String := "integer division result too large for a float"

/-- The part of the input size that is saved, in percent with one decimal. An input without a size saves
    nothing. -/
def compressionRatio (input output : Int) : Except RatioError Binary64 :=
  if input ≤ 0 then .ok (.zero false)
  else match Binary64.quotient? (input - output) input.toNat with
    | none => .error ⟨⟩
    | some x => .ok (x.scale 100).roundTenths

/-- The number of lines of a text; a line feed starts a new one. -/
def lineCount (s : String) : Nat := s.toList.count '\n' + 1

/-- Sizes before and after. The ratio is given for the compact form only. -/
structure Statistics where
  inputBytes : Nat
  outputBytes : Nat
  inputLines : Nat
  outputLines : Nat
  ratio : Option Binary64
  inputTokens : Nat
  outputTokens : Nat

/-- The sizes of two texts that are not empty, and warnings of the token count. -/
def measure (load : Loader) (mode : Mode) (source output : String) (model : Json) :
    Except RatioError (Statistics × List Record) := do
  let inputBytes := Text.byteSize source.toList
  let outputBytes := Text.byteSize output.toList
  let ratio ← if mode = .minify then some <$> compressionRatio inputBytes outputBytes else pure none
  let (inputTokens, first, loaded) := countTokens load [] source model
  let (outputTokens, second, _) := countTokens load loaded.encoders output model
  return (⟨inputBytes, outputBytes, lineCount source, lineCount output, ratio, inputTokens,
    outputTokens⟩, first ++ second)

/-- The sizes of a script and its formatted text, unless one of them is empty. A ratio of sizes is
    always in range. -/
def statistics (load : Loader) (mode : Mode) (source output : String) (model : Json) :
    Option Statistics × List Record :=
  if source.isEmpty || output.isEmpty then (none, [])
  else match measure load mode source output model with
    | .ok (s, records) => (some s, records)
    | .error _ => (none, [])

end Respace.Format
