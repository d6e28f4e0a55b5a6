import Respace.Json.Conversion
import Respace.Text.Split

/-! The two modes of formatting and their names. -/

namespace Respace.Format

/-- What formatting makes of a script: its indented or its compact form. -/
inductive Mode where
  | beautify | minify
  deriving DecidableEq

/-- A value that names no mode. -/
structure UnknownMode where
  value : Json

/-- The error in words: the value, or why it cannot be shown. -/
def UnknownMode.message (e : UnknownMode) : String := match e.value.display? with
  | .ok shown => "Unknown format mode: " ++ shown
  | .error e => e.message

namespace Mode

/-- All modes. -/
def all : List Mode := [beautify, minify]

def name : Mode → String
  | beautify => "beautify"
  | minify => "minify"

/-- The mode that a text names. Case and the blanks around the name do not matter. -/
def ofText? (s : String) : Option Mode :=
  let key := Text.lowered (Text.trim s.toList)
  all.find? fun m => m.name.toList == key

/-- The mode that a value names. Only texts do. -/
def parse : Json → Except UnknownMode Mode
  | .text s => match ofText? s with
    | some m => .ok m
    | none => .error ⟨.text s⟩
  | v => .error ⟨v⟩

end Mode

end Respace.Format
