import Respace.Settings.Field

/-! Checking settings. A strict check refuses what it cannot use; a lenient one converts it or puts the
    default in its place, and says so. Either breaks off at a number that has too many digits to be read or
    to be named in words, and at a mode that is nested too deeply to be shown. -/

namespace Respace

open Format

/-- What is wrong with the value of a field. -/
inductive Complaint where
  | notText (field : Field) (kind : String)
  | notBoolean (field : Field) (kind : String)
  | notInteger (field : Field) (kind : String)
  | unknownMode (cause : UnknownMode)
  | outOfRange (field : Field) (number : Int)

/-- The most spaces for each level of depth. -/
def maxIndentSize : Nat := 8

def Complaint.message : Complaint → String
  | notText f kind => "Field '" ++ f.key ++ "' expects text, got " ++ kind ++ "."
  | notBoolean f kind => "Field '" ++ f.key ++ "' expects a boolean, got " ++ kind ++ "."
  | notInteger f kind => "Field '" ++ f.key ++ "' expects an integer, got " ++ kind ++ "."
  | unknownMode e => e.message ++ "."
  | outOfRange f n =>
    s!"Field '{f.key}' out of range (0-{maxIndentSize}): {n}."

/-- Why settings are refused. -/
inductive Refusal where
  | notObject (kind : String)
  | complaint (cause : Complaint)
  | unreadable (cause : Text.IntegerError)
  | unwritable (cause : Text.WriteError)
  | tooDeep

def Refusal.message : Refusal → String
  | notObject kind => "Invalid config type: expected dict, received " ++ kind ++ "."
  | complaint c => c.message
  | unreadable e => e.message
  | unwritable e => e.message
  | tooDeep => "maximum recursion depth exceeded while getting the repr of an object"

/-- What a lenient check did about a value. -/
inductive Finding where
  | allReplaced (kind : String)
  | replaced (cause : Complaint) (default : Json)
  | converted (field : Field) (value : Json) (result : Bool)
  | clamped (field : Field) (number : Int) (result : Nat)

def Finding.message : Finding → String
  | allReplaced kind => (Refusal.notObject kind).message ++ " Using defaults."
  | replaced c v => c.message ++ " Using '" ++ v.inserted ++ "'."
  | converted f v b =>
    "Field '" ++ f.key ++ "' converted from " ++ v.display ++ " to " ++ (Json.bool b).display ++ "."
  | clamped f n m => (Complaint.outOfRange f n).message ++ s!" Clamped to {m}."

/-- Words for yes. -/
def yesWords : List String := ["true", "1", "yes", "y", "on"]

/-- Words for no. -/
def noWords : List String := ["false", "0", "no", "n", "off"]

/-- The word that a text or a number spells, in lower case and without blanks at its ends. -/
def wordOf (v : Json) : Except Text.WriteError (List Char) := match v with
  | .text _ | .integer _ | .number _ => v.inserted?.map fun s => Text.lowered (Text.trim s.toList)
  | _ => .ok []

/-- The truth value that a word stands for. -/
def truthOf? (word : List Char) : Option Bool :=
  if (yesWords.map String.toList).contains word then some true
  else if (noWords.map String.toList).contains word then some false
  else none

/-- A value that passes a check, and what the check found, or a complaint. -/
abbrev Checked (α : Type) := Except Complaint (α × List Finding)

/-- Checks a text; blanks at its ends are dropped. -/
def checkText (field : Field) : Json → Checked String
  | .text s => .ok (trimmed s, [])
  | v => .error (.notText field v.kindName)

/-- Checks a mode. -/
def checkMode (room : Json.Room) (v : Json) : Except Refusal (Checked Mode) :=
  if !v.fits room then .error .tooDeep
  else match Mode.parse v with
    | .ok m => .ok (.ok (m, []))
    | .error e => .ok (.error (.unknownMode e))

/-- Checks a truth value. A lenient check takes a word for it. -/
def checkTruth (strict : Bool) (field : Field) (v : Json) : Except Refusal (Checked Bool) :=
  let complaint := .ok (.error (.notBoolean field v.kindName))
  match v with
  | .bool b => .ok (.ok (b, []))
  | v =>
    if strict then complaint
    else match wordOf v with
      | .error e => .error (.unwritable e)
      | .ok word => match truthOf? word with
        | some b => .ok (.ok (b, [.converted field v b]))
        | none => complaint

/-- Checks a size. One that is out of range is named in words. -/
def checkSize (strict : Bool) (field : Field) (n : Int) : Except Refusal (Checked Nat) :=
  if 0 ≤ n ∧ n ≤ maxIndentSize then .ok (.ok (n.toNat, []))
  else if !Text.isWritable n then .error (.unwritable ⟨⟩)
  else if strict then .ok (.error (.outOfRange field n))
  else
    let clamped := min n.toNat maxIndentSize
    .ok (.ok (clamped, [.clamped field n clamped]))

/-- Checks an integer. A lenient check reads it from a text of digits, and refuses digits that do not
    make a number. -/
def checkInteger (strict : Bool) (field : Field) (v : Json) : Except Refusal (Checked Nat) :=
  match v with
  | .integer n => checkSize strict field n
  | .text s =>
    let digits := Text.trim s.toList
    if !strict && Text.isDigits digits then
      match Text.readInteger digits with
      | .error e => .error (.unreadable e)
      | .ok n => checkSize strict field n
    else .ok (.error (.notInteger field v.kindName))
  | v => .ok (.error (.notInteger field v.kindName))

/-- What a check makes of a value: a strict one refuses on a complaint, a lenient one takes the
    default. -/
def settle {α : Type} (strict : Bool) (field : Field) (default : α) :
    Checked α → Except Refusal (α × List Finding)
  | .ok r => .ok r
  | .error c =>
    if strict then .error (.complaint c) else .ok (default, [.replaced c field.default])

/-- Checks the value of a field; a field that is missing or null takes the default. -/
def checkField {α : Type} (strict : Bool) (fields : List (String × Json)) (field : Field) (default : α)
    (check : Json → Except Refusal (Checked α)) : Except Refusal (α × List Finding) :=
  match fields.lookup field.key with
  | none | some .null => .ok (default, [])
  | some v => (check v).bind (settle strict field default)

/-- Checks the fields of a document; fields that are not known are left out. -/
def validateFields (room : Json.Room) (strict : Bool) (fields : List (String × Json)) :
    Except Refusal (Settings × List Finding) := do
  let d := Settings.default
  let text (f : Field) (default : String) :=
    checkField strict fields f default fun v => .ok (checkText f v)
  let (input, w₁) ← text .inputPath d.inputPath
  let (output, w₂) ← text .outputPath d.outputPath
  let (mode, w₃) ← checkField strict fields .mode d.mode (checkMode room)
  let (size, w₄) ← checkField strict fields .indentSize d.indentSize (checkInteger strict .indentSize)
  let (stats, w₅) ←
    checkField strict fields .showStatistics d.showStatistics (checkTruth strict .showStatistics)
  let (model, w₆) ← text .targetModel d.targetModel
  return (⟨input, output, mode, size, stats, model⟩, w₁ ++ w₂ ++ w₃ ++ w₄ ++ w₅ ++ w₆)

/-- Checks settings. What is no object has no settings. -/
def validate (room : Json.Room) (strict : Bool) : Json → Except Refusal (Settings × List Finding)
  | .object fields => validateFields room strict fields
  | v =>
    if strict then .error (.notObject v.kindName)
    else .ok (.default, [.allReplaced v.kindName])

end Respace
