import Respace.Json.Value
import Respace.Number.Shortest
import Respace.Text.Integer

/-! What values are worth outside of documents. In messages texts are quoted, numbers are in plain notation,
    and lists and objects are in their brackets on one line. What is nested too deeply for the stack cannot be
    shown, and neither can a whole number of too many digits. The whole number that a value stands for is one or
    zero for a truth value; a number loses its fraction, and a text is read. -/

namespace Respace.Json

open Number

/-! ### As texts -/

/-- The room that is left on the stack: which lists and objects can be shown before it is used up. -/
abbrev Room := Json → Bool

def Room.endless : Room := fun _ => true

/-- Whether there is room to show a value. Values without parts need none. -/
def fits (room : Room) : Json → Bool
  | list items => room (list items)
  | object fields => room (object fields)
  | _ => true

@[simp] theorem fits_endless (v : Json) : v.fits .endless = true := by
  cases v <;> rfl

mutual

/-- Whether a value can be shown: each whole number in it can be written. -/
def isWritable : Json → Bool
  | integer n => Text.isWritable n
  | list items => areWritable items
  | object fields => haveWritable fields
  | _ => true

/-- Whether all items of a list can be shown. -/
def areWritable : List Json → Bool
  | [] => true
  | v :: rest => v.isWritable && areWritable rest

/-- Whether all fields of an object can be shown. -/
def haveWritable : List (String × Json) → Bool
  | [] => true
  | (_, v) :: rest => v.isWritable && haveWritable rest

end

mutual

/-- A value as messages show it, if it can be shown. -/
def display : Json → String
  | null => "None"
  | bool b => if b then "True" else "False"
  | integer n => toString n
  | number x => x.text plainNotation
  | text s => quote s
  | list items => "[" ++ ", ".intercalate (displayItems items) ++ "]"
  | object fields => "\x7b" ++ ", ".intercalate (displayFields fields) ++ "\x7d"

def displayItems : List Json → List String
  | [] => []
  | v :: rest => v.display :: displayItems rest

def displayFields : List (String × Json) → List String
  | [] => []
  | (k, v) :: rest => (quote k ++ ": " ++ v.display) :: displayFields rest

end

/-- A value inserted into a sentence: a text as it stands, any other value as messages show it. -/
def inserted : Json → String
  | text s => s
  | v => v.display

def display? (v : Json) : Except Text.WriteError String :=
  if v.isWritable then .ok v.display else .error ⟨⟩

def inserted? (v : Json) : Except Text.WriteError String :=
  if v.isWritable then .ok v.inserted else .error ⟨⟩

/-! ### As whole numbers -/

/-- Why a value stands for no whole number. -/
inductive WholeError where
  | unreadable (cause : Text.IntegerError)
  | infinite
  | undefined
  | wrongKind (kind : String)
  deriving DecidableEq

def WholeError.message : WholeError → String
  | unreadable e => e.message
  | infinite => "cannot convert float infinity to integer"
  | undefined => "cannot convert float NaN to integer"
  | wrongKind kind =>
    "int() argument must be a string, a bytes-like object or a real number, not " ++ quote kind

/-- The whole number that a value stands for. -/
def whole : Json → Except WholeError Int
  | bool b => .ok (if b then 1 else 0)
  | integer n => .ok n
  | number .nan => .error .undefined
  | number x => match x.truncate? with
    | some n => .ok n
    | none => .error .infinite
  | text s => match Text.readInteger s.toList with
    | .ok n => .ok n
    | .error e => .error (.unreadable e)
  | v => .error (.wrongKind v.kindName)

end Respace.Json
