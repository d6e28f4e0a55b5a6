import Respace.Json.Value
import Respace.Number.Shortest
import Respace.Text.Quoted

/-! Writing a document: on one line, or with each item on a line of its own. Quotes, backslashes and
    control characters are escaped, all other characters stand as they are. -/

namespace Respace.Json

open Number

/-- A character of a text, escaped if it has to be. -/
def escapeChar (c : Char) : List Char :=
  match c with
  | '"' => ['\\', '"']
  | '\\' => ['\\', '\\']
  | '\n' => ['\\', 'n']
  | '\r' => ['\\', 'r']
  | '\t' => ['\\', 't']
  | '\x0c' => ['\\', 'f']
  | '\x08' => ['\\', 'b']
  | c => if c.toNat < 0x20 then '\\' :: 'u' :: Text.hex 4 c.toNat else [c]

/-- A text between quotes. -/
def quotedText (s : String) : String :=
  "\"" ++ String.ofList (s.toList.flatMap escapeChar) ++ "\""

/-- The start of a line inside `depth` brackets; nothing when all is on one line. -/
def lineStart (indent : Option Nat) (depth : Nat) : String := match indent with
  | none => ""
  | some n => "\n" ++ String.ofList (List.replicate (n * depth) ' ')

/-- What stands between two items. -/
def separator (indent : Option Nat) (depth : Nat) : String := match indent with
  | none => ", "
  | some _ => "," ++ lineStart indent depth

/-- Items between brackets. -/
def bracketed (indent : Option Nat) (depth : Nat) (opening closing : String) (items : List String) :
    String :=
  if items.isEmpty then opening ++ closing
  else opening ++ lineStart indent (depth + 1) ++ (separator indent (depth + 1)).intercalate items ++
    lineStart indent depth ++ closing

mutual

/-- A value inside `depth` brackets. -/
def printAt (indent : Option Nat) (depth : Nat) : Json → String
  | null => "null"
  | bool b => if b then "true" else "false"
  | integer n => toString n
  | number x => x.text documentNotation
  | text s => quotedText s
  | list items => bracketed indent depth "[" "]" (printItems indent (depth + 1) items)
  | object fields => bracketed indent depth "\x7b" "\x7d" (printFields indent (depth + 1) fields)

/-- The items of a list. -/
def printItems (indent : Option Nat) (depth : Nat) : List Json → List String
  | [] => []
  | v :: rest => printAt indent depth v :: printItems indent depth rest

/-- The fields of an object. -/
def printFields (indent : Option Nat) (depth : Nat) : List (String × Json) → List String
  | [] => []
  | (k, v) :: rest => (quotedText k ++ ": " ++ printAt indent depth v) :: printFields indent depth rest

end

/-- A document with each item on a line of its own, indented by four spaces for each bracket. -/
def print (v : Json) : String := printAt (some 4) 0 v

def printLine (v : Json) : String := printAt none 0 v

end Respace.Json
