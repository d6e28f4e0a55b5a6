import Respace.Json.Value
import Respace.Text.Integer

/-! Reading a document. Blanks are the space, the tab and the two line ends; texts hold no control
    characters; a whole number has at most 4300 digits; `NaN` and the two infinities are numbers;
    nothing but blanks may follow the value. -/

namespace Respace.Json

open Number

/-- A document from its first character that is not blank. -/
def skipBlanks (cs : List Char) : List Char :=
  cs.dropWhile fun c => c == ' ' || c == '\t' || c == '\n' || c == '\r'

/-- The value of a hexadecimal digit. -/
def hexValue? (c : Char) : Option Nat :=
  if c.isDigit then some (c.toNat - 48)
  else if 'a' ≤ c ∧ c ≤ 'f' then some (c.toNat - 87)
  else if 'A' ≤ c ∧ c ≤ 'F' then some (c.toNat - 55)
  else none

/-- The number that four hexadecimal digits spell. -/
def hexUnit? (a b c d : Char) : Option Nat := do
  return 4096 * (← hexValue? a) + 256 * (← hexValue? b) + 16 * (← hexValue? c) + (← hexValue? d)

/-- What a character stands for after a backslash. -/
def escaped? (c : Char) : Option Char :=
  [('"', '"'), ('\\', '\\'), ('/', '/'), ('b', '\x08'), ('f', '\x0c'), ('n', '\n'), ('r', '\r'),
    ('t', '\t')].lookup c

/-- The units of a text after its opening quote, and what follows the closing one. An escaped number
    may be half of a pair. -/
def textUnits? : List Char → Option (List Nat × List Char)
  | '"' :: rest => some ([], rest)
  | '\\' :: 'u' :: a :: b :: c :: d :: rest => do
    let unit ← hexUnit? a b c d
    let (units, rest) ← textUnits? rest
    return (unit :: units, rest)
  | '\\' :: c :: rest => do
    let unit ← escaped? c
    let (units, rest) ← textUnits? rest
    return (unit.toNat :: units, rest)
  | c :: rest => do
    if c.toNat < 0x20 then none
    let (units, rest) ← textUnits? rest
    return (c.toNat :: units, rest)
  | [] => none

/-- The characters that units spell: two halves in a row are one character, a half that stands alone
    is replaced. -/
def ofUnits : List Nat → List Char
  | [] => []
  | [u] => [if 0xd800 ≤ u && u < 0xe000 then '\ufffd' else Char.ofNat u]
  | u :: v :: rest =>
    if 0xd800 ≤ u && u < 0xdc00 && 0xdc00 ≤ v && v < 0xe000 then
      Char.ofNat (0x10000 + 1024 * (u - 0xd800) + (v - 0xdc00)) :: ofUnits rest
    else (if 0xd800 ≤ u && u < 0xe000 then '\ufffd' else Char.ofNat u) :: ofUnits (v :: rest)

/-- Reads a text after its opening quote. -/
def readText? (cs : List Char) : Option (String × List Char) :=
  (textUnits? cs).map fun (units, rest) => (String.ofList (ofUnits units), rest)

/-- Reads a power of ten, if there is one. -/
def readPower (cs : List Char) : Option Int × List Char :=
  match cs with
  | [] => (none, cs)
  | mark :: after =>
    let (negative, after) := Text.splitSign after
    let ds := after.takeWhile Char.isDigit
    if (mark == 'e' || mark == 'E') && !ds.isEmpty then
      (some (if negative then -(Text.decimalNumber ds : Int) else Text.decimalNumber ds), after.drop ds.length)
    else (none, cs)

/-- The whole part that a number starts with: a single zero, or digits that start with another one. -/
def wholePart : List Char → List Char
  | '0' :: _ => ['0']
  | cs => cs.takeWhile Char.isDigit

/-- The digits after a point. -/
def fractionPart : List Char → List Char
  | '.' :: after => after.takeWhile Char.isDigit
  | _ => []

/-- Reads a number without its sign. -/
def readMagnitude? (negative : Bool) (cs : List Char) : Option (Json × List Char) :=
  let whole := wholePart cs
  let rest := cs.drop whole.length
  let fraction := fractionPart rest
  let rest := if fraction.isEmpty then rest else rest.drop (fraction.length + 1)
  let (power, rest) := readPower rest
  if whole.isEmpty then none
  else if fraction.isEmpty && power.isNone then
    let n := Text.decimalNumber whole
    if whole.length > Text.maxDigits then none
    else some (integer (if negative then -(n : Int) else n), rest)
  else
    let x := Binary64.ofDecimal negative (Text.decimalNumber (whole ++ fraction))
      (power.getD 0 - (fraction.length : Int))
    some (number x, rest)

/-- Reads a number. -/
def readNumber? : List Char → Option (Json × List Char)
  | '-' :: 'I' :: 'n' :: 'f' :: 'i' :: 'n' :: 'i' :: 't' :: 'y' :: rest =>
    some (number (.infinite true), rest)
  | 'I' :: 'n' :: 'f' :: 'i' :: 'n' :: 'i' :: 't' :: 'y' :: rest =>
    some (number (.infinite false), rest)
  | 'N' :: 'a' :: 'N' :: rest => some (number .nan, rest)
  | '-' :: cs => readMagnitude? true cs
  | cs => readMagnitude? false cs

mutual

/-- Reads a value. The first argument bounds the number of steps. -/
def readValue? : Nat → List Char → Option (Json × List Char)
  | 0, _ => none
  | _ + 1, 'n' :: 'u' :: 'l' :: 'l' :: rest => some (null, rest)
  | _ + 1, 't' :: 'r' :: 'u' :: 'e' :: rest => some (bool true, rest)
  | _ + 1, 'f' :: 'a' :: 'l' :: 's' :: 'e' :: rest => some (bool false, rest)
  | _ + 1, '"' :: rest => (readText? rest).map fun (s, rest) => (text s, rest)
  | fuel + 1, '[' :: rest => match skipBlanks rest with
    | ']' :: rest => some (list [], rest)
    | rest => (readItems? fuel rest).map fun (items, rest) => (list items, rest)
  | fuel + 1, '\x7b' :: rest => match skipBlanks rest with
    | '\x7d' :: rest => some (object [], rest)
    | rest => (readFields? fuel rest).map fun (fields, rest) => (ofFields fields, rest)
  | _ + 1, cs => readNumber? cs

/-- Reads the items of a list and the bracket that closes it. -/
def readItems? : Nat → List Char → Option (List Json × List Char)
  | 0, _ => none
  | fuel + 1, cs => do
    let (v, rest) ← readValue? fuel cs
    match skipBlanks rest with
    | ']' :: rest => return ([v], rest)
    | ',' :: rest =>
      let (items, rest) ← readItems? fuel (skipBlanks rest)
      return (v :: items, rest)
    | _ => none

/-- Reads the fields of an object and the bracket that closes it. -/
def readFields? : Nat → List Char → Option (List (String × Json) × List Char)
  | 0, _ => none
  | fuel + 1, '"' :: cs => do
    let (key, rest) ← readText? cs
    match skipBlanks rest with
    | ':' :: rest =>
      let (v, rest) ← readValue? fuel (skipBlanks rest)
      match skipBlanks rest with
      | '\x7d' :: rest => return ([(key, v)], rest)
      | ',' :: rest =>
        let (fields, rest) ← readFields? fuel (skipBlanks rest)
        return ((key, v) :: fields, rest)
      | _ => none
    | _ => none
  | _ + 1, _ => none

end

/-- Reads a document. Each value and each list of values takes at least one character. -/
def read? (s : String) : Option Json := do
  let cs := skipBlanks s.toList
  let (v, rest) ← readValue? (2 * cs.length + 2) cs
  if (skipBlanks rest).isEmpty then some v else none

end Respace.Json
