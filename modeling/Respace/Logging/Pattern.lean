import Respace.Logging.Record
import Respace.Text.Alphanumeric
import Respace.Text.Character
import Respace.Text.Quoted

/-! How a record is written on a line. A pattern is a text with fields: a percent sign, a name in
    parentheses, flags, a width, a precision and a conversion. -/

namespace Respace.Logging

open Text

/-- An entry of the log: a record, the name of what reported it, and the time. -/
structure Entry where
  record : Record
  name : String
  time : String

/-- How a field is converted. -/
structure Conversion where
  flags : List Char
  width : Nat
  precision : Option Nat
  letter : Char

/-- Whether a width and a precision are not too large to be used. -/
def Conversion.isWithinLimits (c : Conversion) : Bool :=
  c.width < Nat.pow 2 63 && c.precision.all (· < Nat.pow 2 31)

/-- A part of a pattern. -/
inductive Part where
  | literal (c : Char)
  | field (name : List Char) (conversion : Conversion)

/-- Characters of the name of a field. -/
def isNameChar (c : Char) : Bool := isAlphanumeric c || c == '_'

/-- Flags of a conversion. -/
def isFlag (c : Char) : Bool := c == '#' || c == '0' || c == '+' || c == ' ' || c == '-'

/-- The number that decimal digits spell; none without digits. -/
def count? (cs : List Char) : Option Nat :=
  if cs.isEmpty then none else some (decimalNumber cs)

/-- Splits digits off, or a single star. -/
def splitCount (cs : List Char) : List Char × List Char :=
  match cs with
  | '*' :: rest => (['*'], rest)
  | _ => (cs.takeWhile isDecimal, cs.dropWhile isDecimal)

/-- What follows a percent sign in front of the letter of a conversion: the name, the flags, the width,
    and the precision. -/
def splitField? (cs : List Char) :
    Option (List Char × List Char × List Char × Option (List Char) × List Char) :=
  match cs with
  | '(' :: cs =>
    let name := cs.takeWhile isNameChar
    match cs.dropWhile isNameChar with
    | ')' :: cs =>
      let flags := cs.takeWhile isFlag
      let (width, cs) := splitCount (cs.dropWhile isFlag)
      match cs with
      | '.' :: cs =>
        let (precision, cs) := splitCount cs
        if name.isEmpty || precision.isEmpty then none else some (name, flags, width, some precision, cs)
      | _ => if name.isEmpty then none else some (name, flags, width, none, cs)
    | _ => none
  | _ => none

/-- Letters of conversions. -/
def isConversion (c : Char) : Bool := "diouxefgcrsa%".toList.contains c.toLower

/-- Whether a pattern has a field at all. -/
def hasField : List Char → Bool
  | [] => false
  | c :: cs =>
    (c == '%' && (splitField? cs).any fun (_, _, _, _, rest) => rest.head?.any isConversion) ||
      hasField cs

/-- The parts of a pattern; none if it cannot be used. -/
def parts? : (fuel : Nat) → List Char → Option (List Part)
  | _, [] => some []
  | 0, _ => none
  | fuel + 1, '%' :: '%' :: cs => (parts? fuel cs).map (.literal '%' :: ·)
  | fuel + 1, '%' :: cs => do
    let (name, flags, width, precision, rest) ← splitField? cs
    if width == ['*'] || precision == some ['*'] then none
    match rest with
    | [] => none
    | letter :: rest =>
      let conversion := ⟨flags, (count? width).getD 0, precision.bind count?, letter⟩
      if !conversion.isWithinLimits then none
      return .field name conversion :: (← parts? fuel rest)
  | fuel + 1, c :: cs => (parts? fuel cs).map (.literal c :: ·)

/-- A text in a field. -/
def Conversion.text (c : Conversion) (cs : List Char) : List Char :=
  let cs := (c.precision.map (cs.take ·)).getD cs
  let fill := List.replicate (c.width - cs.length) ' '
  if c.flags.contains '-' then cs ++ fill else fill ++ cs

/-- A natural number in a field, in the given base. -/
def Conversion.number (c : Conversion) (base : Nat) (mark : List Char) (n : Nat) : List Char :=
  let ds := Nat.toDigits base n
  let ds := if c.letter == 'X' then ds.map Char.toUpper else ds
  let ds := List.replicate ((c.precision.getD 0) - ds.length) '0' ++ ds
  let sign := if c.flags.contains '+' then ['+'] else if c.flags.contains ' ' then [' '] else []
  let head := sign ++ if c.flags.contains '#' then mark else []
  let missing := c.width - (head.length + ds.length)
  if c.flags.contains '-' then head ++ ds ++ List.replicate missing ' '
  else if c.flags.contains '0' then head ++ List.replicate missing '0' ++ ds
  else List.replicate missing ' ' ++ head ++ ds

/-- What a field shows: a text or a number. -/
inductive Shown where
  | text (cs : List Char)
  | number (n : Nat)

/-- The value of a field. -/
def Entry.get? (e : Entry) (name : String) : Option Shown :=
  match name with
  | "name" => some (.text e.name.toList)
  | "levelname" => some (.text e.record.level.name.toList)
  | "levelno" => some (.number e.record.level.rank)
  | "message" | "msg" => some (.text e.record.message.toList)
  | "asctime" => some (.text e.time.toList)
  | _ => none

/-- A converted value; none if it has no such conversion. -/
def Conversion.apply? (c : Conversion) (v : Shown) : Option (List Char) :=
  match c.letter, v with
  | 's', .text cs => some (c.text cs)
  | 'r', .text cs => some (c.text (quoted cs))
  | 'a', .text cs => some (c.text (inAscii (quoted cs)))
  | 'c', .text [x] => some (c.text [x])
  | 's', .number n | 'r', .number n | 'a', .number n => some (c.text (Nat.toDigits 10 n))
  | 'd', .number n | 'i', .number n | 'u', .number n => some (c.number 10 [] n)
  | 'o', .number n => some (c.number 8 ['0', 'o'] n)
  | 'x', .number n => some (c.number 16 ['0', 'x'] n)
  | 'X', .number n => some (c.number 16 ['0', 'X'] n)
  | 'c', .number n => some (c.text [Char.ofNat n])
  | _, _ => none

/-- An entry in the place of one part. -/
def Part.show? (e : Entry) : Part → Option (List Char)
  | literal c => some [c]
  | field name c => (e.get? (String.ofList name)).bind c.apply?

/-- An entry as a line without its end; none if the pattern cannot be used. -/
def writeEntry? (pattern : String) (e : Entry) : Option String := do
  let parts ← parts? (pattern.length + 1) pattern.toList
  return String.ofList (← parts.mapM (·.show? e)).flatten

end Respace.Logging
