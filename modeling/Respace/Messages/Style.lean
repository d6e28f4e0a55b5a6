import Respace.Json.Conversion
import Respace.Number.Fixed
import Respace.Text.Character

/-! How a value is shown in a message: its width and what fills it, its sign, groups of digits, and how
    many digits there are. A style is written as a fill and an alignment, a sign, marks, a width, a
    separator of groups, a precision and a type, each of which may be left out. -/

namespace Respace.Messages

open Number

/-- A style. The zero mark asks for zeros in front of a number, behind its sign. -/
structure Style where
  fill : Char
  align : Option Char
  sign : Option Char
  noNegativeZero : Bool
  alternate : Bool
  zero : Bool
  width : Nat
  separator : Option Char
  precision : Option Nat
  type : Option Char

/-- Why a value is not shown. -/
inductive Failure where
  | unusable
  | noAttribute (kind name : String)
  | notIndexed (kind : String)
  | kindNoAttribute (kind name : String)
  | kindNotIndexed (kind : String)
  | textKey
  | listKey
  | noStyle (kind : String)
  | noCharacter
  | tooLarge
  | tooLargeForFloat
  | tooDeep
  | other (message : String)
  deriving DecidableEq

/-- A failure in words. What is unusable is never reported: the message stays as it is. -/
def Failure.message : Failure → String
  | unusable => "unusable"
  | noAttribute kind name => "'" ++ kind ++ "' object has no attribute '" ++ name ++ "'"
  | notIndexed kind => quote kind ++ " object is not subscriptable"
  | kindNoAttribute kind name => "type object '" ++ kind ++ "' has no attribute '" ++ name ++ "'"
  | kindNotIndexed kind => "type " ++ quote kind ++ " is not subscriptable"
  | textKey => "string indices must be integers, not 'str'"
  | listKey => "list indices must be integers or slices, not str"
  | noStyle kind => "unsupported format string passed to " ++ kind ++ ".__format__"
  | noCharacter => "%c arg not in range(0x110000)"
  | tooLarge => "Python int too large to convert to C long"
  | tooLargeForFloat => "int too large to convert to float"
  | tooDeep => "maximum recursion depth exceeded while getting the repr of an object"
  | other m => m

/-- Characters of alignment: to the left, to the right, behind the sign, and in the middle. -/
def isAlign (c : Char) : Bool := c == '<' || c == '>' || c == '=' || c == '^'

/-- Takes a character off a text if it passes a test. -/
def takeIf (p : Char → Bool) : List Char → Option Char × List Char
  | [] => (none, [])
  | c :: cs => if p c then (some c, cs) else (none, c :: cs)

/-- Takes a count off a text; none if there are no digits, and no answer if it is too large. -/
def takeCount (cs : List Char) : Option (Option Nat × List Char) :=
  let ds := cs.takeWhile Text.isDecimal
  let n := Text.decimalNumber ds
  if ds.isEmpty then some (none, cs)
  else if n < Nat.pow 2 63 then some (some n, cs.dropWhile Text.isDecimal)
  else none

/-- Types that groups of digits go with. -/
def groupTypes (separator : Char) : List Char :=
  "defgEG%F".toList ++ if separator == '_' then "boxX".toList else []

namespace Style

/-- Reads a style. -/
def read? (cs : List Char) : Option Style := do
  let (fill, align, cs) := match cs with
    | f :: a :: rest => if isAlign a then (some f, some a, rest) else
      if isAlign f then (none, some f, a :: rest) else (none, none, cs)
    | [a] => if isAlign a then (none, some a, []) else (none, none, cs)
    | [] => (none, none, [])
  let (sign, cs) := takeIf (fun c => c == '+' || c == '-' || c == ' ') cs
  let (z, cs) := takeIf (· == 'z') cs
  let (alternate, cs) := takeIf (· == '#') cs
  let (zero, cs) := if fill.isSome then (none, cs) else takeIf (· == '0') cs
  let (width, cs) ← takeCount cs
  let (comma, cs) := takeIf (· == ',') cs
  let (underscore, cs) := takeIf (· == '_') cs
  if comma.isSome && underscore.isSome then none
  let (point, cs) := takeIf (· == '.') cs
  let (precision, cs) ← if point.isSome then takeCount cs else some (none, cs)
  if point.isSome && precision.isNone then none
  let type ← match cs with
    | [] => some none
    | [c] => some (some c)
    | _ => none
  let separator := comma <|> underscore
  if separator.any fun s => type.any fun t => !(groupTypes s).contains t then none
  return ⟨fill.getD (if zero.isSome then '0' else ' '), align, sign, z.isSome, alternate.isSome,
    zero.isSome, width.getD 0, separator, precision, type⟩

/-- Fill on both sides of a body, as the alignment says; behind a sign there is more of the body. -/
def pad (s : Style) (align : Char) (sign body : List Char) : List Char :=
  let missing := s.width - (sign.length + body.length)
  let fill (n : Nat) := List.replicate n s.fill
  match align with
  | '<' => sign ++ body ++ fill missing
  | '^' => fill (missing / 2) ++ sign ++ body ++ fill (missing - missing / 2)
  | '=' => sign ++ fill missing ++ body
  | _ => fill missing ++ sign ++ body

/-- A text, cut to the precision. -/
def text? (s : Style) (cs : List Char) : Option (List Char) :=
  let align := s.align.getD '<'
  if s.type.getD 's' != 's' || s.sign.isSome || s.noNegativeZero || s.alternate || align == '=' ||
      s.separator.isSome then none
  else some (s.pad align [] ((s.precision.map (cs.take ·)).getD cs))

/-- Digits in groups, with a separator between two of them. -/
def inGroups (separator : Char) (size : Nat) (ds : List Char) : List Char :=
  (ds.reverse.zipIdx.flatMap fun (c, i) =>
    if i != 0 && i % size == 0 then [separator, c] else [c]).reverse

/-- Digits in groups with as many zeros in front as it takes to reach a length. -/
def groupedDigits (s : Style) (size length : Nat) (ds : List Char) : List Char :=
  let wide (n : Nat) := if s.separator.isSome then n + (n - 1) / size else n
  let zeros := ((List.range (length + 1)).find? fun k => length ≤ wide (ds.length + k)).getD 0
  let ds := List.replicate zeros '0' ++ ds
  match s.separator with
  | none => ds
  | some c => inGroups c size ds

/-- A number from its parts: what marks its base, its whole part and the rest. -/
def number (s : Style) (negative : Bool) (mark whole rest : List Char) (size : Nat) : List Char :=
  let sign := if negative then ['-'] else s.sign.elim [] fun c => if c == '-' then [] else [c]
  let head := sign ++ mark
  let align := s.align.getD (if s.zero then '=' else '>')
  let length :=
    if s.fill == '0' && align == '=' then s.width - (head.length + rest.length) else 0
  let digits := if whole.isEmpty then [] else s.groupedDigits size length whole
  s.pad align head (digits ++ rest)

/-- Letters in capitals when the type is a capital. -/
def likeType (type : Char) (cs : List Char) : List Char :=
  if type.isUpper then cs.map Char.toUpper else cs

/-- A floating-point number. There is a greatest count of digits that can be asked for. -/
def float? (s : Style) (x : Binary64) : Option (List Char) := do
  let form ← match s.type with
    | none => some Parts.Form.plain
    | some t => match t.toLower with
      | 'e' => some .scientific
      | 'f' | '%' => some .fixed
      | 'g' => some .compact
      | 'n' => if t == 'n' then some .compact else none
      | _ => none
  if s.precision.any (Parts.greatestCount < ·) then none
  let x := if s.type == some '%' then x.scale 100 else x
  let p := match s.type, s.precision with
    | none, none => Parts.ofShortest s.alternate x
    | _, digits => Parts.ofNumber form (digits.getD 6) s.alternate x
  let isZero := (p.whole ++ p.rest.takeWhile (· != 'e')).all fun c => c == '0' || c == '.'
  let negative := p.negative && !(s.noNegativeZero && !p.whole.isEmpty && isZero)
  let rest := likeType (s.type.getD 'g') p.rest ++ if s.type == some '%' then ['%'] else []
  return s.number negative [] p.whole rest 3

/-- The base of an integer type, and its mark. -/
def base? (type : Char) : Option (Nat × List Char) := match type with
  | 'd' | 'n' => some (10, [])
  | 'b' => some (2, ['0', 'b'])
  | 'o' => some (8, ['0', 'o'])
  | 'x' => some (16, ['0', 'x'])
  | 'X' => some (16, ['0', 'X'])
  | _ => none

def character (s : Style) (n : Int) : Except Failure (List Char) :=
  if s.precision.isSome || s.noNegativeZero || s.sign.isSome || s.alternate then .error .unusable
  else if n < -Int.pow 2 63 ∨ Int.pow 2 63 ≤ n then .error .tooLarge
  else if n < 0 ∨ 0x10ffff < n then .error .noCharacter
  else .ok (s.number false [] [] [Char.ofNat n.toNat] 3)

/-- An integer: in one of the bases, as a character, or as a floating-point number. The digits of the base
    ten are limited in number. -/
def integer (s : Style) (n : Int) : Except Failure (List Char) :=
  let type := s.type.getD 'd'
  if type == 'c' then s.character n
  else match base? type with
    | some (base, mark) =>
      if s.precision.isSome || s.noNegativeZero || (base == 10 && !Text.isWritable n) then
        .error .unusable
      else
        let digits := likeType type (Nat.toDigits base n.natAbs)
        let size := if base == 10 then 3 else 4
        .ok (s.number (n < 0) (if s.alternate then mark else []) digits [] size)
    | none =>
      if !"eEfFgG%".toList.contains type then .error .unusable
      else match Binary64.ofRatio (n < 0) n.natAbs 1 with
        | .infinite _ => .error .tooLargeForFloat
        | x => (s.float? x).elim (.error .unusable) .ok

end Style

/-- A value in the style that a text asks for. Only texts and numbers have styles. -/
def shown (style : List Char) (v : Json) : Except Failure (List Char) :=
  if style.isEmpty then (v.inserted?.map String.toList).mapError fun _ => .unusable
  else
    let styled (f : Style → Except Failure (List Char)) :=
      (Style.read? style).elim (.error .unusable) f
    match v with
    | .text t => styled fun s => (s.text? t.toList).elim (.error .unusable) .ok
    | .bool b => styled fun s => s.integer (if b then 1 else 0)
    | .integer n => styled fun s => s.integer n
    | .number x => styled fun s => (s.float? x).elim (.error .unusable) .ok
    | v => .error (.noStyle v.kindName)

end Respace.Messages
