import Respace.Text.Split
import Respace.Text.Quoted

/-! Whole numbers in decimal. A number that is read has blanks around, one sign, decimal digits of any script,
    and single underscores between digits; the information separators are not blanks here. A number has at
    most 4300 digits, leading zeros included, when it is read and when it is written. -/

namespace Respace.Text

/-- Why a text is not read as a whole number. -/
inductive IntegerError where
  | notInteger (text : List Char)
  | tooLong (digits : Nat)
  deriving DecidableEq

/-- The most digits that a number may have. -/
def maxDigits : Nat := 4300

/-- The error in words. The text at fault is shown quoted, cut after 200 characters. -/
def IntegerError.message : IntegerError → String
  | .notInteger s => "invalid literal for int() with base 10: " ++ String.ofList ((quoted s).take 200)
  | .tooLong n =>
    s!"Exceeds the limit ({maxDigits} digits) for integer string conversion: value has {n} digits; " ++
      "use sys.set_int_max_str_digits() to increase the limit"

/-- A whole number has too many digits to be written. -/
structure WriteError where
  deriving DecidableEq

def WriteError.message (_ : WriteError) : String :=
  s!"Exceeds the limit ({maxDigits} digits) for integer string conversion; " ++
    "use sys.set_int_max_str_digits() to increase the limit"

/-- Whether a whole number has few enough digits to be written. -/
def isWritable (n : Int) : Bool := (Nat.toDigits 10 n.natAbs).length ≤ maxDigits

/-- Blanks that may stand around a number. -/
def isNumberBlank (c : Char) : Bool := isBlank c && !(0x1c ≤ c.toNat && c.toNat ≤ 0x1f)

/-- Splits a sign from a text; `true` is minus. -/
def splitSign : List Char → Bool × List Char
  | '-' :: cs => (true, cs)
  | '+' :: cs => (false, cs)
  | cs => (false, cs)

/-- The digit values of a run of digits with single underscores between them. -/
def digitValues? : List Char → Option (List Nat)
  | [] => none
  | [c] => (decimalValue? c).map ([·])
  | c :: '_' :: cs => do return (← decimalValue? c) :: (← digitValues? cs)
  | c :: cs => do return (← decimalValue? c) :: (← digitValues? cs)

/-- Reads a whole number. Too many digits are reported before what follows them is looked at. -/
def readInteger (s : List Char) : Except IntegerError Int :=
  let (negative, cs) := splitSign (s.dropWhile isNumberBlank)
  let run := cs.takeWhile fun c => isDecimal c || c == '_'
  match digitValues? run with
  | none => .error (.notInteger s)
  | some ds =>
    if ds.length > maxDigits then .error (.tooLong ds.length)
    else if (cs.dropWhile fun c => isDecimal c || c == '_').all isNumberBlank then
      .ok (if negative then -(ofDigits ds : Int) else ofDigits ds)
    else .error (.notInteger s)

end Respace.Text
