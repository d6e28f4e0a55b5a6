import Respace.Text.Character

/-! Parts of a text: the blanks at its ends, its line breaks, and what stands between separators. -/

namespace Respace.Text

/-- A text without the blanks it ends in. -/
def trimEnd (s : List Char) : List Char := (s.reverse.dropWhile isBlank).reverse

/-- A text without the blanks at its two ends. -/
def trim (s : List Char) : List Char := trimEnd (s.dropWhile isBlank)

/-- The number of line breaks in a text; a carriage return and a line feed in a row are one. -/
def lineBreaks : List Char → Nat
  | [] => 0
  | '\r' :: '\n' :: cs => lineBreaks cs + 1
  | c :: cs => if isLineEnd c then lineBreaks cs + 1 else lineBreaks cs

/-- A text with each line break, of whichever kind, written as one line feed. -/
def unifyLineBreaks : List Char → List Char
  | [] => []
  | '\r' :: '\n' :: cs => '\n' :: unifyLineBreaks cs
  | c :: cs => (if c == '\r' then '\n' else c) :: unifyLineBreaks cs

/-- The first character that is not blank. -/
def firstInk? (s : List Char) : Option Char := s.find? (!isBlank ·)

def lowered (s : List Char) : List Char := s.flatMap lower

def uppered (s : List Char) : List Char := s.flatMap upper

/-! ### Separators -/

/-- The parts of a text between separators; a text without any is one part. -/
def splitOn (separator : Char) : List Char → List (List Char)
  | [] => [[]]
  | c :: cs => match splitOn separator cs with
    | [] => [[c]]
    | part :: parts => if c == separator then [] :: part :: parts else (c :: part) :: parts

theorem splitOn_ne_nil (separator : Char) (cs : List Char) : splitOn separator cs ≠ [] := by
  cases cs with
  | nil => simp [splitOn]
  | cons c cs =>
    rw [splitOn]
    split
    · simp
    · split <;> simp

/-- Parts with separators between them. -/
def joinWith (separator : Char) (parts : List (List Char)) : List Char :=
  [separator].intercalate parts

end Respace.Text

namespace Respace

/-- A string without the blanks at its two ends. -/
def trimmed (s : String) : String := String.ofList (Text.trim s.toList)

end Respace
