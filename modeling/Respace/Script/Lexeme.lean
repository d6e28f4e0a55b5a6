import Respace.Text.Alphanumeric
import Respace.Text.Split

/-! Where literals and comments end. Each function splits the text after the opening characters into
    what belongs to the lexeme and what follows it; one that is not closed goes on to the end. -/

namespace Respace.Script

open Text

/-- Puts characters in front of the first of two texts. -/
def before (cs : List Char) (split : List Char × List Char) : List Char × List Char :=
  (cs ++ split.1, split.2)

/-- Splits after the quote that closes a string. A backslash takes the next character with it. -/
def splitString (quote : Char) : List Char → List Char × List Char
  | [] => ([], [])
  | ['\\'] => (['\\'], [])
  | '\\' :: c :: cs => before ['\\', c] (splitString quote cs)
  | c :: cs => if c == quote then ([c], cs) else before [c] (splitString quote cs)

/-- Splits before the end of the line. -/
def splitLine (cs : List Char) : List Char × List Char :=
  (cs.takeWhile (!isLineEnd ·), cs.dropWhile (!isLineEnd ·))

/-- Splits after the first star and slash. -/
def splitBlock : List Char → List Char × List Char
  | [] => ([], [])
  | '*' :: '/' :: cs => (['*', '/'], cs)
  | c :: cs => before [c] (splitBlock cs)

/-- Splits after the slash that closes a pattern. A backslash takes the next character with it, and a
    slash inside a class in square brackets closes nothing. A line end before the slash means that
    there is no pattern. -/
def splitBody? (inClass : Bool) : List Char → Option (List Char × List Char)
  | [] => some ([], [])
  | ['\\'] => some (['\\'], [])
  | '\\' :: c :: cs =>
    if isLineEnd c then none else (splitBody? inClass cs).map (before ['\\', c])
  | c :: cs =>
    if isLineEnd c then none
    else if inClass then (splitBody? (c != ']') cs).map (before [c])
    else if c == '/' then some (['/'], cs)
    else (splitBody? (c == '[') cs).map (before [c])

/-- Splits after a pattern and the flags behind its slash. -/
def splitPattern? (cs : List Char) : Option (List Char × List Char) :=
  (splitBody? false cs).map fun (body, rest) => before body (rest.takeWhile isWord, rest.dropWhile isWord)

theorem splitString_append (quote : Char) (cs : List Char) :
    (splitString quote cs).1 ++ (splitString quote cs).2 = cs := by
  fun_induction splitString quote cs <;> simp_all [before]

theorem splitLine_append (cs : List Char) : (splitLine cs).1 ++ (splitLine cs).2 = cs := by
  simp [splitLine]

theorem splitBlock_append (cs : List Char) : (splitBlock cs).1 ++ (splitBlock cs).2 = cs := by
  fun_induction splitBlock cs <;> simp_all [before]

theorem splitBody?_append {inClass : Bool} {cs : List Char} {split : List Char × List Char}
    (h : splitBody? inClass cs = some split) : split.1 ++ split.2 = cs := by
  fun_induction splitBody? inClass cs generalizing split <;> simp_all [before]
  all_goals grind

theorem splitPattern?_append {cs : List Char} {split : List Char × List Char}
    (h : splitPattern? cs = some split) : split.1 ++ split.2 = cs := by
  obtain ⟨body, hb, rfl⟩ := Option.map_eq_some_iff.1 h
  simp [before, splitBody?_append hb]

end Respace.Script
