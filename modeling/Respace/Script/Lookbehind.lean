import Respace.Text.Alphanumeric

/-! Whether a slash opens a pattern or divides. The answer depends on the last token before it, comments
    apart: a pattern stands where an expression may start. -/

namespace Respace.Script

open Text

/-- What the last token before a slash is. -/
inductive Category where
  | start | operator | openBracket | closeBracket | separator | keyword | identifier | postfixOp
  | literal | other
  deriving DecidableEq

namespace Category

def name : Category → String
  | start => "start"
  | operator => "operator"
  | openBracket => "open_bracket"
  | closeBracket => "close_bracket"
  | separator => "separator"
  | keyword => "keyword"
  | identifier => "identifier"
  | postfixOp => "postfix"
  | literal => "literal"
  | other => "other"

/-- Whether a slash after such a token opens a pattern. -/
def opensPattern : Category → Bool
  | start | operator | openBracket | separator | keyword => true
  | _ => false

end Category

/-- Words after which an expression may start. -/
def expressionKeywords : List (List Char) :=
  ["return", "typeof", "instanceof", "in", "of", "new", "delete", "void", "throw", "case", "do",
    "else", "yield", "await"].map String.toList

/-- Characters of operators. -/
def operatorChars : List Char := "=+-*/%^<>!&|?:~".toList

def openBrackets : List Char := ['(', '[', '\x7b']

def closeBrackets : List Char := [')', ']', '\x7d']

/-- Characters between items and between statements. -/
def separatorChars : List Char := [',', ';']

/-- Whether a text, given backwards, ends in one of the expression keywords. After a point the word is
    the name of a member, whatever it is. -/
def endsInKeyword (back : List Char) : Bool :=
  let before := (back.dropWhile isWord).dropWhile fun c => c == ' ' || c == '\t'
  before.head? != some '.' && expressionKeywords.contains (back.takeWhile isWord).reverse

/-- The category of the token in which a text, given backwards, ends. -/
def categoryOf : List Char → Category
  | [] => .start
  | c :: back =>
    if (c == '+' || c == '-') && back.head? == some c then .postfixOp
    else if operatorChars.contains c then .operator
    else if openBrackets.contains c then .openBracket
    else if closeBrackets.contains c then .closeBracket
    else if separatorChars.contains c then .separator
    else if isWord c then
      if endsInKeyword (c :: back) then .keyword else .identifier
    else .other

/-- The last token seen by a reader of a script: none yet, a literal, or the code that the text up to
    there, given backwards, ends in. -/
inductive Lookbehind where
  | start
  | literal
  | code (back : List Char)

namespace Lookbehind

/-- The category of the last token. -/
def category : Lookbehind → Category
  | start => .start
  | literal => .literal
  | code back => categoryOf back

/-- Whether a slash after the last token opens a pattern. -/
def opensPattern (last : Lookbehind) : Bool := last.category.opensPattern

end Lookbehind

/-- The category of the token that ends at a position of a text. There is none before the text, and no
    answer after it. -/
def categoryAt? (text : List Char) (position : Int) : Option Category :=
  if position < 0 then some .start
  else if position < text.length then some (categoryOf (text.take (position.toNat + 1)).reverse)
  else none

end Respace.Script
