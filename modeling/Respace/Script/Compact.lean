import Respace.Script.Segment
import Respace.Text.Alphanumeric
import Respace.Text.Split

/-! A script as a run of tokens and gaps, and its compact form. A token is one character of code or one whole
    literal; blanks of code and comments are gaps. In the compact form a space stands only where two tokens
    would otherwise run together. -/

namespace Respace.Script

open Text

/-! ### Tokens -/

/-- A token: a character of code, or a literal. -/
inductive Token where
  | char (c : Char)
  | literal (isPattern : Bool) (text : List Char)
  deriving DecidableEq

namespace Token

def text : Token → List Char
  | char c => [c]
  | literal _ s => s

/-- Whether a token is a pattern. -/
def isPattern : Token → Bool
  | char _ => false
  | literal b _ => b

end Token

/-- A character of code as a token, or as a gap. -/
def charToken? (c : Char) : Option Token := if isBlank c then none else some (.char c)

/-- The tokens of a segment, with `none` for each gap. -/
def Segment.tokens (s : Segment) : List (Option Token) := match s.kind with
  | .code => s.text.map charToken?
  | .string => [some (.literal false s.text)]
  | .pattern => [some (.literal true s.text)]
  | .lineComment | .blockComment => [none]

/-- The tokens of a script, with `none` for each gap. -/
def tokensWithGaps (segments : List Segment) : List (Option Token) := segments.flatMap (·.tokens)

/-! ### The compact form -/

/-- Pairs of characters that mean something else once they stand together. -/
def fusingPairs : List (List Char) := [['+', '+'], ['-', '-'], ['/', '/'], ['/', '*']]

/-- Whether a text is not empty and belongs to a word as a whole. -/
def isWordText (s : List Char) : Bool :=
  (!s.isEmpty && s.all isAlphanumeric) || s == ['_'] || s == ['$']

/-- Whether the gap between two texts has to stay: two words, a pattern and what would read as its
    flags, two characters that fuse, or a number and a point. -/
def needsSpace (left right : List Char) (afterPattern : Bool) : Bool :=
  !left.isEmpty && !right.isEmpty &&
    (isWordText right && (afterPattern || isWordText left) ||
      fusingPairs.contains (left ++ right) || (isDigits left && right == ['.']))

/-- The last character of a token, as a text; empty before the first token. -/
def lastOf (last : Option Token) : List Char :=
  match last with
  | none => []
  | some t => t.text.getLast?.toList

/-- Whether two neighbouring tokens have to stay apart. -/
def keepApart (last : Option Token) (next : Token) : Bool :=
  needsSpace (lastOf last) next.text.head?.toList (last.any (·.isPattern))

/-- The compact form of tokens after a last one, which a gap follows when `gap`. -/
def compactAfter (last : Option Token) (gap : Bool) : List (Option Token) → List Char
  | [] => []
  | none :: rest => compactAfter last true rest
  | some t :: rest =>
    (if gap && keepApart last t then [' '] else []) ++ t.text ++ compactAfter (some t) false rest

/-- The compact form of a script. -/
def compact (segments : List Segment) : List Char :=
  compactAfter none false (tokensWithGaps segments)

end Respace.Script
