/-! The parts of a script: code, the two kinds of literals and the two kinds of comments. -/

namespace Respace.Script

/-- What a part of a script is. -/
inductive Kind where
  | code | string | pattern | lineComment | blockComment
  deriving DecidableEq

/-- The name of a kind. -/
def Kind.name : Kind → String
  | code => "code"
  | string => "string"
  | pattern => "pattern"
  | lineComment => "line_comment"
  | blockComment => "block_comment"

def Kind.ofName? (name : String) : Option Kind :=
  [code, string, pattern, lineComment, blockComment].find? (·.name == name)

/-- A part of a script: the characters it covers, delimiters included. -/
structure Segment where
  kind : Kind
  text : List Char
  deriving DecidableEq

namespace Segment

/-- Strings and patterns, whose characters are kept as they are. -/
def isLiteral (s : Segment) : Bool := s.kind == .string || s.kind == .pattern

/-- Comments of either kind. -/
def isComment (s : Segment) : Bool := s.kind == .lineComment || s.kind == .blockComment

end Segment

/-- The text that segments cover together. -/
def sourceText (segments : List Segment) : List Char := segments.flatMap (·.text)

/-- The texts of the literals among segments, in order. -/
def literalTexts (segments : List Segment) : List (List Char) :=
  (segments.filter (·.isLiteral)).map (·.text)

end Respace.Script
