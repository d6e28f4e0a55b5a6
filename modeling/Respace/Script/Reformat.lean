import Respace.Json.Conversion
import Respace.Script.Scan
import Respace.Script.Compact
import Respace.Script.Indent

/-! The two forms of a script, each checked before it is handed out: the literals of the new text are
    the literals of the script, in the same order. -/

namespace Respace.Script

/-- Why a form of a script is not handed out. -/
inductive Fault where
  | indentSize (cause : Json.WholeError)
  | tooWide
  | emptyLiteral
  | literalsDiffer
  deriving DecidableEq

def Fault.message : Fault → String
  | indentSize e => e.message
  | tooWide => "cannot fit 'int' into an index-sized integer"
  | emptyLiteral => "string index out of range"
  | literalsDiffer => "literal spans differ"

/-- The greatest size that can be multiplied into an indentation. -/
def widestSize : Int := Int.pow 2 63 - 1

/-- The spaces for each level of depth that a value asks for; none if it is negative. -/
def indentSize (v : Json) : Except Fault Nat :=
  match v.whole with
  | .ok n => .ok n.toNat
  | .error e => .error (.indentSize e)

/-- The indented form of segments. An indentation that is too wide counts only where a line has one. -/
def renderIndented (size : Nat) (segments : List Segment) : Except Fault (List Char) :=
  let draft := (draftOf segments).lineBreak
  if widestSize < size && draft.rows.any (·.any (0 < ·.depth)) then .error .tooWide
  else .ok (draft.render size)

/-- The compact form of segments. -/
def renderCompact (segments : List Segment) : Except Fault (List Char) :=
  if segments.any fun s => s.isLiteral && s.text.isEmpty then .error .emptyLiteral
  else .ok (compact segments)

/-- The indented form of a script. -/
def beautifyChars (size : Except Fault Nat) (text : List Char) : Except Fault (List Char) := do
  if text.isEmpty then return []
  let segments := scan text
  let result ← renderIndented (← size) segments
  if literalTexts (scan result) = literalTexts segments then return result
  else throw .literalsDiffer

/-- The compact form of a script. It is never longer than the script. -/
def minifyChars (text : List Char) : Except Fault (List Char) := do
  if text.isEmpty then return []
  let segments := scan text
  let result ← renderCompact segments
  if result.length ≤ text.length ∧ literalTexts (scan result) = literalTexts segments then return result
  else throw .literalsDiffer

/-- The indented form of a script, with as many spaces for each level of depth as a value asks for. -/
def beautify (size : Json) (text : String) : Except Fault String :=
  (beautifyChars (indentSize size) text.toList).map String.ofList

def minify (text : String) : Except Fault String := (minifyChars text.toList).map String.ofList

end Respace.Script
