import Respace.Script.Segment
import Respace.Text.Split

/-! Lines of a script under construction. A line has the depth of its first piece; blanks between
    pieces become one space, which is written only when a piece follows. -/

namespace Respace.Script

open Text

/-- A line: its depth, and its pieces with `none` for each space between them, latest first. -/
structure Line where
  depth : Int
  pieces : List (Option Segment)

namespace Line

/-- The pieces of a line, together. -/
def written (l : Line) : List Char :=
  l.pieces.reverse.flatMap fun p => p.elim [' '] (·.text)

/-- A line without its indentation. Blanks at its end are dropped unless they belong to a literal. -/
def content (l : Line) : List Char :=
  match l.pieces with
  | some s :: _ => if s.isLiteral then l.written else trimEnd l.written
  | _ => trimEnd l.written

/-- A line with `size` spaces for each level of depth. -/
def text (size : Nat) (l : Line) : List Char :=
  List.replicate (size * l.depth).toNat ' ' ++ l.content

/-- Whether the indentation of a line is beyond what a text can hold. -/
def isTooWide (size : Nat) (l : Line) : Bool :=
  size * l.depth < -Int.pow 2 63 || Int.pow 2 63 ≤ size * l.depth

/-- Notes a space after the last piece. -/
def space (l : Line) : Line := match l.pieces with
  | none :: _ => l
  | ps => { l with pieces := none :: ps }

/-- A line that nothing is added to any more: a space that no piece followed is dropped. -/
def closed (l : Line) : Line := match l.pieces with
  | none :: ps => { l with pieces := ps }
  | _ => l

end Line

/-- Lines under construction: the closed ones, latest first and `none` for an empty one, and the line
    that is open. -/
structure Draft where
  rows : List (Option Line)
  current : Option Line

namespace Draft

def empty : Draft := ⟨[], none⟩

/-- Adds a piece to the open line, or opens a line with it at the given depth. -/
def add (d : Draft) (piece : Segment) (depth : Int) : Draft := match d.current with
  | none => { d with current := some ⟨depth, [some piece]⟩ }
  | some l => { d with current := some { l with pieces := some piece :: l.pieces } }

/-- Notes a space in the open line; a line does not start with one. -/
def space (d : Draft) : Draft := { d with current := d.current.map (·.space) }

/-- Closes the open line. -/
def lineBreak (d : Draft) : Draft := match d.current with
  | none => d
  | some l => ⟨some l.closed :: d.rows, none⟩

/-- Closes the open line and puts an empty one below it. The first line is not empty. -/
def blankLine (d : Draft) : Draft :=
  let d := d.lineBreak
  if d.rows.isEmpty then d else { d with rows := none :: d.rows }

/-- Whether the open line cannot be closed. -/
def isStuck (size : Nat) (d : Draft) : Bool := d.current.any (·.isTooWide size)

/-- The closed lines, as texts. -/
def texts (size : Nat) (d : Draft) : List (List Char) :=
  d.rows.reverse.map fun row => row.elim [] (·.text size)

end Draft

/-- Whether a line holds nothing but blanks. -/
def isBlankLine (l : List Char) : Bool := l.all isBlank

/-- The lines that follow one that is not blank; `gap` tells that blank ones were passed over. -/
def collapseAfter (gap : Bool) : List (List Char) → List (List Char)
  | [] => []
  | l :: ls =>
    if isBlankLine l then collapseAfter true ls
    else (if gap then [[], l] else [l]) ++ collapseAfter false ls

/-- Lines with one empty line for each run of blank ones, and none at the two ends. -/
def collapseBlankLines (ls : List (List Char)) : List (List Char) :=
  match ls.dropWhile isBlankLine with
  | [] => []
  | l :: ls => l :: collapseAfter false ls

/-- Lines as one text, with a line feed between two of them. -/
def joinLines (ls : List (List Char)) : List Char := joinWith '\n' ls

/-- The text of the lines of a draft, its open line included. -/
def Draft.render (size : Nat) (d : Draft) : List Char :=
  joinLines (collapseBlankLines (d.lineBreak.texts size))

end Respace.Script
