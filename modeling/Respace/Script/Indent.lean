import Respace.Script.Layout
import Respace.Script.Lookbehind

/-! The indented form of a script: a line ends after each opening brace, semicolon, comment and comma,
    and where the script's own lines end; a closing brace starts a line. Braces of code set the depth.
    A comma before a closing bracket does not end a line. -/

namespace Respace.Script

open Text

/-- Lines under construction and the depth reached. -/
structure Page where
  draft : Draft
  depth : Nat

/-- The first character that is not blank in the texts of segments. -/
def firstInkOf? (segments : List Segment) : Option Char := segments.findSome? (firstInk? ·.text)

/-- The first character that is not blank in the rest of a text and the segments after it. -/
def nextInk? (cs : List Char) (after : List Segment) : Option Char :=
  firstInk? cs <|> firstInkOf? after

namespace Page

def empty : Page := ⟨.empty, 0⟩

/-- Adds a piece at the depth reached. -/
def add (p : Page) (piece : Segment) : Page := { p with draft := p.draft.add piece p.depth }

/-- Ends the line. -/
def lineBreak (p : Page) : Page := { p with draft := p.draft.lineBreak }

/-- Blanks of code: a space, or the end of the line, with an empty line when the blanks hold one. -/
def blanks (p : Page) (run : List Char) : Page := match lineBreaks run with
  | 0 => { p with draft := p.draft.space }
  | 1 => p.lineBreak
  | _ => { p with draft := p.draft.blankLine }

/-- A character of code that is not blank. `next` is the character that is not blank after it. -/
def char (p : Page) (c : Char) (next : Option Char) : Page :=
  let piece : Segment := ⟨.code, [c]⟩
  if c == '\x7b' then { (p.add piece).lineBreak with depth := p.depth + 1 }
  else if c == '\x7d' then { p.lineBreak with depth := p.depth - 1 }.add piece
  else if c == ';' then (p.add piece).lineBreak
  else if c == ',' && !next.any closeBrackets.contains then (p.add piece).lineBreak
  else p.add piece

/-- Blanks of code, given backwards; none are nothing. -/
def pending (p : Page) (run : List Char) : Page := if run.isEmpty then p else p.blanks run.reverse

/-- Code after the blanks `run`, given backwards, and before the segments `after`. -/
def code (p : Page) (run : List Char) (after : List Segment) : List Char → Page
  | [] => p.pending run
  | c :: cs =>
    if isBlank c then p.code (c :: run) after cs
    else ((p.pending run).char c (if c == ',' then nextInk? cs after else none)).code [] after cs

/-- One segment before others. -/
def segment (p : Page) (s : Segment) (after : List Segment) : Page := match s.kind with
  | .code => p.code [] after s.text
  | .string | .pattern => p.add s
  | .lineComment | .blockComment => (p.add s).lineBreak

/-- All segments of a script. -/
def segments (p : Page) : List Segment → Page
  | [] => p
  | s :: rest => (p.segment s rest).segments rest

end Page

/-- The lines of a script. -/
def draftOf (segments : List Segment) : Draft := (Page.empty.segments segments).draft

/-- The indented form of a script, with `size` spaces for each level of depth. -/
def indented (size : Nat) (segments : List Segment) : List Char := (draftOf segments).render size

end Respace.Script
