import Respace.Script.Lexeme
import Respace.Script.Indent

/-! Where a lexeme ends that starts at a given position of a text. Positions count characters; those
    below zero count from the end of the text, and reading goes on at its start. -/

namespace Respace.Script

/-- What is read from a position on: nothing behind the text, and no answer before it. -/
def readFrom? (text : List Char) (position : Int) : Option (List Char) :=
  if 0 ≤ position then some (text.drop position.toNat)
  else
    let back := (-position).toNat
    if back ≤ text.length then some (text.drop (text.length - back) ++ text) else none

/-- The position after `count` characters from a position, which lies in the text or before it. -/
def positionAfter (text : List Char) (start : Int) (count : Nat) : Int :=
  if (text.length : Int) ≤ start then text.length else start + count

/-- The end of the string that starts with the character at a position. -/
def stringEnd? (text : List Char) (start : Int) : Option Int := do
  let quote ← (← readFrom? text start).head?
  let (body, _) := splitString quote (← readFrom? text (start + 1))
  return positionAfter text (start + 1) body.length

/-- The end of the line comment that starts at a position. -/
def lineCommentEnd? (text : List Char) (start : Int) : Option Int := do
  let (body, _) := splitLine (← readFrom? text (start + 2))
  return start + 2 + body.length

/-- The end of the block comment that starts at a position. -/
def blockCommentEnd (text : List Char) (start : Int) : Int :=
  let first := if 0 ≤ start + 2 then start + 2 else max 0 (text.length + start + 2)
  positionAfter text first (splitBlock (text.drop first.toNat)).1.length

/-- The end of the pattern that starts at a position; none if there is no pattern. -/
def patternEnd? (text : List Char) (start : Int) : Option (Option Int) := do
  let cs ← readFrom? text (start + 1)
  return (splitPattern? cs).map fun (body, _) => positionAfter text (start + 1) body.length

/-- A position is outside the list of segments, or outside the text of one. -/
inductive OutOfRange where
  | segment
  | character
  deriving DecidableEq

/-- The first character that is not blank, from a position of a segment on. -/
def nextInkAt (segments : List Segment) (index position : Int) : Except OutOfRange (Option Char) :=
  let place := if index < 0 then segments.length + index else index
  if place < 0 then .error .segment
  else match segments[place.toNat]? with
    | none => .error .segment
    | some s => match readFrom? s.text position with
      | none => .error .character
      | some cs => .ok (nextInk? cs (if index = -1 then segments else segments.drop (place.toNat + 1)))

end Respace.Script
