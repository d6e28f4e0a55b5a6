import Respace.Script.Segment
import Respace.Script.Lookbehind
import Respace.Script.Lexeme

/-! The segments of a script. Quotes, and slashes that open a comment or a pattern, start a lexeme of
    their own; all between them is code. Nothing is lost: the texts of the segments together are the
    script. -/

namespace Respace.Script

open Text

/-- Quotes that delimit a string. -/
def quoteChars : List Char := ['"', '\'', '\x60']

/-- A lexeme: its kind, its opening characters and its body, and what follows it. -/
def lexeme (kind : Kind) (opening : List Char) (split : List Char × List Char) : Segment × List Char :=
  (⟨kind, opening ++ split.1⟩, split.2)

/-- The literal or comment that a text starts with, and what follows it. -/
def lexeme? (last : Lookbehind) : List Char → Option (Segment × List Char)
  | [] => none
  | '/' :: '/' :: cs => some (lexeme .lineComment ['/', '/'] (splitLine cs))
  | '/' :: '*' :: cs => some (lexeme .blockComment ['/', '*'] (splitBlock cs))
  | c :: cs =>
    if quoteChars.contains c then some (lexeme .string [c] (splitString c cs))
    else if c == '/' && last.opensPattern then (splitPattern? cs).map (lexeme .pattern ['/'])
    else none

/-- A lexeme and what follows it are the text together, and no lexeme is empty. -/
theorem lexeme?_spec {last : Lookbehind} {cs rest : List Char} {s : Segment}
    (h : lexeme? last cs = some (s, rest)) : s.text ++ rest = cs ∧ s.text ≠ [] := by
  unfold lexeme? at h
  split at h
  · simp at h
  · simp only [lexeme, Option.some.injEq, Prod.mk.injEq] at h
    obtain ⟨rfl, rfl⟩ := h
    simp [splitLine_append]
  · simp only [lexeme, Option.some.injEq, Prod.mk.injEq] at h
    obtain ⟨rfl, rfl⟩ := h
    simp [splitBlock_append]
  · rename_i c cs _ _
    split at h
    · simp only [lexeme, Option.some.injEq, Prod.mk.injEq] at h
      obtain ⟨rfl, rfl⟩ := h
      simp [splitString_append]
    · split at h
      · rename_i hc
        obtain ⟨split, hs, he⟩ := Option.map_eq_some_iff.1 h
        simp only [lexeme, Prod.mk.injEq] at he
        obtain ⟨rfl, rfl⟩ := he
        simp_all [splitPattern?_append hs]
      · simp at h

theorem lexeme?_length_lt {last : Lookbehind} {cs rest : List Char} {s : Segment}
    (h : lexeme? last cs = some (s, rest)) : rest.length < cs.length := by
  obtain ⟨rfl, hs⟩ := lexeme?_spec h
  have := List.length_pos_iff.2 hs
  simp [List.length_append]
  omega

/-- The code read so far, given backwards, in front of the segments after it. -/
def withCode (code : List Char) (segments : List Segment) : List Segment :=
  if code.isEmpty then segments else ⟨.code, code.reverse⟩ :: segments

/-- The last token after a lexeme: comments leave it as it was. -/
def Lookbehind.after (last : Lookbehind) (s : Segment) : Lookbehind :=
  if s.isLiteral then .literal else last

/-- The last token after a character of code that ends the text `back`, given backwards. -/
def Lookbehind.afterCode (last : Lookbehind) (c : Char) (back : List Char) : Lookbehind :=
  if isBlank c then last else .code (c :: back)

/-- The segments of the rest of a script. `seen` is the text before it and `code` the code that it goes
    on with, both backwards. -/
def scanFrom (seen : List Char) (last : Lookbehind) (code : List Char) (cs : List Char) :
    List Segment :=
  match h : lexeme? last cs with
  | some (s, rest) =>
    have : rest.length < cs.length := lexeme?_length_lt h
    withCode code (s :: scanFrom (s.text.reverseAux seen) (last.after s) [] rest)
  | none =>
    match cs with
    | [] => withCode code []
    | c :: rest => scanFrom (c :: seen) (last.afterCode c seen) (c :: code) rest
termination_by cs.length

/-- The segments of a script. -/
def scan (text : List Char) : List Segment := scanFrom [] .start [] text

end Respace.Script
