import Respace.Proofs.Script.Compaction
import Respace.Proofs.Script.Indentation

/-! A script has the same compact form whether it is indented before or not. Laying out a script moves no
    token and drops no gap between two tokens; the gaps that it adds stand behind a brace, a semicolon, a
    comma or a comment, or in front of a closing brace, and there no two tokens have to stay apart. -/

namespace Respace.Script

open Text

/-! ### Tokens that never stand apart -/

theorem lastOf_eq (last : Option Token) : lastOf last = [] ∨ ∃ c, lastOf last = [c] := by
  cases last with
  | none => exact .inl rfl
  | some t =>
    rw [lastOf]
    cases t.text.getLast? with
    | none => exact .inl rfl
    | some c => exact .inr ⟨c, rfl⟩

theorem keepApart_none (t : Token) : keepApart none t = false := rfl

theorem keepApart_closingBrace (last : Option Token) : keepApart last (.char '\x7d') = false := by
  have hw : isWordText ['\x7d'] = false := by decide
  have hr : (Token.char '\x7d').text.head?.toList = ['\x7d'] := rfl
  rw [keepApart, hr]
  rcases lastOf_eq last with h | ⟨c, h⟩ <;> rw [h]
  · rfl
  · simp [needsSpace, hw, fusingPairs]

/-- No token has to stay apart from a brace, semicolon or comma in front of it. -/
theorem keepApart_of_mem {c : Char} (hc : c ∈ ['\x7b', ';', ',']) (t : Token) :
    keepApart (some (.char c)) t = false := by
  simp only [List.mem_cons, List.not_mem_nil, or_false] at hc
  have hw : isWordText ['\x7b'] = false ∧ isWordText [';'] = false ∧ isWordText [','] = false := by decide
  have hd : isDigits ['\x7b'] = false ∧ isDigits [';'] = false ∧ isDigits [','] = false := by decide
  have hl : lastOf (some (.char c)) = [c] := rfl
  rw [keepApart, hl]
  rcases hc with rfl | rfl | rfl <;> cases t.text.head? <;>
    simp [needsSpace, Token.isPattern, fusingPairs, hw, hd]

/-! ### Compaction of what is laid out -/

theorem compactItems_chars {cs : List Char} (hcs : ∀ c ∈ cs, isBlank c = true) (last : Option Token)
    (gap : Bool) (ys : List Item) :
    compactItems last gap (cs.map .char ++ ys) = compactItems last (gap || !cs.isEmpty) ys := by
  induction cs generalizing gap with
  | nil => simp
  | cons c cs ih =>
    rw [List.forall_mem_cons] at hcs
    have hc : (Item.char c).token? = none := by simp [Item.token?, charToken?, hcs.1]
    rw [List.map_cons, List.cons_append, compactItems_gap hc, ih hcs.2]
    simp

theorem Gap.isEmpty_text_ofRun (run : List Char) (width : Nat) :
    ((ofRun run).text width).isEmpty = run.isEmpty := by
  have h : ∀ g : Gap, (g.text width).isEmpty = true ↔ g = nothing := by
    intro g
    cases g <;> simp [text]
  rw [Bool.eq_iff_iff, h, ofRun_eq_nothing, List.isEmpty_iff]

theorem Item.trimmed_of_token? {x : Item} {t : Token} (h : x.token? = some t) : x.trimmed = x := by
  cases x with
  | char c => rfl
  | lexeme s =>
    obtain ⟨kind, text⟩ := s
    cases kind <;> first | rfl | cases h

/-- An item that is neither a token nor a blank is a comment: it ends its line, and stays a gap. -/
theorem Item.endsLine_of_token? {x : Item} {rest : List Char} (h : x.Fits rest)
    (hb : x.isBlank = false) (ht : x.token? = none) (next : Option Char) :
    x.endsLine next = true ∧ x.trimmed.token? = none := by
  cases x with
  | char c =>
    have hc : Text.isBlank c = false := hb
    simp [token?, charToken?, hc] at ht
  | lexeme s => cases h <;> first | exact ⟨rfl, rfl⟩ | cases ht

/-- Whether a gap in front of the next item counts alike in the script, where `gap` tells of one and the
    blanks `run` are passed, and in what is laid out, where `gapThere` does. -/
def GapsAlike (left : Option Bool) (run : List Char) (last : Option Token) (gap gapThere : Bool) : Prop :=
  (∀ t, keepApart last t = false) ∨
    match left with
    | none => False
    | some false => gap = (gapThere || !run.isEmpty)
    | some true => gap = true ∧ gapThere = true

section

variable {left : Option Bool} {run : List Char} {last : Option Token} {gap gapThere : Bool}
  {reached size : Nat} {x : Item} {xs : List Item}

theorem GapsAlike.blank (h : GapsAlike left run last gap gapThere) (c : Char) :
    GapsAlike left (run ++ [c]) last true gapThere := by
  refine h.imp_right fun h => ?_
  rcases left with _ | _ | _
  · exact h
  · simp
  · exact ⟨rfl, h.2⟩

/-- A token stands apart in what is laid out just when it does in the script. -/
theorem GapsAlike.keepApart_eq (h : GapsAlike left run last gap gapThere) {t : Token}
    (hx : x.token? = some t) (width : Nat) :
    ((gapThere || !((gapBefore left run x).text width).isEmpty) && keepApart last t) =
      (gap && keepApart last t) := by
  rcases h with h | h
  · simp [h t]
  rcases left with _ | _ | _
  · exact h.elim
  · cases hs : x.startsLine with
    | true =>
      obtain rfl := eq_of_beq hs
      obtain rfl := Option.some.inj hx
      rw [keepApart_closingBrace, Bool.and_false, Bool.and_false]
    | false => rw [gapBefore_of_open rfl hs, Gap.isEmpty_text_ofRun, h]
  · rw [h.1, h.2, Bool.true_or]

/-- Behind a token that is written in place a gap counts in both. -/
theorem GapsAlike.token {t : Token} (hx : x.token? = some t) (next : Option Char) :
    GapsAlike (some (x.endsLine next)) [] (some t) false false := by
  cases he : x.endsLine next with
  | false => exact .inr rfl
  | true =>
    left
    cases x with
    | char c =>
      obtain ⟨-, rfl⟩ := charToken?_eq_some_iff.1 hx
      have hc : c ∈ ['\x7b', ';', ','] := by
        simp only [Item.endsLine, Bool.or_eq_true, Bool.and_eq_true, beq_iff_eq] at he
        rcases he with (rfl | rfl) | ⟨rfl, -⟩ <;> simp
      exact keepApart_of_mem hc
    | lexeme s =>
      obtain ⟨kind, text⟩ := s
      cases kind with
      | code | lineComment | blockComment => cases hx
      | string | pattern => cases he

/-- What is laid out has the compact form of the script. -/
theorem compactItems_laidOut (h : AllFit xs) (hg : GapsAlike left run last gap gapThere) :
    compactItems last gapThere (laidOut size (stops left run reached xs)) = compactItems last gap xs := by
  induction xs generalizing left run last gap gapThere reached with
  | nil => rfl
  | cons x xs ih =>
    cases hx : x.isBlank with
    | true =>
      obtain ⟨c, rfl, hc⟩ := Item.exists_char_of_isBlank hx
      have ht : (Item.char c).token? = none := by simp [Item.token?, charToken?, hc]
      rw [stops_blank hx, compactItems_gap ht]
      exact ih h.2 (hg.blank c)
    | false =>
      rw [stops_ink hx, laidOut_cons, compactItems_chars fun _ => isBlank_gap]
      cases ht : x.token? with
      | some t =>
        rw [Item.trimmed_of_token? ht, compactItems_token ht, compactItems_token ht,
          hg.keepApart_eq ht, ih h.2 (.token ht _)]
      | none =>
        obtain ⟨he, ht'⟩ := Item.endsLine_of_token? h.1 hx ht (firstInk? (textOf xs))
        rw [compactItems_gap ht', compactItems_gap ht, he]
        exact ih h.2 (.inr ⟨rfl, rfl⟩)

end

/-- The compact form of the indented form is that of the script. -/
theorem HasPlainBlanks.compact_indented {text : List Char} (h : HasPlainBlanks text)
    (hh : HoldsSlashes [] .start (itemsOf (scan text))) (size : Nat) :
    compact (scan (indented size (scan text))) = compact (scan text) := by
  rw [← textOf_compactOf, ← textOf_compactOf, compactOf, h.itemsOf_scan hh]
  exact congrArg textOf (compactItems_laidOut (allFit_scan text) (.inl keepApart_none))

/-- A script is compacted alike before and after it is indented. -/
theorem minify_beautified {text : String} (h : HasPlainBlanks text.toList) {n : Nat} (hn : n ≤ 8) :
    minify (beautified n text) = minify text := by
  by_cases hh : HoldsSlashes [] .start (itemsOf (scan text.toList))
  · have hl := (h.literalTexts_iff n).2 hh
    have ht := toList_beautified (le_widestSize hn) text
    rw [if_pos hl] at ht
    rw [minify, minify, minifyChars_eq, minifyChars_eq, ht, h.compact_indented hh, hl]
  · have ht := toList_beautified (le_widestSize hn) text
    rw [if_neg (mt (h.literalTexts_iff n).1 hh), String.toList_inj] at ht
    rw [ht]

theorem minify_beautified_four :
    HasPlainBlanks "a = \x7bb : / c/ / d,\x7d\r\nreturn /* e */ f".toList ∧ 4 ≤ 8 ∧
      minify (beautified 4 "a = \x7bb : / c/ / d,\x7d\r\nreturn /* e */ f") =
        minify "a = \x7bb : / c/ / d,\x7d\r\nreturn /* e */ f" :=
  have h : HasPlainBlanks "a = \x7bb : / c/ / d,\x7d\r\nreturn /* e */ f".toList := by decide +kernel
  ⟨h, by decide, minify_beautified h (by decide)⟩

end Respace.Script
