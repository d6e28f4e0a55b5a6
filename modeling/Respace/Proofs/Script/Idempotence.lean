import Respace.Proofs.Script.Compaction

/-! When a second compaction changes nothing. A script is its own compact form just when it is tight: it
    has no comment, and its blanks are single spaces between tokens that have to stay apart. The compact
    form of a script that keeps its slashes is tight.

    Where a slash does not keep its part, the second run may find a comment or a needless space in what
    was a pattern before: `/`, a line end and `/ /*` become `/ / /*` and then `/ /`. -/

namespace Respace.Script

open Text

/-- The compact form of a script, or the script itself where the form is not handed out. -/
def minified (text : String) : String := (minify text).toOption.getD text

/-- Whether items after a last token, behind a space when `spaced`, are tight: each gap is one space, and
    the tokens at its two ends have to stay apart. -/
def IsTight (last : Option Token) (spaced : Bool) : List Item → Prop
  | [] => spaced = false
  | x :: xs => match x.token? with
    | none => x = .char ' ' ∧ spaced = false ∧ IsTight last true xs
    | some t => (spaced = true → keepApart last t = true) ∧ IsTight (some t) false xs

theorem isTight_gap {x : Item} (hx : x.token? = none) {last : Option Token} {spaced : Bool}
    {xs : List Item} :
    IsTight last spaced (x :: xs) ↔ x = .char ' ' ∧ spaced = false ∧ IsTight last true xs := by
  rw [IsTight, hx]

theorem isTight_token {x : Item} {t : Token} (hx : x.token? = some t) {last : Option Token}
    {spaced : Bool} {xs : List Item} :
    IsTight last spaced (x :: xs) ↔
      (spaced = true → keepApart last t = true) ∧ IsTight (some t) false xs := by
  rw [IsTight, hx]

theorem isTight_compactItems (xs : List Item) (last : Option Token) (gap : Bool) :
    IsTight last false (compactItems last gap xs) := by
  induction xs generalizing last gap with
  | nil => rfl
  | cons x xs ih =>
    cases ht : x.token? with
    | none =>
      rw [compactItems_gap ht]
      exact ih last true
    | some t =>
      have hs : (Item.char ' ').token? = none := by decide
      rw [compactItems_token ht]
      split
      · rename_i hk
        rw [Bool.and_eq_true] at hk
        exact (isTight_gap hs).2 ⟨rfl, rfl, (isTight_token ht).2 ⟨fun _ => hk.2, ih (some t) false⟩⟩
      · exact (isTight_token ht).2 ⟨by simp, ih (some t) false⟩

theorem IsTight.textOf_compactItems {xs : List Item} {last : Option Token} {spaced : Bool}
    (h : IsTight last spaced xs) :
    textOf (compactItems last spaced xs) = (if spaced then [' '] else []) ++ textOf xs := by
  induction xs generalizing last spaced with
  | nil => simp [compactItems, show spaced = false from h]
  | cons x xs ih =>
    cases ht : x.token? with
    | none =>
      obtain ⟨rfl, rfl, hxs⟩ := (isTight_gap ht).1 h
      rw [compactItems_gap ht, ih hxs]
      rfl
    | some t =>
      obtain ⟨hk, hxs⟩ := (isTight_token ht).1 h
      rw [compactItems_token ht, textOf_append, textOf_cons, textOf_cons, ih hxs]
      cases spaced
      · rfl
      · rw [hk rfl]
        rfl

/-- Behind a gap the compact form goes on with a space or with ink. -/
theorem isBlank_head?_compactItems {xs : List Item} (h : AllFit xs) {last : Option Token} {c : Char}
    (hc : (textOf (compactItems last true xs)).head? = some c) : c = ' ' ∨ isBlank c = false := by
  induction xs with
  | nil => simp [compactItems] at hc
  | cons x xs ih =>
    cases ht : x.token? with
    | none =>
      rw [compactItems_gap ht] at hc
      exact ih h.2 hc
    | some t =>
      rw [compactItems_token ht] at hc
      split at hc
      · exact .inl (by simpa [Item.text] using hc.symm)
      · right
        rw [List.nil_append, head?_textOf_cons h.1.text_ne_nil] at hc
        cases x with
        | char d =>
          obtain rfl : d = c := by simpa [Item.text] using hc
          exact (charToken?_eq_some_iff.1 ht).1
        | lexeme s => exact Item.isBlank_head?_lexeme h.1 hc

theorem exists_char_of_token? {x : Item} {rest : List Char} (hx : x.Fits rest) (ht : x.token? = none)
    (hlen : x.text.length = 1) : ∃ c, x = .char c ∧ isBlank c = true := by
  cases x with
  | char c =>
    refine ⟨c, rfl, ?_⟩
    by_contra hc
    simp [Item.token?, charToken?, hc] at ht
  | lexeme s => cases hx <;> simp [Item.token?, Item.text] at ht hlen

theorem isTight_of_textOf {xs : List Item} (hx : AllFit xs) {last : Option Token} {spaced : Bool}
    (h : textOf (compactItems last spaced xs) = (if spaced then [' '] else []) ++ textOf xs) :
    IsTight last spaced xs := by
  induction xs generalizing last spaced with
  | nil => cases spaced <;> simp_all [compactItems, IsTight]
  | cons x xs ih =>
    have hpos := List.length_pos_iff.2 hx.1.text_ne_nil
    have hlen := congrArg List.length h
    cases ht : x.token? with
    | none =>
      -- one space at most comes for the gap, so that nothing but a single blank can stand there
      have hle := length_compactItems_le hx.2 last true
      rw [compactItems_gap ht] at h hlen
      rw [List.length_append, textOf_cons, List.length_append] at hlen
      rw [Bool.toNat_true] at hle
      obtain ⟨c, rfl, hc⟩ := exists_char_of_token? hx.1 ht (by omega)
      cases spaced with
      | true => simp [Item.text] at hlen; omega
      | false =>
        have hh : (textOf (compactItems last true xs)).head? = some c := by rw [h]; rfl
        rcases isBlank_head?_compactItems hx.2 hh with rfl | hb
        · exact (isTight_gap ht).2 ⟨rfl, rfl, ih hx.2 h⟩
        · simp [hc] at hb
    | some t =>
      have hle := length_compactItems_le hx.2 (some t) false
      rw [compactItems_token ht, textOf_append, textOf_cons, textOf_cons] at h
      rw [isTight_token ht]
      cases spaced with
      | false => exact ⟨by simp, ih hx.2 (by simpa using h)⟩
      | true =>
        cases hk : keepApart last t with
        | true => exact ⟨fun _ => rfl, ih hx.2 (by simpa [hk, Item.text] using h)⟩
        | false =>
          rw [compactItems_token ht] at hlen
          simp [hk] at hlen
          simp at hle
          omega

/-- A script is its own compact form just when it is tight. -/
theorem compact_eq_iff (text : List Char) :
    compact (scan text) = text ↔ IsTight none false (itemsOf (scan text)) := by
  rw [← textOf_compactOf, compactOf]
  have ht := (reads_scan text).2
  constructor
  · intro h
    exact isTight_of_textOf (allFit_scan text) (by rw [h, ht]; rfl)
  · intro h
    rw [h.textOf_compactItems, ht]
    rfl

theorem toList_minified (text : String) :
    (minified text).toList =
      if literalTexts (scan (compact (scan text.toList))) = literalTexts (scan text.toList) then
        compact (scan text.toList)
      else text.toList := by
  rw [minified, minify, minifyChars_eq]
  split <;> simp [Except.map, Except.toOption]

/-- A second compaction changes nothing just when each slash of the script keeps its part, or the second
    compact form is not handed out, or what the first run leaves is tight as it is read then. -/
theorem minified_minified_iff (text : String) :
    minified (minified text) = minified text ↔
      KeepsSlashes text.toList ∨ (minify (minified text)).toOption = none ∨
        IsTight none false (itemsOf (scan (minified text).toList)) := by
  have hfix : minified (minified text) = minified text ↔
      (minify (minified text)).toOption = none ∨
        compact (scan (minified text).toList) = (minified text).toList := by
    rw [← String.toList_inj, toList_minified (minified text), minify, minifyChars_eq]
    split <;> simp [Except.map, Except.toOption]
  rw [hfix, compact_eq_iff]
  refine ⟨.inr, Or.rec (fun hk => .inr ?_) id⟩
  -- the compact form is handed out then, and reads as it was put together
  have hl : literalTexts (scan (compact (scan text.toList))) = literalTexts (scan text.toList) := by
    rw [literalTexts_eq_tokens, literalTexts_eq_tokens, (tokens_compact_iff _).2 hk]
  rw [toList_minified, if_pos hl, hk.itemsOf_scan]
  exact isTight_compactItems _ none false

/-- The star behind a pattern becomes the star of a comment, which the second run drops. -/
theorem minified_minified_ne :
    minified "/\n/ /*" = "/ / /*" ∧ minified (minified "/\n/ /*") = "/ /" ∧
      minified (minified "/\n/ /*") ≠ minified "/\n/ /*" := by
  decide +kernel

end Respace.Script
