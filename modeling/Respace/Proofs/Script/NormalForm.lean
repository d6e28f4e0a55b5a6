import Respace.Proofs.Script.Indentation
import Respace.Proofs.Script.Lines

/-! The normal form of what is indented. The lines that are joined have no blank one at either end and no
    two in a row, and a blank one is empty. Each other line is the row of a group of items behind its indentation: with single spaces
    at the most between two items, with braces, semicolons, commas and comments at the ends where they
    belong, and with no blank at its end unless a literal has it there. It is indented by the depth of
    braces up to its first item, by braces of code alone. -/

namespace Respace.Script

open Text

/-! ### Blank lines -/

/-- Whether no line at either end is blank, nor two in a row, and blank lines are empty. -/
structure BlanksApart (ls : List (List Char)) : Prop where
  empty : ∀ l ∈ ls, isBlankLine l = true → l = []
  first : ∀ l ∈ ls.head?, isBlankLine l = false
  last : ∀ l ∈ ls.getLast?, isBlankLine l = false
  apart : ls.IsChain fun a b => isBlankLine a = true → isBlankLine b = false

namespace BlanksApart

variable {l m : List Char} {ls : List (List Char)}

theorem nil : BlanksApart [] := ⟨nofun, nofun, nofun, .nil⟩

theorem single (hl : isBlankLine l = false) : BlanksApart [l] := by
  refine ⟨by simp [hl], ?_, ?_, .singleton l⟩ <;> rintro _ ⟨⟩ <;> exact hl

/-- A line that is not blank may stand in front, with a blank one behind it or none. -/
theorem cons (h : BlanksApart (m :: ls)) (hl : isBlankLine l = false) (gap : Bool) :
    BlanksApart (l :: ((if gap then [[], m] else [m]) ++ ls)) where
  empty := by
    have hline : isBlankLine l = true → l = [] := by simp [hl]
    cases gap with
    | false => exact List.forall_mem_cons.2 ⟨hline, h.empty⟩
    | true => exact List.forall_mem_cons.2 ⟨hline, List.forall_mem_cons.2 ⟨fun _ => rfl, h.empty⟩⟩
  first := by
    rintro _ ⟨⟩
    exact hl
  last := by cases gap <;> exact h.last
  apart := by
    have hnext : ∀ n, isBlankLine l = true → isBlankLine n = false := by simp [hl]
    cases gap with
    | false => exact List.isChain_cons_cons.2 ⟨hnext m, h.apart⟩
    | true =>
      refine List.isChain_cons_cons.2 ⟨hnext [], List.isChain_cons_cons.2 ⟨fun _ => ?_, h.apart⟩⟩
      exact h.first m rfl

theorem collapseAfter (gap : Bool) (ls : List (List Char)) (hl : isBlankLine l = false) :
    BlanksApart (l :: Script.collapseAfter gap ls) := by
  induction ls generalizing l gap with
  | nil => exact single hl
  | cons m ls ih =>
    rw [Script.collapseAfter]
    cases hm : isBlankLine m with
    | true => exact ih true hl
    | false => exact (ih false hm).cons hl gap

theorem collapseBlankLines (ls : List (List Char)) : BlanksApart (Script.collapseBlankLines ls) := by
  induction ls with
  | nil => exact nil
  | cons l ls ih =>
    cases hl : isBlankLine l with
    | true =>
      rw [collapseBlankLines_cons_blank hl]
      exact ih
    | false =>
      rw [collapseBlankLines_cons_ink hl]
      exact collapseAfter false ls hl

end BlanksApart

theorem filter_collapseAfter (gap : Bool) (ls : List (List Char)) :
    (collapseAfter gap ls).filter (!isBlankLine ·) = ls.filter (!isBlankLine ·) := by
  induction ls generalizing gap with
  | nil => rfl
  | cons l ls ih =>
    have hn : isBlankLine [] = true := rfl
    cases hl : isBlankLine l <;> cases gap <;> simp [collapseAfter, hl, hn, ih]

theorem filter_collapseBlankLines (ls : List (List Char)) :
    (collapseBlankLines ls).filter (!isBlankLine ·) = ls.filter (!isBlankLine ·) := by
  induction ls with
  | nil => rfl
  | cons l ls ih =>
    cases hl : isBlankLine l with
    | true => simp [collapseBlankLines_cons_blank hl, hl, ih]
    | false => simp [collapseBlankLines_cons_ink hl, hl, filter_collapseAfter]

/-! ### Closed lines -/

/-- The lines that a script comes to, before blank ones are collapsed. -/
def closedLines (size : Nat) (text : List Char) : List (List Char) :=
  (draftOf (scan text)).lineBreak.texts size

/-- The lines that are not blank are those that items stand in. -/
theorem filter_rowTexts (size : Nat) {rows : List (Option Line)} (h : ∀ l, some l ∈ rows → l.Inked) :
    (rowTexts size rows).filter (!isBlankLine ·) = rows.reduceOption.reverse.map (·.text size) := by
  induction rows with
  | nil => rfl
  | cons row rows ih =>
    have hrows := ih fun l hl => h l (List.mem_cons_of_mem _ hl)
    rw [rowTexts_cons, List.filter_append, hrows]
    cases row with
    | none =>
      rw [List.reduceOption_cons_of_none]
      exact List.append_nil _
    | some l =>
      have hl : isBlankLine (l.text size) = false := by
        rw [Line.isBlankLine_text]
        exact h l (List.mem_cons_self ..)
      rw [List.reduceOption_cons_of_some]
      simp [hl]

/-! ### Rows of items -/

/-- Whether a line is a row of items behind `width` spaces: ink follows the spaces, and there is nothing or
    one space between two items. Comments are written without the blanks they end in. -/
def IsRow (width : Nat) (line : List Char) (group : List Spot) : Prop :=
  ∃ c cs, line = List.replicate width ' ' ++ c :: cs ∧ isBlank c = false ∧
    Spaced (group.map (·.item.trimmed.text)) (c :: cs)

theorem isBlank_getLast?_trimEnd {cs : List Char} {c : Char} (hc : c ∈ (trimEnd cs).getLast?) :
    isBlank c = false := by
  have hne : cs.rdropWhile isBlank ≠ [] := by
    intro hn
    rw [trimEnd, ← List.rdropWhile, hn] at hc
    cases hc
  have hlast := List.rdropWhile_last_not isBlank cs hne
  rw [trimEnd, ← List.rdropWhile, List.getLast?_eq_some_getLast hne] at hc
  rw [← Option.some.inj hc]
  exact Bool.not_eq_true _ ▸ hlast

namespace Spot.Stands

variable {x : Spot}

theorem text_ne_nil (h : x.Stands) : x.item.trimmed.text ≠ [] := by
  obtain ⟨c, cs, ds, -, hd, -⟩ := h.fits.exists_ink_trimmed h.ink
  simp [hd]

/-- An item that is no literal ends in ink as it is written. -/
theorem exists_ink_last (h : x.Stands) (hl : x.item.literal? = none) :
    ∃ c ∈ x.item.trimmed.text.getLast?, isBlank c = false := by
  have hne := h.text_ne_nil
  obtain ⟨before, item, after⟩ := x
  cases item with
  | char c => exact ⟨c, rfl, h.ink⟩
  | lexeme s =>
    have hs : s.isComment = true := by
      cases h.fits <;> first | rfl | cases hl
    rw [Item.trimmed_comment hs] at hne ⊢
    exact ⟨_, List.getLast?_eq_some_getLast hne,
      isBlank_getLast?_trimEnd (List.getLast?_eq_some_getLast hne)⟩

end Spot.Stands

namespace Line.IsMadeOf

variable {l : Line} {group : List Spot}

theorem exists_first (h : l.IsMadeOf group) : ∃ first, group.head? = some first := by
  cases group with
  | nil => exact absurd rfl h.written.ne_nil
  | cons first group => exact ⟨first, rfl⟩

theorem isRow (h : l.IsMadeOf group) {first : Spot} (hf : group.head? = some first) (size : Nat) :
    IsRow (size * first.depth) (l.text size) group := by
  have hfirst := h.stands first (List.mem_of_mem_head? hf)
  obtain ⟨c, cs, ds, -, hd, hc⟩ := hfirst.fits.exists_ink_trimmed hfirst.ink
  have hhead : (group.map (·.item.trimmed.text)).head? = some first.item.trimmed.text := by
    rw [List.head?_map, hf]
    rfl
  obtain ⟨es, hcontent⟩ := List.head?_eq_some_iff.1 (h.written.head? hhead (c := c) (by rw [hd]; rfl))
  refine ⟨c, es, ?_, hc, hcontent ▸ h.written⟩
  rw [Line.text, h.depth first hf, hcontent, ← Int.natCast_mul, Int.toNat_natCast]

/-- A line ends in ink unless its last item is a literal. -/
theorem exists_ink_last (h : l.IsMadeOf group) {last : Spot} (hx : group.getLast? = some last)
    (hl : last.item.literal? = none) (size : Nat) : ∃ c ∈ (l.text size).getLast?, isBlank c = false := by
  have hlast := h.stands last (List.mem_of_getLast? hx)
  obtain ⟨c, hc, hi⟩ := hlast.exists_ink_last hl
  have hmap : (group.map (·.item.trimmed.text)).getLast? = some last.item.trimmed.text := by
    rw [List.getLast?_map, hx]
    rfl
  have hcontent := h.written.getLast? hmap hlast.text_ne_nil
  refine ⟨c, ?_, hi⟩
  rw [Line.text, List.getLast?_append, hcontent, Option.mem_def.1 hc]
  rfl

theorem eq_nil_of_endsLine (h : l.IsMadeOf group) {xs ys : List Spot} {x : Spot}
    (hg : group = xs ++ x :: ys) (hx : x.endsLine = true) : ys = [] := by
  cases ys with
  | nil => rfl
  | cons y ys =>
    have hchain := h.chain
    rw [hg] at hchain
    have hnext := (List.isChain_cons_cons.1 (List.isChain_append.1 hchain).2.1).1.1
    rw [hx] at hnext
    cases hnext

theorem eq_nil_of_startsLine (h : l.IsMadeOf group) {xs ys : List Spot} {x : Spot}
    (hg : group = xs ++ x :: ys) (hx : x.item.startsLine = true) : xs = [] := by
  rcases List.eq_nil_or_concat xs with rfl | ⟨xs, w, rfl⟩
  · rfl
  · have hchain := h.chain
    rw [hg, List.concat_eq_append] at hchain
    have hnext := ((List.isChain_append.1 hchain).2.2 w List.getLast?_concat x rfl).2
    rw [hx] at hnext
    cases hnext

end Line.IsMadeOf

/-! ### The normal form -/

/-- Whether a line is a row of items in normal form: it ends in ink unless its last item is a literal;
    behind an opening brace, a semicolon and a comment it ends, and so it does behind a comma unless the
    next ink of the script closes a bracket; a closing brace starts it. -/
structure IsNeat (line : List Char) (group : List Spot) : Prop where
  row : ∃ width, IsRow width line group
  code : ∀ x ∈ group, ∀ c, x.item = .char c → isBlank c = false
  trimmed : ∀ x ∈ group.getLast?, x.item.literal? = none → ∃ c ∈ line.getLast?, isBlank c = false
  ending : ∀ xs x ys, group = xs ++ x :: ys →
    (x.item = .char '\x7b' ∨ x.item = .char ';' ∨ ∃ s, x.item = .lexeme s ∧ s.isComment = true) →
      ys = []
  closing : ∀ xs x ys, group = xs ++ x :: ys → x.item = .char '\x7d' → xs = []
  comma : ∀ xs x ys, group = xs ++ x :: ys → x.item = .char ',' →
    (∀ c ∈ firstInk? (textOf x.after), c ∉ closeBrackets) → ys = []

theorem Line.IsMadeOf.isNeat {l : Line} {group : List Spot} (h : l.IsMadeOf group) (size : Nat) :
    IsNeat (l.text size) group where
  row := by
    obtain ⟨first, hf⟩ := h.exists_first
    exact ⟨_, h.isRow hf size⟩
  code x hx c hc := by
    have hink := (h.stands x hx).ink
    rwa [hc] at hink
  trimmed x hx hl := h.exists_ink_last hx hl size
  ending xs x ys hg hx := by
    refine h.eq_nil_of_endsLine hg ?_
    rcases hx with hx | hx | ⟨s, hx, hs⟩ <;> rw [Spot.endsLine, hx]
    · rfl
    · rfl
    · exact hs
  closing xs x ys hg hx := by
    refine h.eq_nil_of_startsLine hg ?_
    rw [hx]
    rfl
  comma xs x ys hg hx hnext := by
    refine h.eq_nil_of_endsLine hg ?_
    rw [Spot.endsLine, hx]
    cases hink : firstInk? (textOf x.after) with
    | none => rfl
    | some c => simpa [Item.endsLine] using hnext c hink

/-- The lines of a script that are not blank are made of groups of its items. -/
theorem exists_groups_closedLines (size : Nat) (text : List Char) :
    ∃ groups, groups.flatten = spotsOf text ∧
      List.Forall₂ (fun line group => ∃ l : Line, l.IsMadeOf group ∧ line = l.text size)
        ((closedLines size text).filter (!isBlankLine ·)) groups := by
  obtain ⟨groups, hflat, hlines, hstands⟩ := exists_groups text
  refine ⟨groups, hflat, ?_⟩
  have hfilter : (closedLines size text).filter (!isBlankLine ·) =
      (draftOf (scan text)).lines.reverse.map (·.text size) :=
    filter_rowTexts size hstands.lineBreak.rows.inked
  rw [hfilter, List.forall₂_map_left_iff]
  exact hlines.imp fun l group h => ⟨l, h, rfl⟩

theorem renderIndented_eq_joinLines {size : Nat} (hs : size ≤ 8) (text : List Char) :
    renderIndented size (scan text) = .ok (joinLines (collapseBlankLines (closedLines size text))) :=
  renderIndented_eq (le_widestSize hs) _

/-- The indented form of a script is in normal form: its lines are joined, blank ones are empty and stand
    apart and inside, and each other line is a neat row of a group of items. Together the groups are all items of
    the script but the blanks of code, in their order. -/
theorem exists_isNeat (text : List Char) {size : Nat} (hs : size ≤ 8) :
    ∃ lines, renderIndented size (scan text) = .ok (joinLines lines) ∧
      lines = collapseBlankLines (closedLines size text) ∧ BlanksApart lines ∧
      ∃ groups, groups.flatten = spotsOf text ∧
        List.Forall₂ IsNeat (lines.filter (!isBlankLine ·)) groups := by
  obtain ⟨groups, hflat, hlines⟩ := exists_groups_closedLines size text
  refine ⟨_, renderIndented_eq_joinLines hs text, rfl, .collapseBlankLines _, groups, hflat, ?_⟩
  rw [filter_collapseBlankLines]
  refine hlines.imp ?_
  rintro line group ⟨l, hl, rfl⟩
  exact hl.isNeat size

theorem exists_isNeat_three :
    let text := "a \x7b f(1 , 2, ) ; '\x7b ' // \x7d \n\n\r\n\t\x7d\x7d".toList
    3 ≤ 8 ∧ ∃ lines, renderIndented 3 (scan text) = .ok (joinLines lines) ∧
      lines = collapseBlankLines (closedLines 3 text) ∧ BlanksApart lines ∧
      ∃ groups, groups.flatten = spotsOf text ∧
        List.Forall₂ IsNeat (lines.filter (!isBlankLine ·)) groups := by
  intro text
  exact ⟨by decide, exists_isNeat text (by decide)⟩

/-! ### The depth of lines -/

/-- Each closed line that is not blank is indented by the depth of braces of code up to its first item, a
    closing brace that starts it included. -/
theorem exists_isRow (text : List Char) {size : Nat} (hs : size ≤ 8) :
    renderIndented size (scan text) = .ok (joinLines (collapseBlankLines (closedLines size text))) ∧
      ∃ groups, groups.flatten = spotsOf text ∧
        List.Forall₂ (fun line group => ∃ first, group.head? = some first ∧
            IsRow (size * first.depth) line group)
          ((closedLines size text).filter (!isBlankLine ·)) groups := by
  obtain ⟨groups, hflat, hlines⟩ := exists_groups_closedLines size text
  refine ⟨renderIndented_eq_joinLines hs text, groups, hflat, hlines.imp ?_⟩
  rintro line group ⟨l, hl, rfl⟩
  obtain ⟨first, hf⟩ := hl.exists_first
  exact ⟨first, hf, hl.isRow hf size⟩

theorem exists_isRow_four :
    let text := "\x7d a \x7b\x7b'\x7b' /* \x7d */ b \x7d c \x7d\x7d d".toList
    4 ≤ 8 ∧
      renderIndented 4 (scan text) = .ok (joinLines (collapseBlankLines (closedLines 4 text))) ∧
      ∃ groups, groups.flatten = spotsOf text ∧
        List.Forall₂ (fun line group => ∃ first, group.head? = some first ∧
            IsRow (4 * first.depth) line group)
          ((closedLines 4 text).filter (!isBlankLine ·)) groups := by
  intro text
  exact ⟨by decide, exists_isRow text (by decide)⟩

/-- A closing brace too many leaves the depth at zero. -/
example : indented 2 (scan "\x7ba\x7d\x7d b\x7b'\x7b'".toList) =
    "\x7b\n  a\n\x7d\n\x7d b\x7b\n  '\x7b'".toList := by
  decide +kernel

end Respace.Script
