import Respace.Proofs.Script.Spacing
import Respace.Script.Layout

/-! The text of a draft grows by one piece at a time: behind what is written already there comes the gap
    that the draft has noted, and then the piece. Blanks that are noted and line breaks write nothing by
    themselves.

    Closed lines are kept latest first, with `none` for an empty one. No line is blank, and the first is
    not empty, so that collapsing the blank lines leaves each of them in its place. -/

namespace Respace.Script

open Text

/-! ### Lines as one text -/

theorem joinLines_append {ls : List (List Char)} (hls : ls ≠ []) (l : List Char)
    (ms : List (List Char)) : joinLines (ls ++ l :: ms) = joinLines ls ++ '\n' :: joinLines (l :: ms) := by
  induction ls with
  | nil => exact absurd rfl hls
  | cons a ls ih =>
    cases ls with
    | nil => simp [joinLines, joinWith, List.intercalate_cons_cons]
    | cons b ls =>
      have hj : ∀ ns : List (List Char), joinLines (a :: b :: ns) = a ++ '\n' :: joinLines (b :: ns) := by
        intro ns
        simp [joinLines, joinWith, List.intercalate_cons_cons]
      rw [List.cons_append, List.cons_append, hj, ← List.cons_append, ih (by simp), hj]
      simp

theorem collapseAfter_blank {l : List Char} (hl : isBlankLine l = true) (gap : Bool)
    (ls : List (List Char)) : collapseAfter gap (ls ++ [l]) = collapseAfter gap ls := by
  induction ls generalizing gap with
  | nil => simp [collapseAfter, hl]
  | cons a ls ih =>
    rw [List.cons_append, collapseAfter, collapseAfter, ih, ih]

theorem collapseAfter_ink {l : List Char} (hl : isBlankLine l = false) (gap : Bool)
    (ls : List (List Char)) :
    collapseAfter gap (ls ++ [l]) =
      collapseAfter gap ls ++ if (ls.getLast?.map isBlankLine).getD gap then [[], l] else [l] := by
  induction ls generalizing gap with
  | nil => cases gap <;> simp [collapseAfter, hl]
  | cons a ls ih =>
    have hlast : ((a :: ls).getLast?.map isBlankLine).getD gap =
        (ls.getLast?.map isBlankLine).getD (isBlankLine a) := by
      cases ls with
      | nil => rfl
      | cons b ls => simp [List.getLast?_cons]
    rw [List.cons_append, collapseAfter, collapseAfter, ih, ih, hlast]
    cases ha : isBlankLine a
    · simp
    · simp

theorem collapseBlankLines_cons_blank {l : List Char} (hl : isBlankLine l = true)
    (ls : List (List Char)) : collapseBlankLines (l :: ls) = collapseBlankLines ls := by
  simp [collapseBlankLines, hl]

theorem collapseBlankLines_cons_ink {l : List Char} (hl : isBlankLine l = false)
    (ls : List (List Char)) : collapseBlankLines (l :: ls) = l :: collapseAfter false ls := by
  simp [collapseBlankLines, hl]

theorem collapseBlankLines_blank {l : List Char} (hl : isBlankLine l = true) (ls : List (List Char)) :
    collapseBlankLines (ls ++ [l]) = collapseBlankLines ls := by
  induction ls with
  | nil => exact collapseBlankLines_cons_blank hl []
  | cons a ls ih =>
    rw [List.cons_append]
    cases ha : isBlankLine a with
    | true => rw [collapseBlankLines_cons_blank ha, collapseBlankLines_cons_blank ha, ih]
    | false =>
      rw [collapseBlankLines_cons_ink ha, collapseBlankLines_cons_ink ha, collapseAfter_blank hl]

/-! ### The text of closed lines -/

namespace Line

/-- Whether something stands in a line. -/
def Inked (l : Line) : Prop := isBlankLine l.content = false

theorem isBlankLine_text (l : Line) (size : Nat) : isBlankLine (l.text size) = isBlankLine l.content := by
  have hs : isBlank ' ' = true := by decide
  simp [isBlankLine, text, List.all_append, List.all_replicate, hs]

end Line

/-- The closed lines of a draft, latest first, as lines of text. -/
def rowTexts (size : Nat) (rows : List (Option Line)) : List (List Char) :=
  rows.reverse.map fun row => row.elim [] (·.text size)

/-- The text of closed lines. -/
def textOfRows (size : Nat) (rows : List (Option Line)) : List Char :=
  joinLines (collapseBlankLines (rowTexts size rows))

theorem rowTexts_cons (size : Nat) (row : Option Line) (rows : List (Option Line)) :
    rowTexts size (row :: rows) = rowTexts size rows ++ [row.elim [] (·.text size)] := by
  simp [rowTexts]

theorem textOfRows_none (size : Nat) (rows : List (Option Line)) :
    textOfRows size (none :: rows) = textOfRows size rows := by
  rw [textOfRows, rowTexts_cons, collapseBlankLines_blank rfl, textOfRows]

/-- Closed lines that are not blank, with a first one that is not empty. -/
structure RowsStand (rows : List (Option Line)) : Prop where
  inked : ∀ l, some l ∈ rows → l.Inked
  first : rows.getLast? ≠ some none

theorem RowsStand.some {rows : List (Option Line)} (h : RowsStand rows) {l : Line} (hl : l.Inked) :
    RowsStand (some l :: rows) := by
  refine ⟨fun m hm => ?_, ?_⟩
  · rcases List.mem_cons.1 hm with he | hm
    · exact Option.some.inj he ▸ hl
    · exact h.inked m hm
  · cases rows with
    | nil => simp
    | cons r rows => rw [List.getLast?_cons_cons]; exact h.first

theorem RowsStand.none {rows : List (Option Line)} (h : RowsStand rows) (hr : rows ≠ []) :
    RowsStand (none :: rows) := by
  refine ⟨fun m hm => h.inked m (by simpa using hm), ?_⟩
  cases rows with
  | nil => exact absurd rfl hr
  | cons r rows => rw [List.getLast?_cons_cons]; exact h.first

/-- What stands between closed lines and a line behind them. -/
def leadOf : List (Option Line) → List Char
  | [] => []
  | none :: _ => ['\n', '\n']
  | some _ :: _ => ['\n']

/-- The text of closed lines and one more, given as a text that is not blank. -/
theorem joinLines_rowTexts {size : Nat} {rows : List (Option Line)} (h : RowsStand rows)
    {l : List Char} (hl : isBlankLine l = false) :
    joinLines (collapseBlankLines (rowTexts size rows ++ [l])) =
      textOfRows size rows ++ leadOf rows ++ l := by
  rcases List.eq_nil_or_concat rows with rfl | ⟨later, first, rfl⟩
  · simp [rowTexts, collapseBlankLines, hl, collapseAfter, textOfRows, joinLines, joinWith, leadOf]
  · rw [List.concat_eq_append] at h ⊢
    cases first with
    | none => exact absurd (by simp) h.first
    | some a =>
      have ha : isBlankLine (a.text size) = false := by
        rw [Line.isBlankLine_text]
        exact h.inked a (by simp)
      have hrows : rowTexts size (later ++ [some a]) = a.text size :: rowTexts size later := by
        simp [rowTexts]
      rw [textOfRows, hrows, List.cons_append, collapseBlankLines_cons_ink ha,
        collapseBlankLines_cons_ink ha, collapseAfter_ink hl]
      cases later with
      | nil => simp [rowTexts, collapseAfter, joinLines, joinWith, leadOf, List.intercalate_cons_cons]
      | cons r later =>
        rw [rowTexts_cons, List.getLast?_append_of_ne_nil _ (by simp), List.getLast?_singleton,
          Option.map_some, Option.getD_some, ← List.cons_append]
        cases r with
        | none =>
          have hn : isBlankLine [] = true := rfl
          rw [Option.elim_none, if_pos hn, joinLines_append (by simp)]
          simp [joinLines, joinWith, leadOf, List.intercalate_cons_cons]
        | some b =>
          have hb : isBlankLine (b.text size) = false := by
            rw [Line.isBlankLine_text]
            exact h.inked b (by simp)
          rw [if_neg (by simp [hb]), joinLines_append (by simp)]
          simp [joinLines, joinWith, leadOf]

/-! ### Pieces of a line -/

/-- The piece of a line that an item is. -/
def Item.piece : Item → Segment
  | char c => ⟨.code, [c]⟩
  | lexeme s => s

theorem trimEnd_append_ink (cs : List Char) {c : Char} (hc : isBlank c = false) (ds : List Char) :
    trimEnd (cs ++ c :: ds) = cs ++ trimEnd (c :: ds) := by
  have hn : (c :: ds).reverse.dropWhile isBlank ≠ [] := by
    intro he
    have ht := trimEnd_cons hc ds
    rw [trimEnd, he] at ht
    simp at ht
  rw [trimEnd, trimEnd, List.reverse_append, List.dropWhile_append, if_neg (by simpa using hn)]
  simp

namespace Line

theorem written_some (depth : Int) (s : Segment) (ps : List (Option Segment)) :
    (Line.mk depth (some s :: ps)).written = (Line.mk depth ps).written ++ s.text := by
  simp [written]

theorem written_none (depth : Int) (ps : List (Option Segment)) :
    (Line.mk depth (none :: ps)).written = (Line.mk depth ps).written ++ [' '] := by
  simp [written]

/-- The last item of a line is written as it is, but for the blanks that a comment ends in. -/
theorem content_piece {x : Item} {rest : List Char} (h : x.Fits rest) (hb : x.isBlank = false)
    (depth : Int) (ps : List (Option Segment)) :
    (Line.mk depth (some x.piece :: ps)).content = (Line.mk depth ps).written ++ x.trimmed.text := by
  obtain ⟨c, cs, hc, hi⟩ := h.exists_ink hb
  have ht := trimEnd_append_ink (Line.mk depth ps).written hi cs
  cases x with
  | char d =>
    obtain ⟨rfl, rfl⟩ := List.cons.inj hc
    rw [trimEnd_cons hi] at ht
    exact (congrArg trimEnd (written_some depth _ ps)).trans ht
  | lexeme s =>
    have hs : s.text = c :: cs := hc
    cases hl : s.isComment with
    | true =>
      have hn : s.isLiteral = false := by
        obtain ⟨kind, text⟩ := s
        cases kind <;> first | rfl | cases hl
      simp only [content, Item.piece, hn, Item.trimmed_comment hl, Item.text, written_some, hs, ht]
      rfl
    | false =>
      have hn : s.isLiteral = true := by cases h <;> first | rfl | cases hl
      simp only [content, Item.piece, hn, Item.trimmed_of_not_isComment hl, Item.text, written_some]
      rfl

theorem closed_space (l : Line) : l.space.closed = l.closed := by
  obtain ⟨depth, pieces⟩ := l
  cases pieces with
  | nil => rfl
  | cons p ps => cases p <;> rfl

theorem closed_piece (depth : Int) (s : Segment) (ps : List (Option Segment)) :
    (Line.mk depth (some s :: ps)).closed = Line.mk depth (some s :: ps) := rfl

theorem inked_piece {x : Item} {rest : List Char} (h : x.Fits rest) (hb : x.isBlank = false)
    (depth : Int) (ps : List (Option Segment)) : (Line.mk depth (some x.piece :: ps)).Inked := by
  obtain ⟨c, cs, ds, hc, hd, hi⟩ := h.exists_ink_trimmed hb
  rw [Inked, content_piece h hb, hd]
  simp [isBlankLine, hi]

end Line

/-! ### Drafts -/

namespace Draft

/-- Whether no line of a draft is blank, and an open line is written as it is when it is closed. -/
structure Stands (d : Draft) : Prop where
  rows : RowsStand d.rows
  inked : ∀ l, d.current = some l → l.closed.Inked
  firm : ∀ l, d.current = some l → l.closed.content = l.closed.written

/-- The gap that a draft has noted; there is none before the first line. -/
def gap? (d : Draft) : Option Gap := match d.current, d.rows with
  | some l, _ => some (if l.pieces.head? = some none then .space else .nothing)
  | none, [] => none
  | none, none :: _ => some .emptyLine
  | none, some _ :: _ => some .line

/-- A draft with a gap behind it. -/
def leave (d : Draft) : Gap → Draft
  | .nothing => d
  | .space => d.space
  | .line => d.lineBreak
  | .emptyLine => d.blankLine

variable {d : Draft}

theorem render_eq (d : Draft) (size : Nat) : d.render size = textOfRows size d.lineBreak.rows := rfl

theorem lineBreak_lineBreak (d : Draft) : d.lineBreak.lineBreak = d.lineBreak := by
  obtain ⟨rows, current⟩ := d
  cases current <;> rfl

theorem current_lineBreak (d : Draft) : d.lineBreak.current = none := by
  obtain ⟨rows, current⟩ := d
  cases current <;> rfl

theorem lineBreak_space (d : Draft) : d.space.lineBreak = d.lineBreak := by
  obtain ⟨rows, current⟩ := d
  cases current with
  | none => rfl
  | some l => simp [space, lineBreak, Line.closed_space]

/-- Gaps write nothing by themselves. -/
theorem render_leave (d : Draft) (g : Gap) (size : Nat) : (d.leave g).render size = d.render size := by
  cases g with
  | nothing => rfl
  | space => rw [render_eq, render_eq, leave, lineBreak_space]
  | line => rw [render_eq, render_eq, leave, lineBreak_lineBreak]
  | emptyLine =>
    rw [render_eq, render_eq, leave, blankLine]
    split
    · rw [lineBreak_lineBreak]
    · rw [lineBreak, current_lineBreak, textOfRows_none]

theorem Stands.lineBreak (h : d.Stands) : d.lineBreak.Stands := by
  obtain ⟨rows, current⟩ := d
  cases current with
  | none => exact h
  | some l => exact ⟨h.rows.some (h.inked l rfl), nofun, nofun⟩

theorem Stands.leave (h : d.Stands) (g : Gap) : (d.leave g).Stands := by
  cases g with
  | nothing => exact h
  | space =>
    obtain ⟨rows, current⟩ := d
    cases current with
    | none => exact h
    | some l =>
      refine ⟨h.rows, fun m hm => ?_, fun m hm => ?_⟩ <;>
      · obtain rfl := Option.some.inj hm
        rw [Line.closed_space]
        first | exact h.inked l rfl | exact h.firm l rfl
  | line => exact h.lineBreak
  | emptyLine =>
    rw [Draft.leave, blankLine]
    split
    · exact h.lineBreak
    · rename_i hr
      exact ⟨h.lineBreak.rows.none (by simpa using hr), h.lineBreak.inked, h.lineBreak.firm⟩

/-- A draft that is left at the end of an item, or before its first line, notes the gap that follows. -/
theorem gap?_leave {left : Option Bool} (h : d.gap? = left.map fun b => Gap.nothing.widened b)
    (g : Gap) : (d.leave g).gap? = left.map fun b => g.widened b := by
  obtain ⟨rows, current⟩ := d
  cases current with
  | none =>
    rcases rows with _ | ⟨_ | l, rows⟩
    · cases left with
      | none => cases g <;> rfl
      | some b => simp [gap?] at h
    · rcases left with _ | _ | _ <;> simp [gap?, Gap.widened] at h
    · rcases left with _ | _ | _
      · simp [gap?] at h
      · simp [gap?, Gap.widened] at h
      · cases g <;> rfl
  | some l =>
    by_cases hl : l.pieces.head? = some none
    · rcases left with _ | _ | _ <;> simp [gap?, hl, Gap.widened] at h
    · rcases left with _ | _ | _
      · simp [gap?] at h
      · obtain ⟨k, pieces⟩ := l
        rcases pieces with _ | ⟨_ | s, pieces⟩
        · cases g <;> rfl
        · exact absurd rfl hl
        · cases g <;> rfl
      · simp [gap?, hl, Gap.widened] at h

theorem gap?_lineBreak (d : Draft) : d.lineBreak.gap? = d.gap?.map (·.widened true) := by
  obtain ⟨rows, current⟩ := d
  cases current with
  | none =>
    cases rows with
    | nil => rfl
    | cons r rows => cases r <;> rfl
  | some l =>
    simp only [lineBreak, gap?, Option.map_some]
    split <;> rfl

theorem gap?_add (d : Draft) (s : Segment) (depth : Int) : (d.add s depth).gap? = some .nothing := by
  obtain ⟨rows, current⟩ := d
  cases current <;> rfl

theorem render_add (h : d.Stands) {x : Item} {rest : List Char} (hx : x.Fits rest)
    (hb : x.isBlank = false) {depth : Nat} (hd : d.gap? = none → depth = 0) (size : Nat) :
    (d.add x.piece depth).render size =
      d.render size ++ d.gap?.elim [] (·.text (size * depth)) ++ x.trimmed.text := by
  have hrow : ∀ (k : Int) (ps : List (Option Segment)),
      textOfRows size (some ⟨k, some x.piece :: ps⟩ :: d.rows) =
        textOfRows size d.rows ++ leadOf d.rows ++
          (List.replicate (size * k).toNat ' ' ++ ((Line.mk k ps).written ++ x.trimmed.text)) := by
    intro k ps
    have hi : isBlankLine ((Line.mk k (some x.piece :: ps)).text size) = false := by
      rw [Line.isBlankLine_text]
      exact Line.inked_piece hx hb k ps
    rw [textOfRows, rowTexts_cons, Option.elim_some, joinLines_rowTexts h.rows hi, Line.text,
      Line.content_piece hx hb]
  obtain ⟨rows, current⟩ := d
  cases current with
  | none =>
    -- a new line: the gap is what leads to it, with its indentation
    have hk : (size * (depth : Int)).toNat = size * depth := by
      rw [← Int.natCast_mul, Int.toNat_natCast]
    have hw : (Line.mk (depth : Int) []).written = [] := rfl
    change textOfRows size (some ⟨depth, [some x.piece]⟩ :: rows) = textOfRows size rows ++ _ ++ _
    rw [hrow, hk, hw]
    rcases rows with _ | ⟨_ | l, rows⟩
    · simp [gap?, leadOf, hd rfl]
    · simp [gap?, leadOf, Gap.text]
    · simp [gap?, leadOf, Gap.text]
  | some l =>
    obtain ⟨k, pieces⟩ := l
    have hc := h.firm _ rfl
    have hl : isBlankLine ((Line.mk k pieces).closed.text size) = false := by
      rw [Line.isBlankLine_text]
      exact h.inked _ rfl
    have hr : (Draft.mk rows (some ⟨k, pieces⟩)).render size =
        textOfRows size rows ++ leadOf rows ++
          (List.replicate (size * k).toNat ' ' ++ (Line.mk k pieces).closed.written) := by
      change textOfRows size (some (Line.mk k pieces).closed :: rows) = _
      rw [textOfRows, rowTexts_cons, Option.elim_some, joinLines_rowTexts h.rows hl, Line.text, hc]
      rcases pieces with _ | ⟨_ | s, pieces⟩ <;> rfl
    change textOfRows size (some ⟨k, some x.piece :: pieces⟩ :: rows) = _
    rw [hrow, hr]
    rcases pieces with _ | ⟨_ | s, pieces⟩
    · simp [gap?, Gap.text, Line.closed]
    · simp [gap?, Gap.text, Line.closed, Line.written_none]
    · simp [gap?, Gap.text, Line.closed]

/-- A draft stands behind an item that ends its line where it has to. -/
theorem stands_add (h : d.Stands) {x : Item} {rest : List Char} (hx : x.Fits rest)
    (hb : x.isBlank = false) (depth : Int) (next : Option Char) :
    (if x.endsLine next then (d.add x.piece depth).lineBreak else d.add x.piece depth).Stands := by
  have hadd : ∃ k ps, d.add x.piece depth = ⟨d.rows, some ⟨k, some x.piece :: ps⟩⟩ := by
    obtain ⟨rows, current⟩ := d
    cases current with
    | none => exact ⟨depth, [], rfl⟩
    | some l => exact ⟨l.depth, l.pieces, rfl⟩
  obtain ⟨k, ps, he⟩ := hadd
  have hi := Line.inked_piece hx hb k ps
  rw [he]
  split
  · exact ⟨h.rows.some hi, nofun, nofun⟩
  · rename_i hn
    have ht : x.trimmed = x := by
      by_contra ht
      exact hn (Item.endsLine_of_trimmed_ne ht next)
    refine ⟨h.rows, fun l hl => ?_, fun l hl => ?_⟩
    · obtain rfl := Option.some.inj hl
      exact hi
    · obtain rfl := Option.some.inj hl
      rw [Line.closed_piece, Line.content_piece hx hb, ht, Line.written_some]
      cases x <;> rfl

end Draft

end Respace.Script
