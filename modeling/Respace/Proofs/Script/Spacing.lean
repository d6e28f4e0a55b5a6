import Mathlib.Data.List.DropRight
import Respace.Proofs.Script.Slash
import Respace.Text.Split

/-! The indented form of a script as a run of stops: its items without the blanks of its code, each with
    the depth of its line and the gap in front of it. A gap is nothing, a space, a line break or an empty
    line; it is read off the blanks that stand there and widened to a line break where a line has to end.

    Stops do not depend on the size of the indentation. Laid out with any size, their items fit, and the
    stops of what is laid out are the same again. -/

namespace Respace.Script

open Text

/-! ### Gaps -/

/-- What stands between two items. -/
inductive Gap where
  | nothing | space | line | emptyLine
  deriving DecidableEq

namespace Gap

/-- What a run of blanks comes to. -/
def ofRun (run : List Char) : Gap :=
  if run = [] then nothing else match lineBreaks run with
    | 0 => space
    | 1 => line
    | _ => emptyLine

/-- A gap, made a line break at least when `ended`. -/
def widened (ended : Bool) : Gap → Gap
  | nothing => if ended then line else nothing
  | space => if ended then line else space
  | line => line
  | emptyLine => emptyLine

/-- A gap in front of a line that is indented by `width`. -/
def text (width : Nat) : Gap → List Char
  | nothing => []
  | space => [' ']
  | line => '\n' :: List.replicate width ' '
  | emptyLine => '\n' :: '\n' :: List.replicate width ' '

/-- Whether a gap ends a line. -/
def endsLine : Gap → Bool
  | nothing | space => false
  | line | emptyLine => true

theorem lineBreaks_spaces (width : Nat) : lineBreaks (List.replicate width ' ') = 0 := by
  induction width with
  | zero => rfl
  | succ width ih => simpa [List.replicate_succ, lineBreaks, isLineEnd] using ih

theorem ofRun_text (g : Gap) (width : Nat) : ofRun (g.text width) = g := by
  cases g <;> simp [text, ofRun, lineBreaks, lineBreaks_spaces, isLineEnd]

theorem widened_widened (a b : Bool) (g : Gap) : (g.widened a).widened b = g.widened (a || b) := by
  cases g <;> cases a <;> cases b <;> rfl

theorem widened_false (g : Gap) : g.widened false = g := by
  cases g <;> rfl

theorem endsLine_widened (b : Bool) (g : Gap) : (g.widened b).endsLine = (b || g.endsLine) := by
  cases g <;> cases b <;> rfl

theorem isBlank_of_mem_text {g : Gap} {width : Nat} {c : Char} (hc : c ∈ g.text width) :
    c = ' ' ∨ c = '\n' := by
  cases g <;> simp only [text, List.mem_cons, List.not_mem_nil, List.mem_replicate, or_false] at hc
  · exact .inl hc
  · exact hc.symm.imp_left (·.2)
  · rcases hc with hc | hc | hc
    · exact .inr hc
    · exact .inr hc
    · exact .inl hc.2

theorem any_isLineEnd_text (g : Gap) (width : Nat) : (g.text width).any isLineEnd = g.endsLine := by
  cases g <;> simp [text, endsLine, isLineEnd]

end Gap

theorem lineBreaks_eq_zero_iff (cs : List Char) : lineBreaks cs = 0 ↔ cs.any isLineEnd = false := by
  fun_induction lineBreaks cs with
  | case1 => simp
  | case2 cs ih => simp [isLineEnd]
  | case3 c cs h hc ih => simp [hc]
  | case4 c cs h hc ih => simp [hc, ih]

theorem Gap.endsLine_ofRun (run : List Char) : (ofRun run).endsLine = run.any isLineEnd := by
  have h := lineBreaks_eq_zero_iff run
  rw [ofRun]
  split
  · simp_all [endsLine]
  · split <;> simp_all [endsLine]

theorem Gap.ofRun_eq_nothing {run : List Char} : ofRun run = nothing ↔ run = [] := by
  rw [ofRun]
  split
  · simp_all
  · split <;> simp_all

theorem Gap.ofRun_eq_space {run : List Char} (hr : run ≠ []) (hl : run.any isLineEnd = false) :
    ofRun run = space := by
  rw [ofRun, if_neg hr, (lineBreaks_eq_zero_iff run).2 hl]
  rfl

/-! ### Items of a line -/

namespace Item

def isBlank : Item → Bool
  | char c => Text.isBlank c
  | lexeme _ => false

theorem exists_char_of_isBlank {x : Item} (hx : x.isBlank = true) :
    ∃ c, x = char c ∧ Text.isBlank c = true := by
  cases x with
  | char c => exact ⟨c, rfl, hx⟩
  | lexeme s => simp [isBlank] at hx

/-- An item as it is written: a comment without the blanks it ends in. -/
def trimmed : Item → Item
  | char c => char c
  | lexeme s => lexeme { s with text := if s.isComment then trimEnd s.text else s.text }

/-- Whether a line has to start with an item. -/
def startsLine (x : Item) : Bool := x == char '\x7d'

/-- Whether a line has to end behind an item, given the character that is not blank after it. -/
def endsLine (next : Option Char) : Item → Bool
  | char c => c == '\x7b' || c == ';' || (c == ',' && !next.any closeBrackets.contains)
  | lexeme s => s.isComment

/-- The depth of an item, given the depth that was reached. -/
def depth (reached : Nat) (x : Item) : Nat := if x = char '\x7d' then reached - 1 else reached

/-- The depth behind an item of the given depth. -/
def depthAfter (depth : Nat) (x : Item) : Nat := if x = char '\x7b' then depth + 1 else depth

theorem trimmed_of_not_isComment {s : Segment} (hs : s.isComment = false) :
    (lexeme s).trimmed = lexeme s := by
  simp [trimmed, hs]

theorem trimmed_comment {s : Segment} (hs : s.isComment = true) :
    (lexeme s).trimmed = lexeme { s with text := trimEnd s.text } := by
  simp [trimmed, hs]

theorem trimmed_trimmed (x : Item) : x.trimmed.trimmed = x.trimmed := by
  cases x with
  | char c => rfl
  | lexeme s =>
    cases hs : s.isComment with
    | false => rw [trimmed_of_not_isComment hs, trimmed_of_not_isComment hs]
    | true =>
      rw [trimmed_comment hs, trimmed_comment (by exact hs)]
      exact congrArg (fun text => lexeme { s with text }) (List.rdropWhile_idempotent _ _)

@[simp] theorem isBlank_trimmed (x : Item) : x.trimmed.isBlank = x.isBlank := by
  cases x <;> rfl

@[simp] theorem endsLine_trimmed (x : Item) (next : Option Char) :
    x.trimmed.endsLine next = x.endsLine next := by
  cases x <;> rfl

/-- Only comments are trimmed, and they end their line. -/
theorem endsLine_of_trimmed_ne {x : Item} (h : x.trimmed ≠ x) (next : Option Char) :
    x.endsLine next = true := by
  cases x with
  | char c => exact absurd rfl h
  | lexeme s =>
    by_contra hs
    exact h (trimmed_of_not_isComment (Bool.not_eq_true _ ▸ hs))

theorem trimmed_eq_char_iff {x : Item} {c : Char} : x.trimmed = char c ↔ x = char c := by
  cases x <;> simp [trimmed]

@[simp] theorem startsLine_trimmed (x : Item) : x.trimmed.startsLine = x.startsLine := by
  rw [startsLine, startsLine, Bool.eq_iff_iff, beq_iff_eq, beq_iff_eq, trimmed_eq_char_iff]

@[simp] theorem depth_trimmed (reached : Nat) (x : Item) : x.trimmed.depth reached = x.depth reached := by
  simp only [depth, trimmed_eq_char_iff]

@[simp] theorem depthAfter_trimmed (depth : Nat) (x : Item) :
    x.trimmed.depthAfter depth = x.depthAfter depth := by
  simp only [depthAfter, trimmed_eq_char_iff]

/-! ### Trimmed comments -/

theorem Fits.exists_ink {x : Item} {rest : List Char} (h : x.Fits rest) (hb : x.isBlank = false) :
    ∃ c cs, x.text = c :: cs ∧ Text.isBlank c = false := by
  cases x with
  | char c => exact ⟨c, [], rfl, hb⟩
  | lexeme s =>
    obtain ⟨c, cs, hs⟩ := List.exists_cons_of_ne_nil h.text_ne_nil
    exact ⟨c, cs, hs, isBlank_head?_lexeme h (by rw [show s.text = c :: cs from hs]; rfl)⟩

end Item

theorem trimEnd_cons {c : Char} (hc : isBlank c = false) (cs : List Char) :
    trimEnd (c :: cs) = c :: trimEnd cs := by
  rw [trimEnd, trimEnd, List.reverse_cons, List.dropWhile_append]
  split
  · rename_i h
    rw [List.isEmpty_iff] at h
    simp [h, hc]
  · simp

theorem trimEnd_of_getLast? {cs : List Char} {c : Char} (h : cs.getLast? = some c)
    (hc : isBlank c = false) : trimEnd cs = cs := by
  obtain ⟨ds, rfl⟩ := List.getLast?_eq_some_iff.1 h
  simp [trimEnd, hc]

theorem exists_trimEnd_append (cs : List Char) :
    ∃ ds, cs = trimEnd cs ++ ds ∧ ∀ d ∈ ds, isBlank d = true :=
  ⟨cs.rtakeWhile isBlank, (List.rdropWhile_append_rtakeWhile ..).symm, fun _ => List.mem_rtakeWhile_imp⟩

namespace Item

/-- An item is written without some of the blanks that it ends in. -/
theorem exists_text_trimmed (x : Item) :
    ∃ ds, x.text = x.trimmed.text ++ ds ∧ ∀ d ∈ ds, Text.isBlank d = true := by
  cases x with
  | char c => exact ⟨[], by simp [trimmed]⟩
  | lexeme s =>
    cases hs : s.isComment with
    | false => exact ⟨[], by simp [trimmed_of_not_isComment hs]⟩
    | true =>
      rw [trimmed_comment hs]
      exact exists_trimEnd_append s.text

/-- An item that is no blank starts with ink, which it keeps when it is trimmed. -/
theorem Fits.exists_ink_trimmed {x : Item} {rest : List Char} (h : x.Fits rest)
    (hb : x.isBlank = false) :
    ∃ c cs ds, x.text = c :: cs ∧ x.trimmed.text = c :: ds ∧ Text.isBlank c = false := by
  obtain ⟨c, cs, hc, hi⟩ := h.exists_ink hb
  refine ⟨c, cs, ?_⟩
  cases x with
  | char d => exact ⟨cs, hc, hc, hi⟩
  | lexeme s =>
    cases hs : s.isComment with
    | false => exact ⟨cs, hc, by rw [trimmed_of_not_isComment hs, hc], hi⟩
    | true =>
      refine ⟨trimEnd cs, hc, ?_, hi⟩
      rw [trimmed_comment hs, ← trimEnd_cons hi]
      exact congrArg trimEnd hc

/-- A comment may be trimmed before a text that its kind admits. -/
theorem Fits.trimmed {x : Item} {rest other : List Char} (h : x.Fits rest)
    (hend : rest = [] → other = []) (ha : x.Admits other) : x.trimmed.Fits other := by
  have hm := h.move hend ha
  have hslash : Text.isBlank '/' = false := by decide
  have hstar : Text.isBlank '*' = false := by decide
  cases x with
  | char c => exact hm
  | lexeme s =>
    cases h with
    | @line body _ hs =>
      have hb : ∀ c ∈ trimEnd body, isLineEnd c = false := by
        intro c hc
        have hc := (List.rdropWhile_prefix (p := Text.isBlank) (l := body)).subset hc
        exact isLineEnd_of_mem_splitLine (by rw [hs]; exact hc)
      rw [trimmed_comment rfl]
      change Ends ⟨_, trimEnd ('/' :: '/' :: body)⟩ other
      rw [trimEnd_cons hslash, trimEnd_cons hslash]
      exact .line (splitLine_behind hb fun c hc => (ha c hc).2 rfl)
    | @block body _ hs =>
      rw [trimmed_comment rfl]
      change Ends ⟨_, trimEnd ('/' :: '*' :: body)⟩ other
      rw [trimEnd_cons hslash, trimEnd_cons hstar]
      by_cases hr : rest = []
      · -- nothing follows, so that the comment may be cut short
        subst hr
        obtain ⟨ds, hds, -⟩ := exists_trimEnd_append body
        rw [List.append_nil, hds] at hs
        rw [hend rfl]
        exact .block (by rw [List.append_nil]; exact splitBlock_cut hs)
      · rw [trimEnd_of_getLast? (getLast?_splitBlock hs hr) hslash]
        exact .block (splitBlock_behind hs hr other)
    | string => exact hm
    | pattern => exact hm

end Item

/-! ### Stops -/

/-- An item with the gap in front of it and the depth of its line. -/
structure Stop where
  gap : Gap
  depth : Nat
  item : Item

/-- The gap in front of an item behind the blanks `run`. `left` tells whether the item before them ends
    its line, and is `none` for the first item. -/
def gapBefore (left : Option Bool) (run : List Char) (x : Item) : Gap := match left with
  | none => .nothing
  | some ended => (Gap.ofRun run).widened (ended || x.startsLine)

/-- Between two items that leave their line open, the gap is what the blanks come to. -/
theorem gapBefore_of_open {ended : Bool} {x : Item} (he : ended = false) (hs : x.startsLine = false)
    (run : List Char) : gapBefore (some ended) run x = Gap.ofRun run := by
  rw [gapBefore, he, hs]
  exact Gap.widened_false _

/-- The stops of items behind the blanks `run`. -/
def stops (left : Option Bool) (run : List Char) (reached : Nat) : List Item → List Stop
  | [] => []
  | x :: xs =>
    if x.isBlank then stops left (run ++ x.text) reached xs
    else
      ⟨gapBefore left run x, x.depth reached, x.trimmed⟩ ::
        stops (some (x.endsLine (firstInk? (textOf xs)))) [] (x.depthAfter (x.depth reached)) xs

/-- The items of a stop, with `size` spaces for each level of depth. -/
def Stop.items (size : Nat) (s : Stop) : List Item :=
  (s.gap.text (size * s.depth)).map .char ++ [s.item]

/-- The items of stops. -/
def laidOut (size : Nat) (ss : List Stop) : List Item := ss.flatMap (·.items size)

section

variable {left : Option Bool} {run : List Char} {reached size : Nat} {x : Item} {xs : List Item}

theorem stops_blank (hx : x.isBlank = true) :
    stops left run reached (x :: xs) = stops left (run ++ x.text) reached xs := by
  rw [stops, if_pos hx]

theorem stops_ink (hx : x.isBlank = false) :
    stops left run reached (x :: xs) =
      ⟨gapBefore left run x, x.depth reached, x.trimmed⟩ ::
        stops (some (x.endsLine (firstInk? (textOf xs)))) [] (x.depthAfter (x.depth reached)) xs := by
  rw [stops, hx]
  rfl

theorem laidOut_cons (s : Stop) (ss : List Stop) :
    laidOut size (s :: ss) = (s.gap.text (size * s.depth)).map .char ++ s.item :: laidOut size ss := by
  simp [laidOut, Stop.items]

theorem textOf_laidOut_cons (s : Stop) (ss : List Stop) :
    textOf (laidOut size (s :: ss)) =
      s.gap.text (size * s.depth) ++ (s.item.text ++ textOf (laidOut size ss)) := by
  rw [laidOut_cons, textOf_append, textOf_map_char, textOf_cons]

theorem stops_chars {cs : List Char} (hcs : ∀ c ∈ cs, isBlank c = true) :
    stops left run reached (cs.map .char ++ xs) = stops left (run ++ cs) reached xs := by
  induction cs generalizing run with
  | nil => simp
  | cons c cs ih =>
    rw [List.forall_mem_cons] at hcs
    have hc : (Item.char c).isBlank = true := hcs.1
    rw [List.map_cons, List.cons_append, stops_blank hc, ih hcs.2, List.append_assoc]
    rfl

theorem firstInk?_append_blanks {cs ds : List Char} (hcs : ∀ c ∈ cs, isBlank c = true) :
    firstInk? (cs ++ ds) = firstInk? ds := by
  have hn : cs.find? (!isBlank ·) = none := by simpa using hcs
  rw [firstInk?, firstInk?, List.find?_append, hn]
  rfl

theorem firstInk?_cons {c : Char} (hc : isBlank c = false) (cs : List Char) :
    firstInk? (c :: cs) = some c := by
  simp [firstInk?, hc]

theorem isBlank_gap {g : Gap} {width : Nat} {c : Char} (hc : c ∈ g.text width) : isBlank c = true := by
  rcases Gap.isBlank_of_mem_text hc with rfl | rfl <;> decide

theorem firstInk?_laidOut (h : AllFit xs) :
    firstInk? (textOf (laidOut size (stops left run reached xs))) = firstInk? (textOf xs) := by
  induction xs generalizing run with
  | nil => rfl
  | cons x xs ih =>
    cases hx : x.isBlank with
    | true =>
      obtain ⟨c, rfl, hc⟩ := Item.exists_char_of_isBlank hx
      have hb : ∀ d ∈ [c], isBlank d = true := by simpa using hc
      rw [stops_blank hx, ih h.2, textOf_char, ← List.singleton_append, firstInk?_append_blanks hb]
    | false =>
      obtain ⟨c, cs, ds, hc, hd, hb⟩ := h.1.exists_ink_trimmed hx
      rw [stops_ink hx, textOf_laidOut_cons, firstInk?_append_blanks fun _ => isBlank_gap, textOf_cons,
        hd, hc, List.cons_append, List.cons_append, firstInk?_cons hb, firstInk?_cons hb]

theorem gapBefore_text (left : Option Bool) (run : List Char) (x : Item) (width : Nat) :
    gapBefore left ((gapBefore left run x).text width) x.trimmed = gapBefore left run x := by
  cases left with
  | none => rfl
  | some ended => rw [gapBefore, gapBefore, Gap.ofRun_text, Item.startsLine_trimmed, Gap.widened_widened,
      Bool.or_self]

theorem stops_laidOut (h : AllFit xs) :
    stops left [] reached (laidOut size (stops left run reached xs)) = stops left run reached xs := by
  induction xs generalizing left run reached with
  | nil => rfl
  | cons x xs ih =>
    cases hx : x.isBlank with
    | true => rw [stops_blank hx, ih h.2]
    | false =>
      rw [stops_ink hx, laidOut_cons, stops_chars fun _ => isBlank_gap, List.nil_append,
        stops_ink (by rw [Item.isBlank_trimmed, hx]), gapBefore_text, firstInk?_laidOut h.2]
      simp only [Item.depth_trimmed, Item.depthAfter_trimmed, Item.endsLine_trimmed,
        Item.trimmed_trimmed]
      rw [ih h.2]

/-! ### What is laid out fits -/

/-- What stands behind an item there is a blank, or what stood behind it before. -/
theorem head?_laidOut (h : AllFit xs) {ended : Bool} {c : Char}
    (hc : (textOf (laidOut size (stops (some ended) run reached xs))).head? = some c) :
    c = ' ' ∨ c = '\n' ∨ (run = [] ∧ (textOf xs).head? = some c) := by
  induction xs generalizing run with
  | nil => simp [stops, laidOut] at hc
  | cons x xs ih =>
    cases hx : x.isBlank with
    | true =>
      rw [stops_blank hx] at hc
      have hn : run ++ x.text ≠ [] := by simp [h.1.text_ne_nil]
      exact (ih h.2 hc).imp_right (Or.imp_right fun hr => absurd hr.1 hn)
    | false =>
      rw [stops_ink hx, textOf_laidOut_cons] at hc
      cases hg : gapBefore (some ended) run x with
      | nothing =>
        have hr : run = [] := by
          rw [gapBefore] at hg
          rw [← Gap.ofRun_eq_nothing]
          cases hr : Gap.ofRun run <;> cases hb : ended || x.startsLine <;> simp_all [Gap.widened]
        obtain ⟨d, ds, es, hd, he, -⟩ := h.1.exists_ink_trimmed hx
        simp only [hg, Gap.text, he, List.nil_append, List.cons_append, List.head?_cons] at hc
        exact .inr (.inr ⟨hr, by rw [textOf_cons, hd]; exact hc⟩)
      | space => exact .inl (by simpa [hg, Gap.text] using hc.symm)
      | line => exact .inr (.inl (by simpa [hg, Gap.text] using hc.symm))
      | emptyLine => exact .inr (.inl (by simpa [hg, Gap.text] using hc.symm))

/-- A line that is ended is ended by a line feed. -/
theorem head?_laidOut_ended {c : Char}
    (hc : (textOf (laidOut size (stops (some true) run reached xs))).head? = some c) : c = '\n' := by
  induction xs generalizing run with
  | nil => simp [stops, laidOut] at hc
  | cons x xs ih =>
    cases hx : x.isBlank with
    | true => exact ih (by rwa [stops_blank hx] at hc)
    | false =>
      rw [stops_ink hx, textOf_laidOut_cons, gapBefore] at hc
      cases hr : Gap.ofRun run <;> simpa [hr, Gap.widened, Gap.text] using hc.symm

theorem admits_laidOut (hx : x.Fits (textOf xs)) (h : AllFit xs) (next : Option Char) :
    x.Admits (textOf (laidOut size (stops (some (x.endsLine next)) [] reached xs))) := by
  intro c hc
  cases hs : x.endsLine next with
  | true =>
    rw [hs] at hc
    obtain rfl := head?_laidOut_ended hc
    cases x with
    | char d => exact fun _ => by decide
    | lexeme s => exact ⟨fun _ => by decide, fun _ => by decide⟩
  | false =>
    have hline : ∀ s, x = .lexeme s → s.kind ≠ .lineComment := by
      rintro s rfl hk
      simp [Item.endsLine, Segment.isComment, hk] at hs
    have hblank : c = ' ' ∨ c = '\n' → x.AdmitsChar c := by
      intro hb
      cases x with
      | char d => rcases hb with rfl | rfl <;> exact fun _ => by decide
      | lexeme s =>
        refine ⟨fun _ => ?_, fun hk => absurd hk (hline s rfl)⟩
        rcases hb with rfl | rfl <;> decide
    rcases head?_laidOut h hc with he | he | ⟨-, he⟩
    · exact hblank (.inl he)
    · exact hblank (.inr he)
    · exact hx.admits c he

theorem allFit_chars {cs : List Char} (hcs : ∀ c ∈ cs, isBlank c = true) {ys : List Item}
    (h : AllFit ys) : AllFit (cs.map .char ++ ys) := by
  induction cs with
  | nil => exact h
  | cons c cs ih =>
    rw [List.forall_mem_cons] at hcs
    have hq : c ∉ quoteChars := by
      intro hc
      simp [Item.isBlank_of_mem_quoteChars hc] at hcs
    have hs : c ≠ '/' := by
      rintro rfl
      exact absurd hcs.1 (by decide)
    exact ⟨⟨hq, fun h => absurd h hs⟩, ih hcs.2⟩

/-- Items that fit before are laid out so that they fit again. -/
theorem allFit_laidOut (h : AllFit xs) : AllFit (laidOut size (stops left run reached xs)) := by
  induction xs generalizing left run reached with
  | nil => trivial
  | cons x xs ih =>
    cases hx : x.isBlank with
    | true => rw [stops_blank hx]; exact ih h.2
    | false =>
      rw [stops_ink hx, laidOut_cons]
      refine allFit_chars (fun _ => isBlank_gap) ⟨?_, ih h.2⟩
      refine h.1.trimmed (fun hn => ?_) (admits_laidOut h.1 h.2 _)
      cases xs with
      | nil => rfl
      | cons y ys => simp [h.2.1.text_ne_nil] at hn

/-! ### Tokens and literals of stops -/

/-- What is seen of items is seen of what is laid out, when blanks of code and the blanks that comments
    end in are not looked at. -/
theorem filterMap_laidOut {α : Type} {view : Item → Option α}
    (hblank : ∀ c, isBlank c = true → view (.char c) = none) (htrim : ∀ x, view x.trimmed = view x) :
    (laidOut size (stops left run reached xs)).filterMap view = xs.filterMap view := by
  induction xs generalizing left run reached with
  | nil => rfl
  | cons x xs ih =>
    cases hx : x.isBlank with
    | true =>
      obtain ⟨c, rfl, hc⟩ := Item.exists_char_of_isBlank hx
      rw [stops_blank hx, ih, List.filterMap_cons_none (hblank c hc)]
    | false =>
      have hgap : ((gapBefore left run x).text (size * x.depth reached)).filterMap
          (view ∘ Item.char) = [] :=
        List.filterMap_eq_nil_iff.2 fun c hc => hblank c (isBlank_gap hc)
      rw [stops_ink hx, laidOut_cons, List.filterMap_append, List.filterMap_map, hgap,
        List.nil_append, List.filterMap_cons, List.filterMap_cons, ih, htrim]

theorem Item.literal?_trimmed (x : Item) : x.trimmed.literal? = x.literal? := by
  cases x with
  | char c => rfl
  | lexeme s =>
    obtain ⟨kind, text⟩ := s
    cases kind <;> rfl

theorem filterMap_literal?_laidOut :
    (laidOut size (stops left run reached xs)).filterMap (·.literal?) =
      xs.filterMap (·.literal?) :=
  filterMap_laidOut (fun _ _ => rfl) Item.literal?_trimmed

end

end Respace.Script
